import ImportAtlas.Proofs.Discovery.Addition
import ImportAtlas.Proofs.Discovery.Way

/-!
# What a walk that follows links lists

A walk that follows links meets exactly the files that are reached from its start, so it drops
nothing but what fails on the way to it, and it lists those that are source files in the order of
the names on the way.
-/

namespace ImportAtlas

open Host

namespace Walk

variable {host : Host} {start name : String} {excluded names place : List String} {e : Entry}
  {es : List (String × Entry)} {p : Position} {depth : Nat}

/-! ## Inside a folder -/

/-- A file is met at an entry that is one, or in a folder that is opened there. -/
theorem file_mem_turn_iff :
    .file names ∈ (p.turn excluded host start name e).met excluded host start depth ↔
      ∃ g, arrive host start p.place p.path name e = .ok g ∧
        ((∃ c, g.entry = .file c) ∧ names = p.path ++ [name] ∨
          (∃ ds, g.entry = .folder ds) ∧ p.looping? e g.place = none ∧ name ∉ excluded ∧
            .file names ∈ (p.inside start name g.place).met excluded host start depth) := by
  rw [Position.turn]
  cases arrive host start p.place p.path name e with
  | error reason => simp [Turn.met]
  | ok g =>
      obtain ⟨target, d⟩ := g
      cases d with
      | file c => simp [Turn.met]
      | link text => simp [Turn.met]
      | folder ds =>
          cases hloop : p.looping? e target with
          | some o => simp [Turn.met, hloop]
          | none =>
              by_cases hname : name ∈ excluded
              · simp [Turn.met, hname, hloop]
              · simp [Turn.met, hname, hloop]

/-- At one entry the walk meets the files that are reached through it, if it does so in each folder
that it opens there. -/
theorem file_mem_turn_iff_reachesFrom (hroot : host.root.WellFormed)
    (hplace : p.place ∈ p.chain.map Opened.place)
    (hat : host.root.at? p.place = some (.folder es)) (hx : (name, e) ∈ es)
    (hinner : ∀ target ds, Opens excluded host start p (p.inside start name target) →
      host.root.at? target = some (.folder ds) →
      (.file names ∈ (p.inside start name target).met excluded host start depth ↔
        ∃ rest, names = p.path ++ [name] ++ rest ∧ ReachesFrom host start excluded
          (target :: p.chain.map Opened.place) (p.path ++ [name]) ⟨target, .folder ds⟩ rest)) :
    .file names ∈ (p.turn excluded host start name e).met excluded host start depth ↔
      ∃ rest, names = p.path ++ name :: rest ∧ ReachesFrom host start excluded
        (p.chain.map Opened.place) p.path ⟨p.place, .folder es⟩ (name :: rest) := by
  have hchild : (Found.mk p.place (.folder es)).entry.child? name = some e :=
    Entry.find?_of_mem (hroot.of_at? hat).1.distinct hx
  have hfolder {target : List String} {ds : List (String × Entry)}
      (harrive : arrive host start p.place p.path name e = .ok ⟨target, .folder ds⟩)
      (hloop : p.looping? e target = none) (hname : name ∉ excluded) :=
    hinner target ds
      (opens_iff.mpr ⟨es, name, e, target, ds, hat, hx, harrive, hloop, hname, rfl⟩)
      (at?_of_arrive hroot hat hx harrive)
  rw [file_mem_turn_iff]
  simp only [reachesFrom_cons hplace hchild]
  constructor
  · rintro ⟨⟨target, d⟩, harrive, ⟨⟨c, hc⟩, hnames⟩ | ⟨⟨ds, hds⟩, hloop, hname, hmet⟩⟩
    · cases hc
      refine ⟨[], by simpa using hnames, ⟨target, .file c⟩, harrive, by simp [Entry.isFolder],
        by simp [Entry.isFolder], ?_⟩
      exact (reachesFrom_of_not_folder rfl).mpr ⟨rfl, c, rfl⟩
    · cases hds
      obtain ⟨rest, hrest, hreaches⟩ := (hfolder harrive hloop hname).mp hmet
      exact ⟨rest, by simpa using hrest, ⟨target, .folder ds⟩, harrive, fun _ => hname,
        fun text he _ => looping?_eq_none_iff.mp hloop text he, hreaches⟩
  · rintro ⟨rest, hnames, ⟨target, d⟩, harrive, hname, hloop, hreaches⟩
    refine ⟨⟨target, d⟩, harrive, ?_⟩
    cases d with
    | file c =>
        obtain ⟨rfl, -⟩ := (reachesFrom_of_not_folder rfl).mp hreaches
        exact .inl ⟨⟨c, rfl⟩, hnames⟩
    | link text =>
        obtain ⟨-, c, hc⟩ := (reachesFrom_of_not_folder rfl).mp hreaches
        cases hc
    | folder ds =>
        have hnone : p.looping? e target = none :=
          looping?_eq_none_iff.mpr fun text he => hloop text he rfl
        refine .inr ⟨⟨ds, rfl⟩, hnone, hname rfl, (hfolder harrive hnone (hname rfl)).mpr ?_⟩
        exact ⟨rest, by simpa using hnames, hreaches⟩

/-- Within the bound on its depth, a walk meets in a folder exactly the files that are reached from
there. -/
theorem file_mem_met_iff (hroot : host.root.WellFormed)
    (hplace : p.place ∈ p.chain.map Opened.place)
    (hat : host.root.at? p.place = some (.folder es)) (hroom : room host p ≤ depth) :
    .file names ∈ p.met excluded host start depth ↔
      ∃ below, names = p.path ++ below ∧ ReachesFrom host start excluded
        (p.chain.map Opened.place) p.path ⟨p.place, .folder es⟩ below := by
  induction depth generalizing p es with
  | zero => exact absurd (Nat.le_zero.mp hroom) (room_pos hat).ne'
  | succ depth ih =>
      have hentry {name : String} {e : Entry} (hx : (name, e) ∈ es) :
          .file names ∈ (p.turn excluded host start name e).met excluded host start depth ↔
            ∃ rest, names = p.path ++ name :: rest ∧ ReachesFrom host start excluded
              (p.chain.map Opened.place) p.path ⟨p.place, .folder es⟩ (name :: rest) := by
        refine file_mem_turn_iff_reachesFrom hroot hplace hat hx fun target ds hopens htarget => ?_
        have hless : room host (p.inside start name target) < room host p :=
          room_lt_of_opens hroot hopens
        exact ih (p := p.inside start name target) List.mem_cons_self htarget (by omega)
      rw [met_succ, mem_inOrder]
      simp only [List.mem_map, exists_exists_and_eq_and, mem_entries_iff]
      constructor
      · rintro ⟨⟨name, e⟩, ⟨ds, hds, hx⟩, hmet⟩
        rw [hat, Option.some.injEq, Entry.folder.injEq] at hds
        subst hds
        obtain ⟨rest, hnames, hreaches⟩ := (hentry hx).mp hmet
        exact ⟨name :: rest, hnames, hreaches⟩
      · rintro ⟨below, hnames, hreaches⟩
        cases below with
        | nil => exact absurd hreaches not_reachesFrom_folder_nil
        | cons name rest =>
            obtain ⟨place, c, hfile⟩ := hreaches.file
            obtain ⟨e, _, hchild, -, -⟩ := goFrom?_cons_eq_some hfile
            have hx : (name, e) ∈ es := Entry.mem_of_find? hchild
            exact ⟨(name, e), ⟨es, hat, hx⟩, (hentry hx).mpr ⟨rest, hnames, hreaches⟩⟩

/-! ## From the start on -/

theorem run_of_error {reason : HostError} (h : host.resolve start = .error reason) :
    run excluded host start true = [.failed [] (.host reason)] := by
  have hlookup : host.lookup true start = .error reason := h
  rw [run, hlookup]

theorem run_of_not_folder (h : host.resolve start = .ok ⟨place, e⟩) (he : e.isFolder = false) :
    run excluded host start true = sightings excluded [] e := by
  have hlookup : host.lookup true start = .ok ⟨place, e⟩ := h
  rw [run, hlookup]
  cases e with
  | folder es => cases he
  | file c => rfl
  | link text => rfl

theorem file_mem_run_iff (hroot : host.root.WellFormed) :
    .file names ∈ run excluded host start true ↔ Reaches host start excluded names := by
  cases hres : host.resolve start with
  | error reason =>
      rw [run_of_error hres]
      simpa using not_reaches_of_error hres
  | ok f =>
      obtain ⟨place, d⟩ := f
      rw [reaches_iff hres]
      by_cases hfolder : d.isFolder = true
      · obtain ⟨es, rfl⟩ := Entry.exists_of_isFolder hfolder
        have hat : host.root.at? (outset start place).place = some (.folder es) :=
          at?_of_resolve hres
        rw [run_eq_met hroot hres (Nat.le_refl _),
          file_mem_met_iff hroot List.mem_cons_self hat (room_outset_le hat)]
        simp [outset]
      · have hother : d.isFolder = false := Bool.eq_false_iff.mpr hfolder
        rw [run_of_not_folder hres hother, reachesFrom_of_not_folder hother]
        cases d with
        | file c => simp
        | link text => simp
        | folder es => cases hother

end Walk

namespace Discovery

open Walk

variable {d : Discovery} {host : Host} {start base : String} {names segs : List String}

/-- The names from the start of a walk to a source file it meets. -/
def sourceWay? (start : String) : Sighting → Option (List String)
  | .file path => if isSourceName (sightedName start path) then some path else none
  | .excluded _ | .failed _ _ => none

/-- The ways from the start of a walk to the source files it meets. -/
def ways (d : Discovery) (host : Host) (start : String) : List (List String) :=
  (Walk.run d.excluded host start d.followLinks).filterMap (sourceWay? start)

theorem sourceWay?_eq_some_iff {s : Sighting} :
    sourceWay? start s = some names ↔
      s = .file names ∧ HasSourceExtension (sightedName start names) := by
  rw [← isSourceName_iff]
  cases s with
  | file path =>
      simp only [sourceWay?, Option.ite_none_right_eq_some, Option.some.injEq, Sighting.file.injEq]
      constructor
      · rintro ⟨hsource, rfl⟩
        exact ⟨rfl, hsource⟩
      · rintro ⟨rfl, hsource⟩
        exact ⟨hsource, rfl⟩
  | excluded path => simp [sourceWay?]
  | failed path reason => simp [sourceWay?]

theorem listed?_eq_bind (base start : String) (s : Sighting) :
    listed? base start s = (sourceWay? start s).bind (Location.relative? base start) := by
  cases s with
  | excluded path => rfl
  | failed path reason => rfl
  | file path =>
      rw [listed?, sourceWay?]
      split <;> rfl

theorem mem_ways_iff :
    names ∈ d.ways host start ↔ .file names ∈ Walk.run d.excluded host start d.followLinks ∧
      HasSourceExtension (sightedName start names) := by
  simp only [ways, List.mem_filterMap, sourceWay?_eq_some_iff]
  constructor
  · rintro ⟨s, hs, rfl, hsource⟩
    exact ⟨hs, hsource⟩
  · rintro ⟨hs, hsource⟩
    exact ⟨_, hs, rfl, hsource⟩

theorem mem_ways_iff_reaches (hroot : host.root.WellFormed) (hlinks : d.followLinks = true) :
    names ∈ d.ways host start ↔
      Reaches host start d.excluded names ∧ HasSourceExtension (sightedName start names) := by
  rw [mem_ways_iff, hlinks, file_mem_run_iff hroot]

theorem value_walk_eq_ways (d : Discovery) (host : Host) (start base : String) :
    (d.walk host start base).value =
      (d.ways host start).filterMap (Location.relative? base start) := by
  rw [value_walk, ways, List.filterMap_filterMap]
  exact List.filterMap_congr fun s _ => listed?_eq_bind base start s

/-- From a folder of the base, each way shows as the folders down to it and the names on it. -/
theorem value_walk_eq_map (hroot : host.root.WellFormed) (hbase : base ≠ "")
    (hsegs : ∀ n ∈ segs, IsSegment n)
    (hstart : host.isFolder (Location.joinAll base segs) = true) :
    (d.walk host (Location.joinAll base segs) base).value =
      (d.ways host (Location.joinAll base segs)).map fun names =>
        Text.joinFields '/' (segs ++ names) := by
  obtain ⟨place, es, hres⟩ := isFolder_iff.mp hstart
  have hspread := spreadInside_run d.excluded hroot hres d.followLinks
  rw [value_walk_eq_ways, ← List.filterMap_eq_map]
  refine List.filterMap_congr fun names hnames => ?_
  have hmet := (mem_ways_iff.mp hnames).1
  obtain ⟨rest, hrest, hplain⟩ := hspread.below _ hmet
  have hne : names ≠ [] := hspread.inside _ hmet
  replace hrest : names = rest := hrest
  subst hrest
  exact Location.relative?_joinAll hbase hsegs (fun n hn => (hplain n hn).toIsSegment)
    (by simpa using fun _ => hne)

theorem pairwise_ways (hroot : host.root.WellFormed) (hlinks : d.followLinks = true) :
    (d.ways host start).Pairwise (· < ·) := by
  have hmet : (Walk.run d.excluded host start true).Pairwise fun s t => s.path < t.path := by
    cases hres : host.resolve start with
    | error reason =>
        rw [run_of_error hres]
        exact List.pairwise_singleton _ _
    | ok f =>
        obtain ⟨place, e⟩ := f
        by_cases hfolder : e.isFolder = true
        · obtain ⟨es, rfl⟩ := Entry.exists_of_isFolder hfolder
          exact pairwise_run d.excluded hroot hres true
        · rw [run_of_not_folder hres (Bool.eq_false_iff.mpr hfolder)]
          exact pairwise_sightings (hroot.of_at? (at?_of_resolve hres)).1 []
  rw [ways, hlinks, List.pairwise_filterMap]
  refine hmet.imp fun {s t} hlt p hp q hq => ?_
  obtain ⟨rfl, -⟩ := sourceWay?_eq_some_iff.mp hp
  obtain ⟨rfl, -⟩ := sourceWay?_eq_some_iff.mp hq
  exact hlt

/-- What a walk that follows links does. -/
structure FollowsLinks (d : Discovery) (host : Host) (start base : String) : Prop where
  /-- No folder is opened inside another for ever. -/
  ends : WellFounded fun inner outer => Opens d.excluded host start outer inner
  /-- The walk comes to its end within the bound on its depth. -/
  bounded : ∀ place es depth, host.resolve start = .ok ⟨place, .folder es⟩ →
    depthBound host ≤ depth → Walk.run d.excluded host start d.followLinks =
      (outset start place).met d.excluded host start depth
  lists : (d.walk host start base).value =
    (d.ways host start).filterMap (Location.relative? base start)
  lists_inside : ∀ segs, (∀ n ∈ segs, IsSegment n) → start = Location.joinAll base segs →
    base ≠ "" → host.isFolder start = true → (d.walk host start base).value =
      (d.ways host start).map fun names => Text.joinFields '/' (segs ++ names)
  sorted : (d.ways host start).Pairwise (· < ·)
  mem_iff : ∀ names, names ∈ d.ways host start ↔
    Reaches host start d.excluded names ∧ HasSourceExtension (sightedName start names)
  there : ∀ names f, leadsTo? host start names = some f → ∀ outer, outer <+: names →
    ∃ g, leadsTo? host start outer = some g ∧ (outer ≠ names → g.entry.isFolder = true)
  /-- Only what stands on the way to a file counts. -/
  alone : ∀ host' names, host'.root.WellFormed → SameWay host host' start names →
    (names ∈ d.ways host start ↔ names ∈ d.ways host' start)
  /-- Names lead on as the host finds the path of them all to do, as far as it takes the path. -/
  leads : ∀ f names, host.resolve start = .ok f → (∀ n ∈ names, IsEntryName n) →
    Fits (Location.joinAll start names) names →
    leadsTo? host start names = (host.resolve (Location.joinAll start names)).toOption

/-- In every tree, wherever its links lead, a walk that follows them comes to an end and lists, in
the order of the names on the way, exactly the source files that are reached without a loop. -/
theorem followsLinks_of_wellFormed (start base : String) (hroot : host.root.WellFormed)
    (hlinks : d.followLinks = true) : FollowsLinks d host start base where
  ends := wellFounded_opens d.excluded hroot start
  bounded := by
    intro place es depth hres hdepth
    rw [hlinks]
    exact run_eq_met hroot hres hdepth
  lists := value_walk_eq_ways d host start base
  lists_inside := by
    rintro segs hsegs rfl hbase hstart
    exact value_walk_eq_map hroot hbase hsegs hstart
  sorted := pairwise_ways hroot hlinks
  mem_iff := fun names => mem_ways_iff_reaches hroot hlinks
  there := fun names f h outer houter => leadsTo?_of_prefix h houter
  alone := by
    intro host' names hroot' hsame
    rw [mem_ways_iff_reaches hroot hlinks, mem_ways_iff_reaches hroot' hlinks, hsame.reaches_iff]
  leads := fun f names hres hnames hfits => leadsTo?_eq_resolve hres hnames hfits

/-! ### A link upwards, one that leads nowhere and one that leads outside -/

def tangledEntries : List (String × Entry) :=
  [("a.js", .file ⟨#[]⟩),
    ("dir", .folder [("b.ts", .file ⟨#[]⟩), ("gone.js", .link "nowhere"), ("up", .link "..")]),
    ("out", .link "../lib")]

def libraryEntries : List (String × Entry) := [("back", .link "../repo"), ("c.jsx", .file ⟨#[]⟩)]

def tangledHost : Host :=
  ⟨.folder [("lib", .folder libraryEntries), ("repo", .folder tangledEntries)], []⟩

theorem resolve_tangled : tangledHost.resolve "/repo" = .ok ⟨["repo"], .folder tangledEntries⟩ := by
  cbv

theorem resolve_tangled_eq {path : String} (hpath : IsPathText path)
    (habs : Location.isAbsolute path = true) :
    tangledHost.resolve path =
      (advance tangledHost.root maxLinks [] (Text.fields Location.isSlash path)).map
        fun s => found tangledHost.root s.2 := by
  have hne : path ≠ "" := by
    rintro rfl
    cases habs
  have hstart : startTrail tangledHost path = [] := if_pos habs
  rw [resolve_eq, if_neg hpath.no_nul, if_neg hne, if_neg (Nat.not_lt.mpr hpath.short), hstart]

theorem fields_tangled : Text.fields Location.isSlash "nowhere" = ["nowhere"] ∧
    Text.fields Location.isSlash ".." = [".."] ∧
    Text.fields Location.isSlash "../lib" = ["..", "lib"] := by decide

theorem relative_tangled : Location.isAbsolute "nowhere" = false ∧
    Location.isAbsolute ".." = false ∧ Location.isAbsolute "../lib" = false := by decide

theorem short_tangled : ¬ maxNameBytes < "repo".utf8ByteSize ∧ ¬ maxNameBytes < "dir".utf8ByteSize ∧
    ¬ maxNameBytes < "gone.js".utf8ByteSize ∧ ¬ maxNameBytes < "nowhere".utf8ByteSize ∧
    ¬ maxNameBytes < "up".utf8ByteSize ∧ ¬ maxNameBytes < "out".utf8ByteSize ∧
    ¬ maxNameBytes < "lib".utf8ByteSize := by decide

theorem resolve_tangled_gone :
    tangledHost.resolve (Location.joinAll "/repo" ["dir", "gone.js"]) = .error .notFound := by
  have hpath : Text.fields Location.isSlash (Location.joinAll "/repo" ["dir", "gone.js"]) =
      ["", "repo", "dir", "gone.js"] := by decide
  rw [resolve_tangled_eq (by decide) (by decide), hpath]
  simp [advance, fields_tangled, relative_tangled, short_tangled, tangledHost, tangledEntries,
    current, Entry.child?, Entry.find?, Entry.entries, Entry.isFolder, maxLinks, Except.map]

theorem resolve_tangled_up : tangledHost.resolve (Location.joinAll "/repo" ["dir", "up"]) =
    .ok ⟨["repo"], .folder tangledEntries⟩ := by
  have hpath : Text.fields Location.isSlash (Location.joinAll "/repo" ["dir", "up"]) =
      ["", "repo", "dir", "up"] := by decide
  rw [resolve_tangled_eq (by decide) (by decide), hpath]
  simp [advance, fields_tangled, relative_tangled, short_tangled, tangledHost, tangledEntries,
    current, Entry.child?, Entry.find?, Entry.entries, Entry.isFolder, maxLinks, Except.map, found]

theorem resolve_tangled_out : tangledHost.resolve (Location.joinAll "/repo" ["out"]) =
    .ok ⟨["lib"], .folder libraryEntries⟩ := by
  have hpath : Text.fields Location.isSlash (Location.joinAll "/repo" ["out"]) =
      ["", "repo", "out"] := by decide
  rw [resolve_tangled_eq (by decide) (by decide), hpath]
  simp [advance, fields_tangled, relative_tangled, short_tangled, tangledHost, tangledEntries,
    current, Entry.child?, Entry.find?, Entry.entries, Entry.isFolder, maxLinks, Except.map, found]

variable {excluded : List String}

theorem reaches_tangled_out (hout : "out" ∉ excluded) :
    Reaches tangledHost "/repo" excluded ["out", "c.jsx"] := by
  rw [reaches_iff resolve_tangled, reachesFrom_cons (e := .link "../lib") (by simp) rfl]
  refine ⟨_, resolve_tangled_out, fun _ => hout, fun _ _ _ => by decide, ?_⟩
  rw [reachesFrom_cons (e := .file ⟨#[]⟩) (by simp) rfl]
  refine ⟨_, rfl, by simp [Entry.isFolder], by simp, ?_⟩
  exact (reachesFrom_of_not_folder rfl).mpr ⟨rfl, _, rfl⟩

theorem not_reaches_tangled_gone : ¬ Reaches tangledHost "/repo" excluded ["dir", "gone.js"] := by
  rw [reaches_iff resolve_tangled, reachesFrom_cons (e := .folder _) (by simp) rfl]
  rintro ⟨g, harrive, -, -, hrest⟩
  cases harrive
  rw [reachesFrom_cons (e := .link "nowhere") (by simp) rfl] at hrest
  obtain ⟨g, harrive, -⟩ := hrest
  cases resolve_tangled_gone.symm.trans harrive

theorem not_reaches_tangled_up :
    ¬ Reaches tangledHost "/repo" excluded ["dir", "up", "a.js"] := by
  rw [reaches_iff resolve_tangled, reachesFrom_cons (e := .folder _) (by simp) rfl]
  rintro ⟨g, harrive, -, -, hrest⟩
  cases harrive
  rw [reachesFrom_cons (e := .link "..") (by simp) rfl] at hrest
  obtain ⟨g, harrive, -, hloop, -⟩ := hrest
  cases resolve_tangled_up.symm.trans harrive
  exact hloop _ rfl rfl (by simp)

theorem followsLinks_tangled :
    "out/c.jsx" ∈ (walk { followLinks := true } tangledHost "/repo" "/repo").value ∧
      ["dir", "gone.js"] ∉ ways { followLinks := true } tangledHost "/repo" ∧
      ["dir", "up", "a.js"] ∉ ways { followLinks := true } tangledHost "/repo" := by
  have hfollows : FollowsLinks { followLinks := true } tangledHost "/repo" "/repo" :=
    followsLinks_of_wellFormed "/repo" "/repo" (by decide) rfl
  refine ⟨?_, fun h => ?_, fun h => ?_⟩
  · have hstart : tangledHost.isFolder "/repo" = true := isFolder_iff.mpr ⟨_, _, resolve_tangled⟩
    have hway : ["out", "c.jsx"] ∈ ways { followLinks := true } tangledHost "/repo" :=
      (hfollows.mem_iff _).mpr ⟨reaches_tangled_out (by decide), "c", "jsx", by decide, by decide⟩
    rw [hfollows.lists_inside [] (by simp) rfl (by decide) hstart]
    exact List.mem_map.mpr ⟨_, hway, by decide⟩
  · exact not_reaches_tangled_gone ((hfollows.mem_iff _).mp h).1
  · exact not_reaches_tangled_up ((hfollows.mem_iff _).mp h).1

end Discovery

end ImportAtlas
