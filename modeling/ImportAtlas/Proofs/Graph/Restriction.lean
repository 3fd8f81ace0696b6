import ImportAtlas.Proofs.Discovery.Subfolder
import ImportAtlas.Proofs.Graph.Assembly
import ImportAtlas.Proofs.Resolution

/-!
# Builds of a subfolder

In a repository without links the build of a subfolder has the nodes of the whole build that lie in
the folder, and it has every edge between them. It can have further ones: imports that lead out of
the folder in the whole build, to a file that is not there for the build of the folder, and that now
fall back on a file inside. Only a file that shadows the folder can be the reason.
-/

namespace ImportAtlas

open Text Host

/-! ## Two ways to keep some of a list -/

section FilterMap

variable {α β : Type} {f g : α → Option β} {xs : List α}

theorem filterMap_sublist_filterMap (h : ∀ x ∈ xs, f x = g x ∨ f x = none) :
    (xs.filterMap f).Sublist (xs.filterMap g) := by
  induction xs with
  | nil => exact List.Sublist.slnil
  | cons x xs ih =>
      rw [List.forall_mem_cons] at h
      have hrest := ih h.2
      rw [List.filterMap_cons, List.filterMap_cons]
      rcases h.1 with hx | hx <;> rw [hx]
      · cases g x with
        | none => exact hrest
        | some y => exact hrest.cons_cons y
      · cases g x with
        | none => exact hrest
        | some y => exact hrest.cons y

theorem filterMap_eq_filterMap_iff (h : ∀ x ∈ xs, f x = g x ∨ f x = none) :
    xs.filterMap f = xs.filterMap g ↔ ∀ x ∈ xs, f x = g x := by
  constructor
  · intro heq
    induction xs with
    | nil => simp
    | cons x xs ih =>
        rw [List.forall_mem_cons] at h ⊢
        have hlen := (filterMap_sublist_filterMap h.2).length_le
        rw [List.filterMap_cons, List.filterMap_cons] at heq
        rcases h.1 with hx | hx
        · rw [hx] at heq
          refine ⟨hx, ih h.2 ?_⟩
          cases hg : g x <;> simp_all
        · cases hg : g x with
          | none =>
              rw [hx, hg] at heq
              exact ⟨hx, ih h.2 heq⟩
          | some y =>
              -- the second list would be longer
              rw [hx, hg] at heq
              simp only at heq
              rw [heq, List.length_cons] at hlen
              omega
  · exact List.filterMap_congr

end FilterMap

namespace GraphBuilder

variable {b : GraphBuilder} {host : Host} {root folder : String} {keep : String → Bool}
  {files sources : List String}

def importsIn (b : GraphBuilder) (host : Host) (root : String) (sources : List String) :
    List (String × ImportStatement) :=
  sources.flatMap fun path => (b.importsOf host root path).map (path, ·)

theorem importsIn_cons (path : String) (rest : List String) :
    b.importsIn host root (path :: rest) =
      (b.importsOf host root path).map (path, ·) ++ b.importsIn host root rest := by
  rw [importsIn, importsIn, List.flatMap_cons]

theorem mem_importsIn {x : String × ImportStatement} :
    x ∈ b.importsIn host root sources ↔ x.1 ∈ sources ∧ x.2 ∈ b.importsOf host root x.1 := by
  obtain ⟨path, i⟩ := x
  simp only [importsIn, List.mem_flatMap, List.mem_map, Prod.mk.injEq]
  constructor
  · rintro ⟨source, hsource, j, hj, rfl, rfl⟩
    exact ⟨hsource, hj⟩
  · rintro ⟨hsource, hi⟩
    exact ⟨path, hsource, i, hi, rfl, rfl⟩

theorem triplesOf_eq (b : GraphBuilder) (host : Host) (root : String) (files : List String) :
    b.triplesOf host root files =
      (b.importsIn host root files).filterMap fun x => b.triple? files x.1 x.2 := by
  rw [triplesOf, importsIn, List.filterMap_flatMap]
  simp only [List.filterMap_map, Function.comp_def]

/-- The triples of a graph with both ends in a folder. -/
def induced (folder : String) (g : FileGraph) : List (String × String × ImportKind) :=
  g.triples.filter fun t => Path.liesIn folder t.1 && Path.liesIn folder t.2.1

theorem importsIn_filter (keep : String → Bool) (sources : List String) :
    b.importsIn host root (sources.filter keep) =
      (b.importsIn host root sources).filter fun x => keep x.1 := by
  induction sources with
  | nil => rfl
  | cons path rest ih =>
      rw [importsIn_cons, List.filter_append, ← ih, List.filter_map]
      cases hkeep : keep path with
      | true =>
          rw [List.filter_cons_of_pos hkeep, importsIn_cons]
          simp [Function.comp_def, hkeep]
      | false => simp [Function.comp_def, hkeep]

theorem filter_triplesOf (b : GraphBuilder) (host : Host) (root : String) (keep : String → Bool)
    (files : List String) :
    (b.triplesOf host root files).filter (fun t => keep t.1 && keep t.2.1) =
      (b.importsIn host root (files.filter keep)).filterMap fun x =>
        (b.triple? files x.1 x.2).filter fun t => keep t.2.1 := by
  rw [triplesOf_eq, importsIn_filter, List.filter_filterMap, List.filterMap_filter]
  refine List.filterMap_congr fun x _ => ?_
  simp only [triple?]
  cases hkeep : keep x.1 <;>
    cases Resolution.resolve b.order ⟨files⟩ x.1 x.2.specifier <;> simp [Option.filter, hkeep]

theorem filter_triple? (b : GraphBuilder) (keep : String → Bool) (files : List String)
    (path : String) (i : ImportStatement) :
    ((b.triple? files path i).filter fun t => keep t.2.1) = b.triple? (files.filter keep) path i ∨
      ((b.triple? files path i).filter fun t => keep t.2.1) = none := by
  rw [triple?, triple?]
  cases hres : Resolution.resolve b.order ⟨files⟩ path i.specifier with
  | none => exact Or.inr rfl
  | some target =>
      by_cases htarget : keep target = true
      · rw [Resolution.resolve_filter_of_resolve hres htarget]
        exact Or.inl (by simp [Option.filter, htarget])
      · exact Or.inr (by simp [Option.filter, htarget])

theorem filter_triple?_eq_iff (keep : String → Bool) (files : List String) (path : String)
    (i : ImportStatement) :
    ((b.triple? files path i).filter fun t => keep t.2.1) = b.triple? (files.filter keep) path i ↔
      ∀ target, Resolution.resolve b.order ⟨files⟩ path i.specifier = some target →
        keep target = false →
        Resolution.resolve b.order ⟨files.filter keep⟩ path i.specifier = none := by
  rw [triple?, triple?]
  cases hres : Resolution.resolve b.order ⟨files⟩ path i.specifier with
  | none => simp [Resolution.resolve_filter_of_none hres]
  | some target =>
      cases htarget : keep target with
      | true =>
          rw [Resolution.resolve_filter_of_resolve hres htarget]
          simp [Option.filter, htarget]
      | false => simp [Option.filter, htarget, eq_comm (a := none)]

/-- The graph of a folder beside the graph of the whole repository. -/
structure Restricts (b : GraphBuilder) (host : Host) (root folder : String)
    (whole part : FileGraph) : Prop where
  nodes : part.nodes = whole.nodes.filter fun n => Path.liesIn folder n.path
  /-- No edge within the folder is lost, and those that are left keep their order. -/
  induced_sublist : (induced folder whole).Sublist part.triples
  /-- There are no further edges exactly if no import out of the folder falls back on a file in
  it. -/
  triples_iff : part.triples = induced folder whole ↔
    ∀ source ∈ part.ids, ∀ i ∈ b.importsOf host root source, ∀ target,
      Resolution.resolve b.order ⟨whole.ids⟩ source i.specifier = some target →
      Path.liesIn folder target = false →
      Resolution.resolve b.order ⟨part.ids⟩ source i.specifier = none
  triples_of_no_shadow : (∀ file ∈ whole.ids, ¬ Resolution.Shadows b.order folder file) →
    part.triples = induced folder whole

theorem triples_eq_induced_iff (b : GraphBuilder) (host : Host) (root folder : String)
    (files : List String) :
    (b.graphOf host root (files.filter (Path.liesIn folder))).triples =
        induced folder (b.graphOf host root files) ↔
      ∀ source ∈ files.filter (Path.liesIn folder), ∀ i ∈ b.importsOf host root source, ∀ target,
        Resolution.resolve b.order ⟨files⟩ source i.specifier = some target →
        Path.liesIn folder target = false →
        Resolution.resolve b.order ⟨files.filter (Path.liesIn folder)⟩ source i.specifier =
          none := by
  rw [eq_comm, induced, triples_graphOf, triples_graphOf, filter_triplesOf, triplesOf_eq,
    filterMap_eq_filterMap_iff fun x _ => filter_triple? b (Path.liesIn folder) files x.1 x.2]
  constructor
  · intro h source hsource i hi
    exact (filter_triple?_eq_iff _ files source i).mp
      (h (source, i) (mem_importsIn.mpr ⟨hsource, hi⟩))
  · intro h x hx
    obtain ⟨hsource, hi⟩ := mem_importsIn.mp hx
    exact (filter_triple?_eq_iff _ files x.1 x.2).mpr (h x.1 hsource x.2 hi)

theorem restricts_graphOf (hfolder : '\\' ∉ folder.toList) (files : List String) :
    b.Restricts host root folder (b.graphOf host root files)
      (b.graphOf host root (files.filter (Path.liesIn folder))) := by
  have hiff := triples_eq_induced_iff b host root folder files
  refine
    { nodes := ?_
      induced_sublist := ?_
      triples_iff := by rwa [ids_graphOf, ids_graphOf]
      triples_of_no_shadow := fun hshadow => hiff.mpr ?_ }
  · simp only [graphOf, assemble, List.filter_map]
    rfl
  · rw [induced, triples_graphOf, triples_graphOf, filter_triplesOf, triplesOf_eq]
    exact filterMap_sublist_filterMap fun x _ => filter_triple? b (Path.liesIn folder) files x.1 x.2
  · intro source _ i _ target hwhole htarget
    rw [ids_graphOf] at hshadow
    by_contra hpart
    obtain ⟨redirected, hpart⟩ := Option.ne_none_iff_exists'.mp hpart
    exact hshadow target (Resolution.mem_of_resolve hwhole)
      (Resolution.shadows_of_redirect hfolder hwhole htarget hpart)

section Scoped

variable {scope : String} {place : List String} {es : List (String × Entry)}

theorem builds_of_scope (hroot : host.root.WellFormed)
    (hrepo : host.resolve root = .ok ⟨place, .folder es⟩) (hfree : (Entry.folder es).LinkFree)
    (hscope : Scope.normalize scope = .ok (some folder))
    (hadmitted : ∀ s ∈ Path.segments folder, s ∉ b.discovery.excluded)
    (hfolder : host.isFolder (Location.join root folder) = true) :
    (b.buildFromRoot host root none).value =
        .ok (b.graphOf host root (b.discovery.listing host root [])) ∧
      (b.buildFromRoot host root (some scope)).value =
        .ok (b.graphOf host root
          ((b.discovery.listing host root []).filter (Path.liesIn folder))) := by
  obtain ⟨segs, hsegs, hw, rfl⟩ := Scope.folders?_of_normalize hscope
  have hisFolder : host.isFolder root = true := isFolder_iff.mpr ⟨place, es, hrepo⟩
  have hbase := Discovery.ne_empty_of_isFolder hisFolder
  rw [hw.segments_joinFields] at hadmitted
  rw [← Location.joinAll_eq_join hbase hw.ne_nil hw.segments] at hfolder
  rw [← Discovery.listing_eq_filter hroot hrepo hfree hw.ne_nil hw.segments hadmitted hfolder]
  have hnone : Discovery.scopeFolders? none = some [] := rfl
  exact ⟨value_buildFromRoot_of_isFolder hroot hisFolder hnone hisFolder,
    value_buildFromRoot_of_isFolder hroot hisFolder hsegs hfolder⟩

/-- In a repository without links the graph of a folder is the graph of the whole, restricted to the
folder and with the imports added that fall back on files in the folder. -/
theorem restricts_of_scope (hroot : host.root.WellFormed)
    (hrepo : host.resolve root = .ok ⟨place, .folder es⟩) (hfree : (Entry.folder es).LinkFree)
    (hscope : Scope.normalize scope = .ok (some folder))
    (hadmitted : ∀ s ∈ Path.segments folder, s ∉ b.discovery.excluded)
    (hfolder : host.isFolder (Location.join root folder) = true) :
    ∃ whole part, (b.buildFromRoot host root none).value = .ok whole ∧
      (b.buildFromRoot host root (some scope)).value = .ok part ∧
      b.Restricts host root folder whole part := by
  obtain ⟨hwhole, hpart⟩ := builds_of_scope hroot hrepo hfree hscope hadmitted hfolder
  obtain ⟨segs, _, hw, rfl⟩ := Scope.folders?_of_normalize hscope
  exact ⟨_, _, hwhole, hpart, restricts_graphOf hw.no_backslash_joinFields _⟩

end Scoped

/-! ### A folder and a file beside it that is named after it -/

def shadowEntries : List (String × Entry) :=
  [("backend", .folder [("a.js", .file ⟨#[0x3b]⟩), ("index.js", .file ⟨#[0x3b]⟩)]),
    ("backend.js", .file ⟨#[0x3b]⟩)]

def shadowHost : Host := ⟨.folder [("repo", .folder shadowEntries)], []⟩

/-- Reads one import of the importer's own folder. -/
def shadowBuilder : GraphBuilder where
  reader := fun path _ =>
    pure (.ok (if path == "backend/a.js" then [⟨".", 1, .importFrom⟩] else []))

theorem resolve_shadow : shadowHost.resolve "/repo" = .ok ⟨["repo"], .folder shadowEntries⟩ := by
  cbv

theorem normalize_shadow : Scope.normalize "backend" = .ok (some "backend") := by
  have hw : Scope.IsWritten ["backend"] := ⟨by decide, by decide, by decide, by decide⟩
  exact (Scope.normalize_joinFields_iff hw).mpr (by decide)

theorem isFolder_shadow : shadowHost.isFolder (Location.join "/repo" "backend") = true := by
  have hpath : Location.join "/repo" "backend" = Location.joinAll "/repo" ["backend"] := rfl
  have hplain : ∀ n ∈ ["backend"], IsEntryName n := by decide
  have hres := resolve_joinAll_at resolve_shadow hplain rfl (by simp)
  rw [isFolder_iff, hpath]
  exact ⟨_, _, hres.trans (if_pos (by decide))⟩

theorem restricts_shadow : ∃ whole part,
    (shadowBuilder.buildFromRoot shadowHost "/repo" none).value = .ok whole ∧
      (shadowBuilder.buildFromRoot shadowHost "/repo" (some "backend")).value = .ok part ∧
      shadowBuilder.Restricts shadowHost "/repo" "backend" whole part :=
  restricts_of_scope (by decide) resolve_shadow (by decide) normalize_shadow (by decide)
    isFolder_shadow

theorem listing_shadow : shadowBuilder.discovery.listing shadowHost "/repo" [] =
    ["backend/a.js", "backend/index.js", "backend.js"] := by
  have hmet : Walk.sightings Exclusions.standard [] (.folder shadowEntries) =
      [.file ["backend", "a.js"], .file ["backend", "index.js"], .file ["backend.js"]] := by
    rw [Walk.sightings_of_sorted (by decide)]
    simp (disch := decide) [shadowEntries, Walk.sightingsAt, Walk.sightings_of_sorted,
      Entry.isFolder, Exclusions.standard]
  rw [Discovery.listing_of_resolve rfl resolve_shadow,
    show shadowBuilder.discovery.excluded = Exclusions.standard from rfl, hmet]
  cbv

theorem importsIn_shadow :
    shadowBuilder.importsIn shadowHost "/repo" ["backend/a.js", "backend/index.js", "backend.js"] =
      [("backend/a.js", ⟨".", 1, .importFrom⟩)] := by
  have hread (names : List String) {path : String} (hpath : joinFields '/' names = path)
      (hnames : ∀ n ∈ names, IsEntryName n)
      (hat : (Entry.folder shadowEntries).at? names = some (.file ⟨#[0x3b]⟩))
      (hfits : Fits (Location.joinAll "/repo" names) names) (hne : names ≠ []) :
      shadowBuilder.importsOf shadowHost "/repo" path =
        if path == "backend/a.js" then [⟨".", 1, .importFrom⟩] else [] := by
    have hbytes := readBytes_joinAll_at (c := ⟨#[0x3b]⟩) resolve_shadow hnames hat hfits
    rw [Location.joinAll_eq_join (by decide) hne fun n hn => (hnames n hn).toIsSegment,
      hpath] at hbytes
    rw [importsOf, imports?, hbytes]
    rfl
  rw [importsIn_cons, importsIn_cons, importsIn_cons,
    hread ["backend", "a.js"] (by rfl) (by decide) rfl (by decide) (by decide),
    hread ["backend", "index.js"] (by rfl) (by decide) rfl (by decide) (by decide),
    hread ["backend.js"] (by rfl) (by decide) rfl (by decide) (by decide)]
  decide

/-- Where a file beside the folder is named after it, the folder's graph has an edge of its own. -/
theorem not_induced_shadow : ¬ ∀ (b : GraphBuilder) (host : Host) (root scope folder : String)
    (place : List String) (es : List (String × Entry)), host.root.WellFormed →
    host.resolve root = .ok ⟨place, .folder es⟩ → (Entry.folder es).LinkFree →
    Scope.normalize scope = .ok (some folder) →
    (∀ s ∈ Path.segments folder, s ∉ b.discovery.excluded) →
    host.isFolder (Location.join root folder) = true →
    ∀ whole part, (b.buildFromRoot host root none).value = .ok whole →
      (b.buildFromRoot host root (some scope)).value = .ok part →
      part.nodes = whole.nodes.filter (fun n => Path.liesIn folder n.path) ∧
        part.triples = induced folder whole := by
  intro hclaim
  obtain ⟨hwhole, hpart⟩ := builds_of_scope (b := shadowBuilder) (by decide) resolve_shadow
    (by decide) normalize_shadow (by decide) isFolder_shadow
  obtain ⟨_, htriples⟩ := hclaim shadowBuilder shadowHost "/repo" "backend" "backend" _ _
    (by decide) resolve_shadow (by decide) normalize_shadow (by decide) isFolder_shadow _ _
    hwhole hpart
  rw [induced, triples_graphOf, triples_graphOf, triplesOf_eq, triplesOf_eq, importsIn_filter,
    listing_shadow, importsIn_shadow] at htriples
  exact absurd htriples (by decide)

end GraphBuilder

end ImportAtlas
