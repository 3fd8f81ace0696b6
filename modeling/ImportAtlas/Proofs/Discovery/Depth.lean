import ImportAtlas.Proofs.Discovery.Walk

/-!
# Walks that follow links end

Wherever a walk opens one folder inside another, the inner one leaves less room: a real folder is
smaller than the one it stands in, and a link is followed only to a place that is not open yet, of
which there are finitely many. So no walk goes on for ever, and the bound on its depth is never
reached.
-/

namespace ImportAtlas

open Host

namespace Host.Entry

variable {e f : Entry} {es : List (String × Entry)} {place : List String}

mutual

/-- The places of all entries of a tree, its own among them. -/
def places : Entry → List (List String)
  | file _ => [[]]
  | link _ => [[]]
  | folder es => [] :: placesAll es

def placesAll : List (String × Entry) → List (List String)
  | [] => []
  | (name, e) :: rest => (places e).map (name :: ·) ++ placesAll rest

end

theorem placesAll_eq_flatMap (es : List (String × Entry)) :
    placesAll es = es.flatMap fun x => x.2.places.map (x.1 :: ·) := by
  induction es with
  | nil => rw [placesAll, List.flatMap_nil]
  | cons x rest ih => rw [placesAll, ih, List.flatMap_cons]

theorem nil_mem_places (e : Entry) : [] ∈ e.places := by
  cases e <;> simp [places]

theorem mem_places_of_at? (h : e.at? place = some f) : place ∈ e.places := by
  induction place generalizing e with
  | nil => exact nil_mem_places e
  | cons name rest ih =>
      rw [at?_cons, Option.bind_eq_some_iff] at h
      obtain ⟨d, hd, hf⟩ := h
      obtain ⟨es, rfl, hfind⟩ := child?_eq_some_iff.mp hd
      rw [places, placesAll_eq_flatMap]
      refine List.mem_cons_of_mem _ (List.mem_flatMap.mpr ⟨_, mem_of_find? hfind, ?_⟩)
      exact List.mem_map_of_mem (ih hf)

theorem countAll_eq_sum (es : List (String × Entry)) :
    countAll es = (es.map fun x => x.2.count).sum := by
  induction es with
  | nil => rw [countAll, List.map_nil, List.sum_nil]
  | cons x rest ih => rw [countAll, ih, List.map_cons, List.sum_cons]

theorem length_places (e : Entry) : e.places.length = e.count := by
  induction e using induction_on with
  | file c => rw [places, count, List.length_singleton]
  | link t => rw [places, count, List.length_singleton]
  | folder es ih =>
      have hentries : es.map (fun x => x.2.places.length) = es.map fun x => x.2.count :=
        List.map_congr_left ih
      rw [places, count, placesAll_eq_flatMap, countAll_eq_sum, List.length_cons,
        List.length_flatMap]
      simp only [List.length_map, hentries, Nat.add_comm]

theorem count_pos (e : Entry) : 0 < e.count := by
  cases e <;> rw [count] <;> omega

end Host.Entry

namespace Walk

/-- A folder that a walk is in, with all that are open there, itself the first of them. -/
structure Position where
  chain : List Opened
  place : List String
  path : List String

/-- What a walk makes of one entry of a folder. -/
inductive Turn where
  | shows (met : List Sighting)
  | opens (inner : Position)

variable (excluded : List String) (host : Host) (start : String)

/-- What stands at an entry of the folder at `place`, reached by `path`; a link is followed from the
start of the walk. -/
def arrive (place path : List String) (name : String) : Entry → Except HostError Found
  | .link _ => host.resolve (Location.joinAll start (path ++ [name]))
  | e => .ok ⟨place ++ [name], e⟩

namespace Position

def entries (p : Position) : List (String × Entry) :=
  ((host.root.at? p.place).map Entry.entries).getD []

def met (depth : Nat) (p : Position) : List Sighting :=
  sightingsFollowing excluded host start depth p.chain p.place p.path

/-- The folder at `target`, a name below. -/
def inside (p : Position) (name : String) (target : List String) : Position :=
  ⟨⟨target, Location.joinAll start (p.path ++ [name])⟩ :: p.chain, target, p.path ++ [name]⟩

/-- The folder that a walk has open at `target`, if it comes there by a link. -/
def looping? (p : Position) (e : Entry) (target : List String) : Option Opened :=
  match e with
  | .link _ => p.chain.find? (·.place == target)
  | _ => none

def turn (p : Position) (name : String) (e : Entry) : Turn :=
  match arrive host start p.place p.path name e with
  | .error reason => .shows [.failed (p.path ++ [name]) (.host reason)]
  | .ok ⟨_, .file _⟩ => .shows [.file (p.path ++ [name])]
  | .ok ⟨_, .link _⟩ => .shows []
  | .ok ⟨target, .folder _⟩ =>
    match p.looping? e target with
    | some o => .shows [.failed (p.path ++ [name]) (.loop o.shown)]
    | none =>
      if excluded.contains name then .shows [.excluded (p.path ++ [name])]
      else .opens (p.inside start name target)

end Position

def Turn.met (depth : Nat) : Turn → List Sighting
  | .shows met => met
  | .opens inner => inner.met excluded host start depth

variable {excluded host start} {p q : Position} {name : String} {e : Entry}
  {es : List (String × Entry)} {depth : Nat} {place : List String}

@[simp] theorem arrive_file (place path : List String) (name : String) (c : ByteArray) :
    arrive host start place path name (.file c) = .ok ⟨place ++ [name], .file c⟩ := rfl

@[simp] theorem arrive_folder (place path : List String) (name : String)
    (es : List (String × Entry)) :
    arrive host start place path name (.folder es) = .ok ⟨place ++ [name], .folder es⟩ := rfl

@[simp] theorem arrive_link (place path : List String) (name target : String) :
    arrive host start place path name (.link target) =
      host.resolve (Location.joinAll start (path ++ [name])) := rfl

@[simp] theorem looping?_folder (p : Position) (es : List (String × Entry)) (place : List String) :
    p.looping? (.folder es) place = none := rfl

@[simp] theorem looping?_link (p : Position) (target : String) (place : List String) :
    p.looping? (.link target) place = p.chain.find? (·.place == place) := rfl

theorem enter_eq_met {target : List String} :
    sightingsFollowing.enter excluded host start depth p.chain target (p.path ++ [name]) name =
      Turn.met excluded host start depth
        (if excluded.contains name then .shows [.excluded (p.path ++ [name])]
        else .opens (p.inside start name target)) := by
  rw [sightingsFollowing.enter]
  split <;> rfl

theorem visit_eq_met :
    sightingsFollowing.visit excluded host start depth p.chain p.place p.path name e =
      (p.turn excluded host start name e).met excluded host start depth := by
  rw [Position.turn]
  cases e with
  | file c =>
      rw [sightingsFollowing.visit]
      rfl
  | folder es =>
      rw [sightingsFollowing.visit, enter_eq_met]
      rfl
  | link target =>
      rw [sightingsFollowing.visit, arrive_link]
      cases host.resolve (Location.joinAll start (p.path ++ [name])) with
      | error reason => rfl
      | ok f =>
          obtain ⟨place, d⟩ := f
          cases d with
          | file c => rfl
          | link target' => rfl
          | folder es =>
              simp only [looping?_link, enter_eq_met]
              cases p.chain.find? (·.place == place) <;> rfl

theorem met_succ : p.met excluded host start (depth + 1) =
    inOrder ((p.entries host).map fun x =>
      (x.1, (p.turn excluded host start x.1 x.2).met excluded host start depth)) := by
  rw [Position.met, sightingsFollowing]
  simp only [visit_eq_met]
  rfl

/-- A walk that is in one folder opens another one inside. -/
def Opens (excluded : List String) (host : Host) (start : String) (outer inner : Position) : Prop :=
  ∃ x ∈ outer.entries host, outer.turn excluded host start x.1 x.2 = .opens inner

/-- All that is known of a folder that is opened. -/
theorem turn_eq_opens_iff :
    p.turn excluded host start name e = .opens q ↔ ∃ target es,
      arrive host start p.place p.path name e = .ok ⟨target, .folder es⟩ ∧
        p.looping? e target = none ∧ name ∉ excluded ∧ q = p.inside start name target := by
  rw [Position.turn]
  cases arrive host start p.place p.path name e with
  | error reason => simp
  | ok f =>
      obtain ⟨target, d⟩ := f
      cases d with
      | file c => simp
      | link target' => simp
      | folder es =>
          simp only [Except.ok.injEq, Found.mk.injEq, Entry.folder.injEq]
          cases hloop : p.looping? e target with
          | some o => simp +contextual [hloop]
          | none =>
              by_cases hadmitted : name ∈ excluded
              · simp [hadmitted]
              · simp [hadmitted, hloop, eq_comm]

theorem mem_entries_iff {x : String × Entry} :
    x ∈ p.entries host ↔ ∃ es, host.root.at? p.place = some (.folder es) ∧ x ∈ es := by
  rw [Position.entries]
  cases host.root.at? p.place with
  | none => simp
  | some d => cases d <;> simp [Entry.entries]

theorem opens_iff : Opens excluded host start p q ↔ ∃ es name e target ds,
    host.root.at? p.place = some (.folder es) ∧ (name, e) ∈ es ∧
      arrive host start p.place p.path name e = .ok ⟨target, .folder ds⟩ ∧
      p.looping? e target = none ∧ name ∉ excluded ∧ q = p.inside start name target := by
  constructor
  · rintro ⟨⟨name, e⟩, hx, hturn⟩
    obtain ⟨es, hat, hmem⟩ := mem_entries_iff.mp hx
    obtain ⟨target, ds, hopen⟩ := turn_eq_opens_iff.mp hturn
    exact ⟨es, name, e, target, ds, hat, hmem, hopen⟩
  · rintro ⟨es, name, e, target, ds, hat, hmem, hopen⟩
    exact ⟨(name, e), mem_entries_iff.mpr ⟨es, hat, hmem⟩,
      turn_eq_opens_iff.mpr ⟨target, ds, hopen⟩⟩

/-- What is arrived at stands in the tree at the place that is given for it. -/
theorem at?_of_arrive {f : Found} (hroot : host.root.WellFormed)
    (hat : host.root.at? place = some (.folder es)) (hx : (name, e) ∈ es) {path : List String}
    (h : arrive host start place path name e = .ok f) : host.root.at? f.place = some f.entry := by
  have hchild : host.root.at? (place ++ [name]) = some e := by
    rw [Entry.at?_snoc hat]
    exact Entry.find?_of_mem (hroot.of_at? hat).1.distinct hx
  cases e with
  | file c =>
      cases h
      exact hchild
  | folder ds =>
      cases h
      exact hchild
  | link target => exact at?_of_resolve h

/-! ## Room -/

/-- The places of a host where a walk has nothing open. -/
def vacant (host : Host) (p : Position) : Finset (List String) :=
  host.root.places.toFinset \ (p.chain.map Opened.place).toFinset

/-- How far a walk can still go: to each place that is not open, and from there to the bottom of
the tree. -/
def room (host : Host) (p : Position) : Nat :=
  (vacant host p).card * (host.root.count + 1) + ((host.root.at? p.place).map Entry.count).getD 0

theorem vacant_inside_subset (target : List String) :
    vacant host (p.inside start name target) ⊆ vacant host p := by
  rw [vacant, vacant, Position.inside, List.map_cons, List.toFinset_cons]
  exact Finset.sdiff_subset_sdiff (Finset.Subset.refl _) (Finset.subset_insert _ _)

theorem card_vacant_lt {target : List String} (hat : host.root.at? target = some e)
    (hnew : target ∉ p.chain.map Opened.place) :
    (vacant host (p.inside start name target)).card < (vacant host p).card := by
  have hplace : target ∈ vacant host p := by
    simp only [vacant, Finset.mem_sdiff, List.mem_toFinset]
    exact ⟨Entry.mem_places_of_at? hat, hnew⟩
  have hopen : target ∉ vacant host (p.inside start name target) := by
    simp [vacant, Position.inside]
  exact Finset.card_lt_card ⟨vacant_inside_subset target, fun h => hopen (h hplace)⟩

theorem looping?_eq_none_iff : p.looping? e place = none ↔
    ∀ text, e = .link text → place ∉ p.chain.map Opened.place := by
  cases e with
  | file c => simp [Position.looping?]
  | folder es => simp
  | link text =>
      have hopen : (∀ o ∈ p.chain, ¬ (o.place == place) = true) ↔
          place ∉ p.chain.map Opened.place := by
        simp only [beq_iff_eq, List.mem_map, not_exists, not_and]
      rw [looping?_link, List.find?_eq_none, hopen]
      exact ⟨fun h _ _ => h, fun h => h text rfl⟩

theorem room_inside {target : List String} (hat : host.root.at? target = some e) :
    room host (p.inside start name target) =
      (vacant host (p.inside start name target)).card * (host.root.count + 1) + e.count := by
  have htarget : host.root.at? (p.inside start name target).place = some e := hat
  rw [room, htarget, Option.map_some, Option.getD_some]

/-- One folder inside another leaves less room. -/
theorem room_lt_of_opens (hroot : host.root.WellFormed) (h : Opens excluded host start p q) :
    room host q < room host p := by
  obtain ⟨es, name, e, target, ds, hat, hmem, harrive, hloop, -, rfl⟩ := opens_iff.mp h
  have htarget : host.root.at? target = some (.folder ds) := at?_of_arrive hroot hat hmem harrive
  rw [room_inside htarget, room, hat, Option.map_some, Option.getD_some]
  cases e with
  | file c => cases harrive
  | folder ds' =>
      cases harrive
      have hsmaller : (Entry.folder ds).count < (Entry.folder es).count :=
        Entry.count_lt_of_mem hmem
      exact Nat.add_lt_add_of_le_of_lt
        (Nat.mul_le_mul_right _ (Finset.card_le_card (vacant_inside_subset _))) hsmaller
  | link text =>
      have hvacant : (vacant host (p.inside start name target)).card < (vacant host p).card :=
        card_vacant_lt htarget (looping?_eq_none_iff.mp hloop text rfl)
      have hcount : (Entry.folder ds).count ≤ host.root.count := Entry.count_le_of_at? htarget
      calc
        _ < ((vacant host (p.inside start name target)).card + 1) * (host.root.count + 1) := by
          rw [Nat.succ_mul]
          omega
        _ ≤ (vacant host p).card * (host.root.count + 1) := Nat.mul_le_mul_right _ hvacant
        _ ≤ _ := Nat.le_add_right _ _

/-- No walk opens one folder inside another for ever. -/
theorem wellFounded_opens (excluded : List String) (hroot : host.root.WellFormed) (start : String) :
    WellFounded fun inner outer => Opens excluded host start outer inner :=
  Subrelation.wf (r := InvImage (· < ·) (room host)) (room_lt_of_opens hroot)
    (InvImage.wf _ Nat.lt_wfRel.wf)

/-! ## The bound on the depth -/

theorem room_pos (hat : host.root.at? p.place = some e) : 0 < room host p := by
  have hcount : 0 < e.count := e.count_pos
  rw [room, hat, Option.map_some, Option.getD_some]
  omega

theorem entries_eq_nil_of_room (h : room host p = 0) : p.entries host = [] := by
  cases hat : host.root.at? p.place with
  | none => rw [Position.entries, hat]; rfl
  | some e => exact absurd h (room_pos hat).ne'

/-- As long as a walk has room for its depth, more depth shows nothing more. -/
theorem met_succ_eq_met (hroot : host.root.WellFormed) (hroom : room host p ≤ depth) :
    p.met excluded host start (depth + 1) = p.met excluded host start depth := by
  induction depth generalizing p with
  | zero =>
      rw [met_succ, entries_eq_nil_of_room (Nat.le_zero.mp hroom), Position.met,
        sightingsFollowing]
      simp [inOrder, sortByName]
  | succ depth ih =>
      rw [met_succ, met_succ]
      congr 1
      refine List.map_congr_left fun x hx => ?_
      cases hturn : p.turn excluded host start x.1 x.2 with
      | shows met => rfl
      | opens inner =>
          have hless : room host inner < room host p := room_lt_of_opens hroot ⟨x, hx, hturn⟩
          rw [Turn.met, Turn.met, ih (by omega)]

theorem met_eq_of_le (hroot : host.root.WellFormed) (hroom : room host p ≤ depth) {more : Nat}
    (hmore : depth ≤ more) : p.met excluded host start more = p.met excluded host start depth := by
  induction more, hmore using Nat.le_induction with
  | base => rfl
  | succ more hle ih => rw [met_succ_eq_met hroot (hroom.trans hle), ih]

def outset (start : String) (place : List String) : Position := ⟨[⟨place, start⟩], place, []⟩

theorem room_outset_le (hat : host.root.at? place = some e) :
    room host (outset start place) ≤ depthBound host := by
  have hvacant : (vacant host (outset start place)).card ≤ host.root.count := by
    calc
      (vacant host (outset start place)).card ≤ host.root.places.toFinset.card :=
        Finset.card_le_card Finset.sdiff_subset
      _ ≤ host.root.places.length := List.toFinset_card_le _
      _ = host.root.count := Entry.length_places _
  have hcount : e.count ≤ host.root.count := Entry.count_le_of_at? hat
  have hplace : host.root.at? (outset start place).place = some e := hat
  rw [room, hplace, Option.map_some, Option.getD_some, depthBound, Nat.succ_mul]
  have hscaled := Nat.mul_le_mul_right (host.root.count + 1) hvacant
  omega

/-- A walk that follows links meets the same whatever depth it may go to from its bound on. -/
theorem run_eq_met (hroot : host.root.WellFormed)
    (h : host.resolve start = .ok ⟨place, .folder es⟩) (hdepth : depthBound host ≤ depth) :
    run excluded host start true = (outset start place).met excluded host start depth := by
  rw [run_true h]
  exact (met_eq_of_le hroot (room_outset_le (at?_of_resolve h)) hdepth).symm

end Walk

end ImportAtlas
