import ImportAtlas.Discovery.Walk
import ImportAtlas.Proofs.Host.Lookup

/-!
# What a walk meets

Each place below the start is met at most once, whether links are followed or not. Without
following links a walk meets exactly the files that real folders with admitted names lead to, and
what it meets below a folder is what a walk from that folder would have met. Where there are no
links it makes no difference whether they are followed.
-/

namespace ImportAtlas

open Host

/-- Where a sighting was made: the names below the start of the walk. -/
def Sighting.path : Sighting → List String
  | file path | excluded path | failed path _ => path

/-- The sighting as it is from a folder further up. -/
def Sighting.under (above : List String) : Sighting → Sighting
  | file path => file (above ++ path)
  | excluded path => excluded (above ++ path)
  | failed path reason => failed (above ++ path) reason

namespace Walk

variable {excluded path : List String} {xs : List (String × List Sighting)}
  {es : List (String × Entry)} {e : Entry}

/-! ## Entries in order -/

theorem sortByName_perm {α : Type} (ys : List (String × α)) : (sortByName ys).Perm ys :=
  List.mergeSort_perm _ _

theorem sortByName_of_sorted {α : Type} {ys : List (String × α)}
    (h : (ys.map (·.1)).Pairwise fun a b => ¬ b < a) : sortByName ys = ys := by
  rw [sortByName]
  apply List.mergeSort_of_pairwise
  simpa [List.pairwise_map] using h

theorem mem_inOrder {s : Sighting} : s ∈ inOrder xs ↔ ∃ x ∈ xs, s ∈ x.2 := by
  simp [inOrder, List.mem_flatMap, (sortByName_perm xs).mem_iff]

theorem sortByName_map {α β : Type} (f : α → β) (ys : List (String × α)) :
    sortByName (ys.map fun y => (y.1, f y.2)) = (sortByName ys).map fun y => (y.1, f y.2) := by
  rw [sortByName, sortByName, List.map_mergeSort]
  exact fun _ _ _ _ => rfl

theorem inOrder_map (f : Sighting → Sighting) (ys : List (String × List Sighting)) :
    (inOrder ys).map f = inOrder (ys.map fun y => (y.1, y.2.map f)) := by
  rw [inOrder, inOrder, sortByName_map, List.map_flatMap, List.flatMap_map]

/-- If only one name has anything to show, nothing else is shown. -/
theorem flatMap_eq_of_name {α β : Type} {ys : List (String × α)} {y : String × α}
    (hnames : (ys.map (·.1)).Nodup) (hy : y ∈ ys) {f : String × α → List β}
    (hf : ∀ z ∈ ys, z.1 ≠ y.1 → f z = []) : ys.flatMap f = f y := by
  obtain ⟨before, after, rfl⟩ := List.append_of_mem hy
  rw [List.map_append, List.map_cons, List.nodup_append, List.nodup_cons] at hnames
  have hbefore : before.flatMap f = [] := List.flatMap_eq_nil_iff.mpr fun z hz =>
    hf z (by simp [hz]) (hnames.2.2 z.1 (List.mem_map_of_mem hz) y.1 List.mem_cons_self)
  have hafter : after.flatMap f = [] := List.flatMap_eq_nil_iff.mpr fun z hz =>
    hf z (by simp [hz]) fun he => hnames.2.1.1 (he ▸ List.mem_map_of_mem (f := (·.1)) hz)
  rw [List.flatMap_append, List.flatMap_cons, hbefore, hafter, List.nil_append, List.append_nil]

theorem sightings_of_sorted (h : (es.map (·.1)).Pairwise fun a b => ¬ b < a) :
    sightings excluded path (.folder es) = es.flatMap (sightingsAt excluded path) := by
  have hmapped : ((es.map fun x => (x.1, sightingsAt excluded path x)).map (·.1)).Pairwise
      fun a b => ¬ b < a := by rwa [List.map_map]
  rw [sightings_folder, inOrder, sortByName_of_sorted hmapped, List.flatMap_map]

theorem mem_sightings_folder {s : Sighting} :
    s ∈ sightings excluded path (.folder es) ↔ ∃ x ∈ es, s ∈ sightingsAt excluded path x := by
  simp [sightings_folder, mem_inOrder]

/-! ## Each place once -/

/-- Sightings at or below a path, no two of them at one place. -/
structure Spread (path : List String) (met : List Sighting) : Prop where
  below : ∀ s ∈ met, ∃ rest, s.path = path ++ rest ∧ ∀ n ∈ rest, IsEntryName n
  distinct : (met.map Sighting.path).Nodup

structure SpreadInside (path : List String) (met : List Sighting) : Prop
    extends Spread path met where
  inside : ∀ s ∈ met, s.path ≠ path

theorem Spread.singleton {s : Sighting} (hs : s.path = path) : Spread path [s] where
  below := by simpa using ⟨[], by simpa using hs⟩
  distinct := by simp

theorem spread_nil (path : List String) : Spread path [] where
  below := by simp
  distinct := by simp

theorem spreadInside_inOrder (hnames : (xs.map (·.1)).Nodup) (hplain : ∀ x ∈ xs, IsEntryName x.1)
    (hxs : ∀ x ∈ xs, Spread (path ++ [x.1]) x.2) : SpreadInside path (inOrder xs) where
  below := by
    intro s hs
    obtain ⟨x, hx, hsx⟩ := mem_inOrder.mp hs
    obtain ⟨rest, hrest, hnames⟩ := (hxs x hx).below s hsx
    exact ⟨x.1 :: rest, by simpa using hrest, List.forall_mem_cons.mpr ⟨hplain x hx, hnames⟩⟩
  distinct := by
    have hperm := sortByName_perm xs
    have hsorted : (sortByName xs).Pairwise fun x y => x.1 ≠ y.1 :=
      List.pairwise_map.mp ((hperm.map Prod.fst).nodup_iff.mpr hnames)
    rw [inOrder, List.map_flatMap, List.nodup_flatMap]
    refine ⟨fun x hx => (hxs x (hperm.mem_iff.mp hx)).distinct, ?_⟩
    refine hsorted.imp_of_mem fun {x y} hx hy hne => ?_
    intro p hpx hpy
    obtain ⟨s, hs, rfl⟩ := List.mem_map.mp hpx
    obtain ⟨t, ht, hst⟩ := List.mem_map.mp hpy
    obtain ⟨r, hr, _⟩ := (hxs x (hperm.mem_iff.mp hx)).below s hs
    obtain ⟨r', hr', _⟩ := (hxs y (hperm.mem_iff.mp hy)).below t ht
    rw [hr, hr'] at hst
    simp only [List.append_assoc, List.append_cancel_left_eq, List.singleton_append,
      List.cons.injEq] at hst
    exact hne hst.1.symm
  inside := by
    intro s hs
    obtain ⟨x, hx, hsx⟩ := mem_inOrder.mp hs
    obtain ⟨rest, hrest, _⟩ := (hxs x hx).below s hsx
    simp [hrest]

theorem spreadInside_of_entries (hes : (Entry.folder es).WellFormed)
    {f : String × Entry → List Sighting} (hf : ∀ x ∈ es, Spread (path ++ [x.1]) (f x)) :
    SpreadInside path (inOrder (es.map fun x => (x.1, f x))) := by
  cases hes with
  | folder distinct names _ =>
      apply spreadInside_inOrder
      · rwa [List.map_map]
      · exact List.forall_mem_map.mpr names
      · exact List.forall_mem_map.mpr hf

theorem spread_sightingsAt {x : String × Entry}
    (hx : Spread (path ++ [x.1]) (sightings excluded (path ++ [x.1]) x.2)) :
    Spread (path ++ [x.1]) (sightingsAt excluded path x) := by
  rw [sightingsAt]
  split
  · exact .singleton rfl
  · exact hx

theorem spread_sightings (he : e.WellFormed) (path : List String) :
    Spread path (sightings excluded path e) := by
  induction e using Entry.induction_on generalizing path with
  | file c =>
      rw [sightings_file]
      exact .singleton rfl
  | link t =>
      rw [sightings_link]
      exact spread_nil path
  | folder es ih =>
      rw [sightings_folder]
      refine (spreadInside_of_entries he fun x hx => spread_sightingsAt ?_).toSpread
      exact ih x hx (he.of_mem hx) _

theorem spreadInside_sightings (excluded : List String) (hes : (Entry.folder es).WellFormed)
    (path : List String) :
    SpreadInside path (sightings excluded path (.folder es)) := by
  rw [sightings_folder]
  exact spreadInside_of_entries hes fun x hx =>
    spread_sightingsAt (spread_sightings (hes.of_mem hx) _)

variable {host : Host} {start : String}

theorem wellFormed_empty : (Entry.folder []).WellFormed :=
  .folder (by simp) (by simp) (by simp)

theorem wellFormed_entries (hroot : host.root.WellFormed) (place : List String) :
    (Entry.folder (((host.root.at? place).map Entry.entries).getD [])).WellFormed := by
  cases hat : host.root.at? place with
  | none => exact wellFormed_empty
  | some d =>
      have hd : d.WellFormed := (hroot.of_at? hat).1
      cases d with
      | folder es => exact hd
      | file c => exact wellFormed_empty
      | link t => exact wellFormed_empty

theorem spread_enter {depth : Nat} {chain : List Opened} {place : List String} {name : String}
    (h : ∀ chain place path,
      SpreadInside path (sightingsFollowing excluded host start depth chain place path)) :
    Spread path (sightingsFollowing.enter excluded host start depth chain place path name) := by
  rw [sightingsFollowing.enter]
  split
  · exact .singleton rfl
  · exact (h _ _ _).toSpread

theorem spread_visit {depth : Nat} {chain : List Opened} {place : List String} {name : String}
    (h : ∀ chain place path,
      SpreadInside path (sightingsFollowing excluded host start depth chain place path)) :
    Spread (path ++ [name])
      (sightingsFollowing.visit excluded host start depth chain place path name e) := by
  cases e with
  | file c =>
      rw [sightingsFollowing.visit]
      exact .singleton rfl
  | folder es =>
      rw [sightingsFollowing.visit]
      exact spread_enter h
  | link target =>
      rw [sightingsFollowing.visit]
      split
      · exact .singleton rfl
      · exact .singleton rfl
      · exact spread_nil _
      · split
        · exact .singleton rfl
        · exact spread_enter h

theorem spreadInside_sightingsFollowing (hroot : host.root.WellFormed) (depth : Nat)
    (chain : List Opened) (place path : List String) :
    SpreadInside path (sightingsFollowing excluded host start depth chain place path) := by
  induction depth generalizing chain place path with
  | zero =>
      rw [sightingsFollowing]
      exact ⟨spread_nil path, by simp⟩
  | succ depth ih =>
      rw [sightingsFollowing]
      exact spreadInside_of_entries (wellFormed_entries hroot place) fun x _ => spread_visit ih

/-! ## From the start on -/

variable {place : List String}

theorem run_true (h : host.resolve start = .ok ⟨place, .folder es⟩) :
    run excluded host start true =
      sightingsFollowing excluded host start (depthBound host) [⟨place, start⟩] place [] := by
  have hlookup : host.lookup true start = .ok ⟨place, .folder es⟩ := h
  rw [run, hlookup]
  rfl

/-- A link is followed where a walk starts, though nowhere else. -/
theorem run_false (h : host.resolve start = .ok ⟨place, .folder es⟩) :
    run excluded host start false = sightings excluded [] (.folder es) := by
  rw [run]
  rcases lookup_false_of_resolve h with hlookup | ⟨place', target, hlookup⟩
  · rw [hlookup]
    rfl
  · rw [hlookup, h]
    rfl

theorem spreadInside_run (excluded : List String) (hroot : host.root.WellFormed)
    (h : host.resolve start = .ok ⟨place, .folder es⟩) (followLinks : Bool) :
    SpreadInside [] (run excluded host start followLinks) := by
  cases followLinks with
  | true =>
      rw [run_true h]
      exact spreadInside_sightingsFollowing hroot _ _ _ _
  | false =>
      rw [run_false h]
      exact spreadInside_sightings excluded (hroot.of_at? (at?_of_resolve h)).1 []

/-! ## Without links -/

/-- In a tree without links, a walk that would follow them meets what one that would not does. The
bound on the depth has to reach the bottom of the tree. -/
theorem sightingsFollowing_of_linkFree {depth : Nat} (hroot : host.root.WellFormed)
    (hat : host.root.at? place = some (.folder es)) (hfree : (Entry.folder es).LinkFree)
    (hdepth : (Entry.folder es).count ≤ depth) (chain : List Opened) (path : List String) :
    sightingsFollowing excluded host start depth chain place path =
      sightings excluded path (.folder es) := by
  induction depth generalizing es place chain path with
  | zero =>
      rw [Entry.count] at hdepth
      omega
  | succ depth ih =>
      have hentries : ((host.root.at? place).map Entry.entries).getD [] = es := by rw [hat]; rfl
      rw [sightingsFollowing, hentries, sightings_folder]
      congr 1
      apply List.map_congr_left
      rintro ⟨name, d⟩ hx
      have hd : d.LinkFree := hfree.of_mem hx
      have hcount : d.count ≤ depth := by
        have hlt : d.count < (Entry.folder es).count := Entry.count_lt_of_mem hx
        omega
      simp only [sightingsAt, Prod.mk.injEq, true_and]
      cases hd with
      | file c => simp [sightingsFollowing.visit, Entry.isFolder]
      | @folder ds hds =>
          have hplace : host.root.at? (place ++ [name]) = some (.folder ds) := by
            rw [Entry.at?_snoc hat]
            exact Entry.find?_of_mem ((hroot.of_at? hat).1.distinct) hx
          rw [sightingsFollowing.visit, sightingsFollowing.enter, Entry.isFolder, Bool.true_and]
          split
          · rfl
          · exact ih hplace (.folder hds) hcount _ _

theorem count_le_depthBound (h : host.root.at? place = some e) : e.count ≤ depthBound host := by
  calc
    e.count ≤ host.root.count + 1 := Nat.le_succ_of_le (Entry.count_le_of_at? h)
    _ ≤ depthBound host := Nat.le_mul_self _

theorem run_of_linkFree (hroot : host.root.WellFormed)
    (h : host.resolve start = .ok ⟨place, .folder es⟩) (hfree : (Entry.folder es).LinkFree)
    (followLinks : Bool) :
    run excluded host start followLinks = sightings excluded [] (.folder es) := by
  have hat := at?_of_resolve h
  cases followLinks with
  | true =>
      rw [run_true h]
      exact sightingsFollowing_of_linkFree hroot hat hfree (count_le_depthBound hat) _ _
  | false => exact run_false h

/-! ## Files met -/

theorem isFolder_eq_false_of_at? {below : List String} {c : ByteArray}
    (h : e.at? below = some (.file c)) (hbelow : e.isFolder = false) : below = [] := by
  cases below with
  | nil => rfl
  | cons name rest =>
      rw [Entry.at?_cons, Option.bind_eq_some_iff] at h
      obtain ⟨d, hd, _⟩ := h
      obtain ⟨es, rfl, _⟩ := Entry.child?_eq_some_iff.mp hd
      simp [Entry.isFolder] at hbelow

/-- A file that real folders with admitted names lead to. -/
def Admits (excluded : List String) (e : Entry) (below : List String) : Prop :=
  (∃ c, e.at? below = some (.file c)) ∧ ∀ n ∈ below.dropLast, n ∉ excluded

theorem admits_file_iff {c : ByteArray} {below : List String} :
    Admits excluded (.file c) below ↔ below = [] := by
  constructor
  · rintro ⟨⟨d, hat⟩, _⟩
    exact isFolder_eq_false_of_at? hat rfl
  · rintro rfl
    exact ⟨⟨c, by simp⟩, by simp⟩

theorem not_admits_link (target : String) (below : List String) :
    ¬ Admits excluded (.link target) below := by
  rintro ⟨⟨c, hat⟩, _⟩
  rw [isFolder_eq_false_of_at? hat rfl, Entry.at?_nil] at hat
  cases hat

theorem Admits.ne_nil {below : List String} (h : Admits excluded (.folder es) below) :
    below ≠ [] := by
  rintro rfl
  obtain ⟨⟨c, hat⟩, _⟩ := h
  simp at hat

/-- One name more is admitted if it leads to a file, or to a folder whose name is. -/
theorem admits_cons_iff (hes : (es.map (·.1)).Nodup) {name : String} (hx : (name, e) ∈ es)
    {rest : List String} :
    Admits excluded (.folder es) (name :: rest) ↔
      (e.isFolder && excluded.contains name) = false ∧ Admits excluded e rest := by
  have hat : (Entry.folder es).at? (name :: rest) = e.at? rest := by
    rw [Entry.at?_cons, Entry.child?, Entry.entries, Entry.find?_of_mem hes hx, Option.bind_some]
  rw [Admits, Admits, hat]
  cases rest with
  | nil =>
      simp only [Entry.at?_nil, Option.some.injEq, List.dropLast_singleton, List.dropLast_nil,
        List.not_mem_nil, false_implies, implies_true, and_true, iff_and_self]
      rintro ⟨c, rfl⟩
      rfl
  | cons m more =>
      have hfolder (h : ∃ c, e.at? (m :: more) = some (.file c)) : e.isFolder = true := by
        obtain ⟨c, hc⟩ := h
        by_contra he
        cases isFolder_eq_false_of_at? hc (Bool.eq_false_iff.mpr he)
      rw [List.dropLast_cons_cons, List.forall_mem_cons, and_left_comm]
      refine and_congr_left fun hadmits => ?_
      rw [hfolder hadmits.1, Bool.true_and, ← Bool.not_eq_true, List.contains_iff_mem]

theorem file_mem_sightings_iff (he : e.WellFormed) {path place : List String} :
    .file place ∈ sightings excluded path e ↔
      ∃ below, place = path ++ below ∧ Admits excluded e below := by
  induction e using Entry.induction_on generalizing path with
  | file c => simp [admits_file_iff]
  | link t => simp [not_admits_link]
  | folder es ih =>
      have hentry (x : String × Entry) (hx : x ∈ es) :
          .file place ∈ sightingsAt excluded path x ↔ ∃ rest,
            place = path ++ [x.1] ++ rest ∧ Admits excluded (.folder es) (x.1 :: rest) := by
        simp only [admits_cons_iff he.distinct hx]
        rw [sightingsAt]
        cases x.2.isFolder && excluded.contains x.1 with
        | true => simp
        | false => simpa only [Bool.false_eq_true, if_false, true_and] using ih x hx (he.of_mem hx)
      rw [mem_sightings_folder]
      constructor
      · rintro ⟨x, hx, hs⟩
        obtain ⟨rest, hplace, hadmits⟩ := (hentry x hx).mp hs
        exact ⟨x.1 :: rest, by simpa using hplace, hadmits⟩
      · rintro ⟨below, hplace, hadmits⟩
        obtain ⟨name, rest, rfl⟩ := List.exists_cons_of_ne_nil hadmits.ne_nil
        obtain ⟨c, hat⟩ := hadmits.1
        rw [Entry.at?_cons, Option.bind_eq_some_iff] at hat
        obtain ⟨d, hd, _⟩ := hat
        have hx : (name, d) ∈ es := Entry.mem_of_find? hd
        exact ⟨(name, d), hx, (hentry _ hx).mpr ⟨rest, by simpa using hplace, hadmits⟩⟩

end Walk

end ImportAtlas
