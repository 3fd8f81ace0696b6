import ImportAtlas.Proofs.Discovery.Order

/-!
# One more file to discover

Every listing stands in the order of the names on the way, links followed or not. So where one more
file is there to discover, the new list is the old one with that file put in.
-/

namespace ImportAtlas

open Text Host

namespace Walk

variable {excluded path place : List String} {host : Host} {start : String}

theorem pairwise_enter {depth : Nat} {chain : List Opened} {name : String}
    (h : ∀ chain place path,
      (sightingsFollowing excluded host start depth chain place path).Pairwise
        fun s t => s.path < t.path) :
    (sightingsFollowing.enter excluded host start depth chain place path name).Pairwise
      fun s t => s.path < t.path := by
  rw [sightingsFollowing.enter]
  split
  · exact List.pairwise_singleton _ _
  · exact h _ _ _

theorem pairwise_visit {depth : Nat} {chain : List Opened} {name : String} {e : Entry}
    (h : ∀ chain place path,
      (sightingsFollowing excluded host start depth chain place path).Pairwise
        fun s t => s.path < t.path) :
    (sightingsFollowing.visit excluded host start depth chain place path name e).Pairwise
      fun s t => s.path < t.path := by
  cases e with
  | file c =>
      rw [sightingsFollowing.visit]
      exact List.pairwise_singleton _ _
  | folder es =>
      rw [sightingsFollowing.visit]
      exact pairwise_enter h
  | link target =>
      rw [sightingsFollowing.visit]
      split
      · exact List.pairwise_singleton _ _
      · exact List.pairwise_singleton _ _
      · exact List.Pairwise.nil
      · split
        · exact List.pairwise_singleton _ _
        · exact pairwise_enter h

theorem pairwise_sightingsFollowing (hroot : host.root.WellFormed) (depth : Nat)
    (chain : List Opened) (place path : List String) :
    (sightingsFollowing excluded host start depth chain place path).Pairwise
      fun s t => s.path < t.path := by
  induction depth generalizing chain place path with
  | zero =>
      rw [sightingsFollowing]
      exact List.Pairwise.nil
  | succ depth ih =>
      have hentries := wellFormed_entries hroot place
      rw [sightingsFollowing]
      apply @pairwise_inOrder path
      · rw [List.map_map]
        exact hentries.distinct
      · refine List.forall_mem_map.mpr fun x _ => ?_
        exact spread_visit fun chain place path =>
          spreadInside_sightingsFollowing hroot depth chain place path
      · exact List.forall_mem_map.mpr fun x _ => pairwise_visit ih

theorem pairwise_run (excluded : List String) (hroot : host.root.WellFormed)
    {es : List (String × Entry)} (h : host.resolve start = .ok ⟨place, .folder es⟩)
    (followLinks : Bool) :
    (run excluded host start followLinks).Pairwise fun s t => s.path < t.path := by
  cases followLinks with
  | true =>
      rw [run_true h]
      exact pairwise_sightingsFollowing hroot _ _ _ _
  | false =>
      rw [run_false h]
      exact pairwise_sightings (hroot.of_at? (at?_of_resolve h)).1 []

end Walk

namespace Discovery

open Walk

variable {d : Discovery} {host host' : Host} {base : String} {segs place place' names : List String}
  {es ds : List (String × Entry)} {files files' : List String} {file : String}

theorem pairwise_listing (hroot : host.root.WellFormed) (hsegs : ∀ n ∈ segs, IsSegment n)
    (hstart : host.isFolder (Location.joinAll base segs) = true) :
    (d.listing host base segs).Pairwise fun p q => Path.segments p < Path.segments q := by
  obtain ⟨place, es, hres⟩ := isFolder_iff.mp hstart
  have hmet := spreadInside_run d.excluded hroot hres d.followLinks
  have hsegments {names : List String}
      (hnames : names ∈ sourcePaths (run d.excluded host (Location.joinAll base segs)
        d.followLinks)) :
      Path.segments (joinFields '/' (segs ++ names)) = segs ++ names := by
    obtain ⟨hne, hplain⟩ := plain_of_mem_sourcePaths hmet hnames
    apply Path.segments_joinFields
    · simp [hne]
    · exact List.forall_mem_append.mpr ⟨hsegs, fun n hn => (hplain n hn).toIsSegment⟩
  have hpaths : ((run d.excluded host (Location.joinAll base segs) d.followLinks).map
      Sighting.path).Pairwise (· < ·) :=
    List.pairwise_map.mpr (pairwise_run d.excluded hroot hres d.followLinks)
  rw [listing, List.pairwise_map]
  refine (hpaths.sublist (sourcePaths_sublist _)).imp_of_mem ?_
  intro p q hp hq hpq
  rw [hsegments hp, hsegments hq]
  exact List.append_left_lt hpq

theorem pairwise_of_discover {scope : Option String} (hroot : host.root.WellFormed)
    (hbase : host.isFolder base = true) (h : (d.discover host base scope).value = .ok files) :
    files.Pairwise fun p q => Path.segments p < Path.segments q := by
  obtain ⟨segs, hsegs, hstart, rfl⟩ := discover_ok hroot hbase h
  exact pairwise_listing hroot (isSegment_of_scopeFolders? hsegs) hstart

/-- A list in order with one more member is the list with that member put in somewhere. -/
theorem exists_insertion (hfiles : files.Pairwise fun p q => Path.segments p < Path.segments q)
    (hfiles' : files'.Pairwise fun p q => Path.segments p < Path.segments q)
    (hmem : ∀ path, path ∈ files' ↔ path = file ∨ path ∈ files) (hnew : file ∉ files) :
    ∃ before after, files = before ++ after ∧ files' = before ++ file :: after := by
  have hirrefl : Std.Irrefl fun p q : String => Path.segments p < Path.segments q :=
    ⟨fun p => lt_irrefl _⟩
  have hantisymm : Std.Antisymm fun p q : String => Path.segments p < Path.segments q :=
    ⟨fun p q hpq hqp => absurd hqp (lt_asymm hpq)⟩
  have hnodup : files'.Nodup := hfiles'.imp fun hpq heq => absurd (heq ▸ hpq) (lt_irrefl _)
  obtain ⟨before, after, rfl⟩ := List.append_of_mem ((hmem file).mpr (Or.inl rfl))
  refine ⟨before, after, ?_, rfl⟩
  have hrest : (before ++ after).Sublist (before ++ file :: after) :=
    (List.sublist_cons_self file after).append_left before
  apply hfiles.eq_of_mem_iff (hfiles'.sublist hrest)
  intro path
  have hpath := hmem path
  rw [List.nodup_middle, List.nodup_cons] at hnodup
  simp only [List.mem_append, List.mem_cons] at hpath hnodup ⊢
  constructor
  · intro hin
    have hne : path ≠ file := fun heq => hnew (heq ▸ hin)
    have hold := hpath.mpr (Or.inr hin)
    tauto
  · intro hin
    have hne : path ≠ file := fun heq => hnodup.1 (heq ▸ hin)
    have hall : path = file ∨ path ∈ files := hpath.mp (by tauto)
    exact hall.resolve_left hne

theorem listsInOrder_of_plain (hroot : host.root.WellFormed)
    (hlinks : d.followLinks = false ∨ (Entry.folder es).LinkFree)
    (hbase : host.resolve base = .ok ⟨place, .folder es⟩) :
    ListsInOrder d.excluded (.folder es) (d.listing host base []) := by
  rcases hlinks with hlinks | hfree
  · exact listsInOrder_listing hroot hlinks hbase
  · have hsame : d.listing host base [] =
        ({ d with followLinks := false } : Discovery).listing host base [] := by
      rw [listing, listing, Location.joinAll_nil, run_of_linkFree hroot hbase hfree,
        run_of_linkFree hroot hbase hfree]
    rw [hsame]
    exact listsInOrder_listing (d := { d with followLinks := false }) hroot rfl hbase

end Discovery

namespace Host.Entry

variable {e d : Entry} {names other : List String} {c : ByteArray}

/-- All files of one tree are in another, with the same bytes, and that holds one file more. The
folders around them, and the links, may differ. -/
structure OneMoreFile (e d : Entry) (names : List String) : Prop where
  absent : ∀ c, e.at? names ≠ some (.file c)
  others : ∀ other, other ≠ names → ∀ c, e.at? other = some (.file c) ↔ d.at? other = some (.file c)

theorem OneMoreFile.kept (h : OneMoreFile e d names) (hat : e.at? other = some (.file c)) :
    d.at? other = some (.file c) := by
  have hne : other ≠ names := by
    rintro rfl
    exact h.absent c hat
  exact (h.others other hne c).mp hat

theorem find?_append (name : String) (es ds : List (String × Entry)) :
    find? name (es ++ ds) = (find? name es).or (find? name ds) := by
  induction es with
  | nil => rfl
  | cons x rest ih =>
      obtain ⟨n, e⟩ := x
      rw [List.cons_append, find?, find?]
      by_cases hn : n = name
      · simp [hn]
      · simpa [hn] using ih

theorem oneMoreFile_append {es : List (String × Entry)} {name : String}
    (hname : name ∉ es.map (·.1)) (c : ByteArray) :
    (folder es).OneMoreFile (.folder (es ++ [(name, .file c)])) [name] := by
  have hfree : find? name es = none := by
    rwa [← Option.not_isSome_iff_eq_none, find?_isSome_iff]
  constructor
  · intro c
    rw [at?_cons, child?, entries, hfree]
    simp
  · intro other hother c'
    cases other with
    | nil => simp
    | cons n rest =>
        rw [at?_cons, at?_cons, child?, child?, entries, entries, find?_append]
        by_cases hn : n = name
        · have hrest : rest ≠ [] := by
            rintro rfl
            exact hother (congrArg (fun m => [m]) hn)
          obtain ⟨m, more, rfl⟩ := List.exists_cons_of_ne_nil hrest
          simp [hn, hfree, find?, at?_cons, child?, entries]
        · have hlast : find? n [(name, Entry.file c)] = none := by
            simp [find?, Ne.symm hn]
          rw [hlast, Option.or_none]

end Host.Entry

namespace Discovery

open Walk

variable {excluded names other : List String} {e d : Entry}

theorem leadsToSource_iff_of_oneMoreFile (hadd : e.OneMoreFile d names)
    (hnew : LeadsToSource excluded d names) :
    LeadsToSource excluded d other ↔ other = names ∨ LeadsToSource excluded e other := by
  constructor
  · intro h
    rw [or_iff_not_imp_left]
    intro hne
    obtain ⟨c, hc⟩ := h.file
    exact ⟨⟨c, (hadd.others other hne c).mpr hc⟩, h.admitted, h.source⟩
  · rintro (rfl | h)
    · exact hnew
    · obtain ⟨c, hc⟩ := h.file
      exact ⟨⟨c, hadd.kept hc⟩, h.admitted, h.source⟩

theorem mem_iff_of_oneMoreFile {files files' : List String} (hadd : e.OneMoreFile d names)
    (hnew : LeadsToSource excluded d names) (hnames : Path.segments (joinFields '/' names) = names)
    (hfiles : ListsInOrder excluded e files) (hfiles' : ListsInOrder excluded d files')
    (path : String) : path ∈ files' ↔ path = joinFields '/' names ∨ path ∈ files := by
  have hpath : Path.segments path = names ↔ path = joinFields '/' names := by
    constructor
    · rintro rfl
      exact (Path.joinFields_segments path).symm
    · rintro rfl
      exact hnames
  rw [hfiles'.mem_iff, hfiles.mem_iff, leadsToSource_iff_of_oneMoreFile hadd hnew, hpath]

end Discovery

end ImportAtlas
