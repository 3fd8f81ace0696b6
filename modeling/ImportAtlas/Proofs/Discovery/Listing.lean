import ImportAtlas.Discovery
import ImportAtlas.Proofs.Discovery.Walk
import ImportAtlas.Proofs.Path.WrittenForm
import ImportAtlas.Proofs.Scope

/-!
# What a discovery lists

A discovery walks from the folder that the scope names and lists each source file it meets by the
folders of the scope and the names below them. So each file has a path of its own in the list, and
where there are no links the list for a scope is the part of the whole list below its folder.
-/

namespace ImportAtlas.Discovery

open Text Host Walk

variable {d : Discovery} {host : Host} {base : String} {scope : Option String}
  {segs files : List String}

/-! ## The folder of a scope -/

/-- The folders that a discovery's scope leads through, if it is not refused. -/
def scopeFolders? : Option String → Option (List String)
  | none => some []
  | some folder => Scope.folders? folder

theorem isWritten_of_scopeFolders? (h : scopeFolders? scope = some segs) (hne : segs ≠ []) :
    Scope.IsWritten segs := by
  cases scope with
  | none => exact absurd (Option.some.inj h).symm hne
  | some folder => exact Scope.isWritten_of_folders? h hne

theorem isSegment_of_scopeFolders? (h : scopeFolders? scope = some segs) :
    ∀ s ∈ segs, IsSegment s := by
  by_cases hne : segs = []
  · simp [hne]
  · exact (isWritten_of_scopeFolders? h hne).segments

theorem value_scopeRoot (hbase : base ≠ "") :
    (scopeRoot host base scope).value =
      match scopeFolders? scope with
      | none => .error (.scopeNotFound (scope.getD ""))
      | some segs =>
        if segs = [] ∨ host.isFolder (Location.joinAll base segs) = true then
          .ok (Location.joinAll base segs)
        else .error (.scopeNotFound (scope.getD "")) := by
  cases scope with
  | none => simp [scopeRoot, scopeFolders?]
  | some folder =>
      cases hf : Scope.folders? folder with
      | none => simp [scopeRoot, scopeFolders?, hf, Scope.normalize_of_none hf]
      | some segs =>
          simp only [scopeRoot, scopeFolders?, hf, Scope.normalize_of_some hf, Option.getD_some]
          by_cases hne : segs = []
          · simp [hne]
          · have hw := Scope.isWritten_of_folders? hf hne
            rw [if_neg hne, Location.joinAll_eq_join hbase hne hw.segments]
            simp only [hne, false_or]
            split <;> simp [*]

theorem ne_empty_of_isFolder (h : host.isFolder base = true) : base ≠ "" := by
  obtain ⟨place, es, hres⟩ := isFolder_iff.mp h
  exact (resolve_ok hres).2.1

/-- The path of the folder that a discovery walks, if it gets that far. -/
def analyzed? (host : Host) (base : String) (scope : Option String) : Option String :=
  (scopeRoot host base scope).value.toOption

theorem analyzed?_eq (hbase : base ≠ "") :
    analyzed? host base scope = (scopeFolders? scope).bind fun segs =>
      if segs = [] ∨ host.isFolder (Location.joinAll base segs) = true then
        some (Location.joinAll base segs)
      else none := by
  rw [analyzed?, value_scopeRoot hbase]
  cases scopeFolders? scope with
  | none => rfl
  | some segs =>
      simp only [Option.bind_some]
      split <;> rfl

theorem analyzed?_eq_some_iff {start : String} (hbase : host.isFolder base = true) :
    analyzed? host base scope = some start ↔ ∃ segs, scopeFolders? scope = some segs ∧
      start = Location.joinAll base segs ∧ host.isFolder start = true := by
  rw [analyzed?_eq (ne_empty_of_isFolder hbase), Option.bind_eq_some_iff]
  constructor
  · rintro ⟨segs, hsegs, h⟩
    split at h
    next hfolder =>
      refine ⟨segs, hsegs, (Option.some.inj h).symm, ?_⟩
      rw [← Option.some.inj h]
      rcases hfolder with rfl | hfolder
      · exact hbase
      · exact hfolder
    next => cases h
  · rintro ⟨segs, hsegs, rfl, hfolder⟩
    exact ⟨segs, hsegs, if_pos (Or.inr hfolder)⟩

theorem value_discover (d : Discovery) (host : Host) (base : String) (scope : Option String) :
    (d.discover host base scope).value =
      (scopeRoot host base scope).value.map fun start => (d.walk host start base).value := by
  rw [discover, Logged.value_bind]
  cases (scopeRoot host base scope).value <;> rfl

/-! ## The list -/

def sourcePath? : Sighting → Option (List String)
  | .file path => if isSourceName (path.getLast?.getD "") then some path else none
  | .excluded _ | .failed _ _ => none

theorem listed?_eq {s : Sighting} (hbase : base ≠ "") (hsegs : ∀ n ∈ segs, IsSegment n)
    (hs : s.path ≠ []) (hplain : ∀ n ∈ s.path, IsEntryName n) :
    listed? base (Location.joinAll base segs) s =
      (sourcePath? s).map fun path => joinFields '/' (segs ++ path) := by
  cases s with
  | excluded path => rfl
  | failed path reason => rfl
  | file path =>
      replace hs : path ≠ [] := hs
      replace hplain : ∀ n ∈ path, IsEntryName n := hplain
      have hname : sightedName (Location.joinAll base segs) path = path.getLast?.getD "" := by
        rw [sightedName, List.getLast?_eq_some_getLast hs, Option.getD_some, Option.getD_some]
      have hrel := Location.relative?_joinAll hbase hsegs
        (fun n (hn : n ∈ path) => (hplain n hn).toIsSegment) (by simpa using fun _ => hs)
      rw [listed?, hname, hrel, sourcePath?]
      split <;> rfl

def sourcePaths (met : List Sighting) : List (List String) := met.filterMap sourcePath?

/-- The source files below the folder that the segments lead to, as paths from the base. -/
def listing (d : Discovery) (host : Host) (base : String) (segs : List String) : List String :=
  (sourcePaths (Walk.run d.excluded host (Location.joinAll base segs) d.followLinks)).map
    fun path => joinFields '/' (segs ++ path)

/-- Without following links the list is that of a walk through the folder that is found. -/
theorem listing_of_resolve {place : List String} {es : List (String × Entry)}
    (hlinks : d.followLinks = false)
    (h : host.resolve (Location.joinAll base segs) = .ok ⟨place, .folder es⟩) :
    d.listing host base segs = (sourcePaths (sightings d.excluded [] (.folder es))).map
      fun path => joinFields '/' (segs ++ path) := by
  rw [listing, hlinks, run_false h]

theorem value_walk_joinAll (hroot : host.root.WellFormed) (hbase : base ≠ "")
    (hsegs : ∀ n ∈ segs, IsSegment n) (hstart : host.isFolder (Location.joinAll base segs) = true) :
    (d.walk host (Location.joinAll base segs) base).value = d.listing host base segs := by
  obtain ⟨place, es, hres⟩ := isFolder_iff.mp hstart
  have hspread := spreadInside_run d.excluded hroot hres d.followLinks
  rw [value_walk, listing, sourcePaths, List.map_filterMap]
  refine List.filterMap_congr fun s hs => ?_
  obtain ⟨rest, hrest, hplain⟩ := hspread.below s hs
  rw [List.nil_append] at hrest
  exact listed?_eq hbase hsegs (hspread.inside s hs) (hrest ▸ hplain)

/-- A discovery succeeds if the scope is not refused and its folder is there. -/
theorem value_discover_of_isFolder (hroot : host.root.WellFormed) (hbase : base ≠ "")
    (hsegs : scopeFolders? scope = some segs)
    (hstart : host.isFolder (Location.joinAll base segs) = true) :
    (d.discover host base scope).value = .ok (d.listing host base segs) := by
  rw [value_discover, value_scopeRoot hbase, hsegs]
  simp only [hstart, or_true, if_true, Except.map]
  rw [value_walk_joinAll hroot hbase (isSegment_of_scopeFolders? hsegs) hstart]

theorem discover_ok (hroot : host.root.WellFormed) (hbase : host.isFolder base = true)
    (h : (d.discover host base scope).value = .ok files) :
    ∃ segs, scopeFolders? scope = some segs ∧
      host.isFolder (Location.joinAll base segs) = true ∧ files = d.listing host base segs := by
  cases hscope : (scopeRoot host base scope).value with
  | error e =>
      rw [value_discover, hscope] at h
      cases h
  | ok start =>
      have hstart : analyzed? host base scope = some start := by rw [analyzed?, hscope]; rfl
      obtain ⟨segs, hsegs, rfl, hstart⟩ := (analyzed?_eq_some_iff hbase).mp hstart
      rw [value_discover_of_isFolder hroot (ne_empty_of_isFolder hbase) hsegs hstart] at h
      exact ⟨segs, hsegs, hstart, (Except.ok.inj h).symm⟩

/-! ## Paths listed -/

theorem eq_path_of_sourcePath? {s : Sighting} {path : List String} (h : sourcePath? s = some path) :
    s = .file path := by
  cases s with
  | excluded p => cases h
  | failed p reason => cases h
  | file p =>
      rw [sourcePath?] at h
      split at h
      · rw [Option.some.inj h]
      · cases h

theorem mem_sourcePaths {met : List Sighting} {path : List String} (h : path ∈ sourcePaths met) :
    .file path ∈ met := by
  obtain ⟨s, hs, hpath⟩ := List.mem_filterMap.mp h
  exact eq_path_of_sourcePath? hpath ▸ hs

theorem sourcePaths_sublist (met : List Sighting) :
    (sourcePaths met).Sublist (met.map Sighting.path) := by
  induction met with
  | nil => exact List.Sublist.slnil
  | cons s met ih =>
      rw [sourcePaths, List.filterMap_cons]
      cases hs : sourcePath? s with
      | none => exact ih.cons _
      | some path =>
          rw [eq_path_of_sourcePath? hs]
          exact ih.cons_cons path

theorem joinFields_append_injective {p q : List String} (hsegs : ∀ n ∈ segs, IsSegment n)
    (hp : p ≠ [] ∧ ∀ n ∈ p, IsEntryName n) (hq : q ≠ [] ∧ ∀ n ∈ q, IsEntryName n)
    (h : joinFields '/' (segs ++ p) = joinFields '/' (segs ++ q)) : p = q := by
  have hplain {r : List String} (hr : ∀ n ∈ r, IsEntryName n) : ∀ n ∈ segs ++ r, IsSegment n :=
    List.forall_mem_append.mpr ⟨hsegs, fun n hn => (hr n hn).toIsSegment⟩
  exact List.append_cancel_left (Location.joinFields_segments_inj (by simp [hp.1]) (by simp [hq.1])
    (hplain hp.2) (hplain hq.2) h)

theorem plain_of_mem_sourcePaths {met : List Sighting} (hmet : SpreadInside [] met)
    {path : List String} (h : path ∈ sourcePaths met) :
    path ≠ [] ∧ ∀ n ∈ path, IsEntryName n := by
  have hs := mem_sourcePaths h
  obtain ⟨rest, hrest, hplain⟩ := hmet.below _ hs
  replace hrest : path = rest := hrest
  exact ⟨hmet.inside _ hs, hrest ▸ hplain⟩

theorem liesIn_of_mem_listing (hroot : host.root.WellFormed) (hne : segs ≠ [])
    (hstart : host.isFolder (Location.joinAll base segs) = true) {path : String}
    (h : path ∈ d.listing host base segs) : Path.liesIn (joinFields '/' segs) path = true := by
  obtain ⟨place, es, hres⟩ := isFolder_iff.mp hstart
  obtain ⟨below, hbelow, rfl⟩ := List.mem_map.mp h
  exact Path.liesIn_joinFields_append hne
    (plain_of_mem_sourcePaths (spreadInside_run d.excluded hroot hres d.followLinks) hbelow).1

theorem nodup_listing (hroot : host.root.WellFormed) (hsegs : ∀ n ∈ segs, IsSegment n)
    (hstart : host.isFolder (Location.joinAll base segs) = true) :
    (d.listing host base segs).Nodup := by
  obtain ⟨place, es, hres⟩ := isFolder_iff.mp hstart
  have hmet := spreadInside_run d.excluded hroot hres d.followLinks
  refine List.Nodup.map_on ?_ (hmet.distinct.sublist (sourcePaths_sublist _))
  exact fun p hp q hq => joinFields_append_injective hsegs
    (plain_of_mem_sourcePaths hmet hp) (plain_of_mem_sourcePaths hmet hq)

theorem nodup_of_discover (hroot : host.root.WellFormed) (hbase : host.isFolder base = true)
    (h : (d.discover host base scope).value = .ok files) : files.Nodup := by
  obtain ⟨segs, hsegs, hstart, rfl⟩ := discover_ok hroot hbase h
  exact nodup_listing hroot (isSegment_of_scopeFolders? hsegs) hstart

theorem isListed_of_discover (hroot : host.root.WellFormed) (hbase : host.isFolder base = true)
    (h : (d.discover host base scope).value = .ok files) : ∀ f ∈ files, Path.IsListed f := by
  obtain ⟨segs, hsegs, hstart, rfl⟩ := discover_ok hroot hbase h
  obtain ⟨place, es, hres⟩ := isFolder_iff.mp hstart
  have hmet := spreadInside_run d.excluded hroot hres d.followLinks
  intro f hf
  obtain ⟨names, hnames, rfl⟩ := List.mem_map.mp hf
  obtain ⟨hne, hplain⟩ := plain_of_mem_sourcePaths hmet hnames
  apply Path.isListed_joinFields (by simp [hne])
  exact List.forall_mem_append.mpr
    ⟨isSegment_of_scopeFolders? hsegs, fun n hn => (hplain n hn).toIsSegment⟩

end ImportAtlas.Discovery
