import ImportAtlas.Proofs.Discovery.Listing
import ImportAtlas.Proofs.Path

/-!
# Discovery in a subfolder

A walk meets below a folder what a walk from that folder meets, with the folder's names in front. So
in a repository without links a scoped discovery lists the paths of the whole one that lie in its
folder, and it lists them in the same order.
-/

namespace ImportAtlas

open Text Host

namespace Walk

variable {excluded path segs : List String} {e : Entry} {ds es : List (String × Entry)}

theorem sightings_append (above path : List String) (e : Entry) :
    sightings excluded (above ++ path) e =
      (sightings excluded path e).map (Sighting.under above) := by
  induction e using Entry.induction_on generalizing path with
  | file c => simp [Sighting.under]
  | link t => simp
  | folder es ih =>
      rw [sightings_folder, sightings_folder, inOrder_map, List.map_map]
      congr 1
      refine List.map_congr_left fun x hx => ?_
      have hx' := ih x hx (path ++ [x.1])
      rw [← List.append_assoc] at hx'
      simp only [Function.comp_apply, sightingsAt, Prod.mk.injEq, true_and]
      split
      · simp [Sighting.under]
      · exact hx'

theorem filter_sightingsAt_of_ne {x : String × Entry} (hx : x.2.WellFormed) {name : String}
    (hne : x.1 ≠ name) (rest : List String) :
    (sightingsAt excluded path x).filter (fun s => (path ++ name :: rest).isPrefixOf s.path) =
      [] := by
  rw [List.filter_eq_nil_iff]
  intro s hs hprefix
  have hspread : Spread (path ++ [x.1]) (sightingsAt excluded path x) :=
    spread_sightingsAt (spread_sightings hx _)
  obtain ⟨more, hmore, _⟩ := hspread.below s hs
  rw [List.isPrefixOf_iff_prefix, hmore, List.append_assoc, List.prefix_append_right_inj,
    List.singleton_append, List.cons_prefix_cons] at hprefix
  exact hne hprefix.1.symm

/-- Of what a walk meets, the part below a folder is what a walk meets from that folder on. -/
theorem filter_sightings (path : List String) (he : e.WellFormed)
    (hat : e.at? segs = some (.folder ds)) (hsegs : ∀ s ∈ segs, s ∉ excluded) :
    (sightings excluded path e).filter (fun s => (path ++ segs).isPrefixOf s.path) =
      sightings excluded (path ++ segs) (.folder ds) := by
  induction segs generalizing path e with
  | nil =>
      rw [Entry.at?_nil, Option.some.injEq] at hat
      rw [hat, List.append_nil, List.filter_eq_self]
      intro s hs
      obtain ⟨rest, hrest, _⟩ := (spread_sightings (hat ▸ he) path).below s hs
      rw [List.isPrefixOf_iff_prefix, hrest]
      exact List.prefix_append path rest
  | cons name rest ih =>
      rw [Entry.at?_cons, Option.bind_eq_some_iff] at hat
      obtain ⟨d, hchild, hrest⟩ := hat
      obtain ⟨es, rfl, hfind⟩ := Entry.child?_eq_some_iff.mp hchild
      have hx : (name, d) ∈ es := Entry.mem_of_find? hfind
      have hname : name ∉ excluded := hsegs name List.mem_cons_self
      have hd : sightingsAt excluded path (name, d) = sightings excluded (path ++ [name]) d := by
        simp [sightingsAt, hname]
      rw [List.forall_mem_cons] at hsegs
      rw [List.append_cons, ← ih (path ++ [name]) (he.of_mem hx) hrest hsegs.2, ← hd,
        sightings_folder, inOrder, List.filter_flatMap]
      refine flatMap_eq_of_name (y := (name, sightingsAt excluded path (name, d))) ?_ ?_ ?_
      · rw [((sortByName_perm _).map _).nodup_iff, List.map_map]
        exact he.distinct
      · rw [(sortByName_perm _).mem_iff]
        exact List.mem_map_of_mem (f := fun x => (x.1, sightingsAt excluded path x)) hx
      · intro z hz hne
        rw [(sortByName_perm _).mem_iff] at hz
        obtain ⟨x, hxes, rfl⟩ := List.mem_map.mp hz
        rw [← List.append_cons]
        exact filter_sightingsAt_of_ne (he.of_mem hxes) hne rest

end Walk

namespace Discovery

open Walk

variable {d : Discovery} {host : Host} {base : String} {place segs : List String}
  {ds es : List (String × Entry)}

theorem sourcePath?_under {s : Sighting} (hs : s.path ≠ []) (above : List String) :
    sourcePath? (s.under above) = (sourcePath? s).map (above ++ ·) := by
  cases s with
  | excluded path => rfl
  | failed path reason => rfl
  | file path =>
      replace hs : path ≠ [] := hs
      rw [Sighting.under, sourcePath?, sourcePath?, List.getLast?_append_of_ne_nil _ hs]
      split <;> rfl

theorem sourcePaths_under {met : List Sighting} (hmet : ∀ s ∈ met, s.path ≠ [])
    (above : List String) :
    sourcePaths (met.map (Sighting.under above)) = (sourcePaths met).map (above ++ ·) := by
  rw [sourcePaths, sourcePaths, List.filterMap_map, List.map_filterMap]
  exact List.filterMap_congr fun s hs => sourcePath?_under (hmet s hs) above

theorem filter_sourcePaths (p : List String → Bool) (met : List Sighting) :
    (sourcePaths met).filter p = sourcePaths (met.filter fun s => p s.path) := by
  rw [sourcePaths, sourcePaths, List.filter_filterMap, List.filterMap_filter]
  refine List.filterMap_congr fun s _ => ?_
  cases hs : sourcePath? s with
  | none => simp
  | some path =>
      rw [eq_path_of_sourcePath? hs]
      rfl

theorem filter_sourcePaths_sightings (hes : (Entry.folder es).WellFormed)
    (hat : (Entry.folder es).at? segs = some (.folder ds))
    (hadmitted : ∀ s ∈ segs, s ∉ d.excluded) :
    (sourcePaths (sightings d.excluded [] (.folder es))).filter segs.isPrefixOf =
      (sourcePaths (sightings d.excluded [] (.folder ds))).map (segs ++ ·) := by
  have hinside := spreadInside_sightings d.excluded (hes.of_at? hat).1 []
  have hbelow := filter_sightings [] hes hat hadmitted
  rw [List.nil_append] at hbelow
  rw [filter_sourcePaths, hbelow, ← sourcePaths_under hinside.inside, ← sightings_append,
    List.append_nil]

theorem liesIn_of_mem_sourcePaths (hes : (Entry.folder es).WellFormed)
    (hat : (Entry.folder es).at? segs = some (.folder ds)) (hadmitted : ∀ s ∈ segs, s ∉ d.excluded)
    (hne : segs ≠ []) (hsegs : ∀ s ∈ segs, IsSegment s) {p : List String}
    (hp : p ∈ sourcePaths (sightings d.excluded [] (.folder es))) :
    Path.liesIn (joinFields '/' segs) (joinFields '/' p) = segs.isPrefixOf p := by
  obtain ⟨hpne, hplain⟩ := plain_of_mem_sourcePaths (spreadInside_sightings d.excluded hes []) hp
  rw [Bool.eq_iff_iff, Path.liesIn_joinFields hne hsegs hpne fun n hn => (hplain n hn).toIsSegment,
    List.isPrefixOf_iff_prefix]
  constructor
  · rintro ⟨below, _, rfl⟩
    exact List.prefix_append segs below
  · intro hprefix
    have hmem := List.mem_filter.mpr ⟨hp, List.isPrefixOf_iff_prefix.mpr hprefix⟩
    rw [filter_sourcePaths_sightings hes hat hadmitted] at hmem
    obtain ⟨below, hbelow, rfl⟩ := List.mem_map.mp hmem
    have hinside := spreadInside_sightings d.excluded (hes.of_at? hat).1 []
    exact ⟨below, (plain_of_mem_sourcePaths hinside hbelow).1, rfl⟩

/-- Without links, what a scoped discovery lists is the part of the whole list in its folder. -/
theorem listing_eq_filter (hroot : host.root.WellFormed)
    (hbase : host.resolve base = .ok ⟨place, .folder es⟩) (hfree : (Entry.folder es).LinkFree)
    (hne : segs ≠ []) (hsegs : ∀ s ∈ segs, IsSegment s) (hadmitted : ∀ s ∈ segs, s ∉ d.excluded)
    (hstart : host.isFolder (Location.joinAll base segs) = true) :
    d.listing host base segs =
      (d.listing host base []).filter (Path.liesIn (joinFields '/' segs)) := by
  obtain ⟨place', ds, hres⟩ := isFolder_iff.mp hstart
  have hes : (Entry.folder es).WellFormed := (hroot.of_at? (at?_of_resolve hbase)).1
  have hat : (Entry.folder es).at? segs = some (.folder ds) :=
    (at?_of_resolve_joinAll hbase hfree hsegs hres).1
  have hlies {p : List String} (hp : p ∈ sourcePaths (sightings d.excluded [] (.folder es))) :
      (Path.liesIn (joinFields '/' segs) ∘ joinFields '/') p = segs.isPrefixOf p :=
    liesIn_of_mem_sourcePaths hes hat hadmitted hne hsegs hp
  rw [listing, listing, run_of_linkFree hroot hres (hfree.of_at? hat), Location.joinAll_nil,
    run_of_linkFree hroot hbase hfree]
  calc
    (sourcePaths (sightings d.excluded [] (.folder ds))).map
        (fun path => joinFields '/' (segs ++ path))
        = ((sourcePaths (sightings d.excluded [] (.folder es))).filter segs.isPrefixOf).map
            (joinFields '/') := by
      rw [filter_sourcePaths_sightings hes hat hadmitted, List.map_map]
      rfl
    _ = ((sourcePaths (sightings d.excluded [] (.folder es))).map (joinFields '/')).filter
          (Path.liesIn (joinFields '/' segs)) := by
      rw [List.filter_map, List.filter_congr fun p hp => hlies hp]

end Discovery

end ImportAtlas
