import ImportAtlas.Proofs.Discovery.Listing
import ImportAtlas.Proofs.Path

/-!
# The list of source files

Without following links a discovery lists exactly the source files that real folders with admitted
names lead to, and it lists them in the lexicographic order of the names on the way. That fixes the
list, so it does not matter in which order the folders list their entries.
-/

namespace ImportAtlas

open Text Host

def sourceExtensions : List String := ["js", "jsx", "ts", "tsx"]

theorem isSome_ofExtension?_iff {ext : String} :
    (Dialect.ofExtension? ext).isSome = true ↔ ext ∈ sourceExtensions := by
  simp only [Dialect.ofExtension?, sourceExtensions, Bool.or_eq_true, beq_iff_eq, List.mem_cons,
    List.not_mem_nil, or_false, ← or_assoc]
  split_ifs <;> simp_all

def HasSourceExtension (name : String) : Prop :=
  ∃ stem, ∃ ext ∈ sourceExtensions, name = stem ++ "." ++ ext

theorem isSourceName_iff {name : String} : isSourceName name = true ↔ HasSourceExtension name := by
  rw [isSourceName, Dialect.ofPath?]
  constructor
  · intro h
    cases hext : Path.extension? name with
    | none => simp [hext] at h
    | some ext =>
        rw [hext] at h
        obtain ⟨stem, hstem⟩ := Path.eq_of_extension? hext
        exact ⟨stem, ext, isSome_ofExtension?_iff.mp h, hstem⟩
  · rintro ⟨stem, ext, hmem, rfl⟩
    have hplain : ∀ c ∈ ext.toList, Path.isSeparator c = false ∧ c ≠ '.' := by
      simp only [sourceExtensions, List.mem_cons, List.not_mem_nil, or_false] at hmem
      rcases hmem with rfl | rfl | rfl | rfl <;> simp [Path.isSeparator]
    rw [Path.extension?_append stem hplain]
    exact isSome_ofExtension?_iff.mpr hmem

namespace Host.Entry

variable {e d f : Entry} {es ds : List (String × Entry)} {name : String}

theorem find?_isSome_iff : (find? name es).isSome = true ↔ name ∈ es.map (·.1) := by
  induction es with
  | nil => simp [find?]
  | cons x rest ih =>
      obtain ⟨n, e⟩ := x
      rw [List.map_cons, List.mem_cons, find?]
      by_cases hn : n = name
      · simp [hn]
      · simp [hn, ih, Ne.symm hn]

/-- The same tree with the entries of its folders listed in another order. -/
inductive Relisted : Entry → Entry → Prop
  | file (content : ByteArray) : Relisted (.file content) (.file content)
  | link (target : String) : Relisted (.link target) (.link target)
  | folder {es ds : List (String × Entry)} (names : (es.map (·.1)).Perm (ds.map (·.1)))
      (entries : ∀ name e d, (name, e) ∈ es → (name, d) ∈ ds → Relisted e d) :
      Relisted (.folder es) (.folder ds)

namespace Relisted

theorem symm (h : e.Relisted d) : d.Relisted e := by
  induction h with
  | file c => exact .file c
  | link t => exact .link t
  | folder names _ ih => exact .folder names.symm fun name e d he hd => ih name d e hd he

theorem child? (h : e.Relisted d) (hchild : e.child? name = some f) :
    ∃ g, d.child? name = some g ∧ f.Relisted g := by
  obtain ⟨es, rfl, hf⟩ := child?_eq_some_iff.mp hchild
  cases h with
  | @folder _ ds names entries =>
      have hname : name ∈ ds.map (·.1) := by
        rw [← names.mem_iff, ← find?_isSome_iff, hf]
        rfl
      obtain ⟨g, hg⟩ := Option.isSome_iff_exists.mp (find?_isSome_iff.mpr hname)
      exact ⟨g, hg, entries name f g (mem_of_find? hf) (mem_of_find? hg)⟩

theorem at? {names : List String} (h : e.Relisted d) (hat : e.at? names = some f) :
    ∃ g, d.at? names = some g ∧ f.Relisted g := by
  induction names generalizing e d with
  | nil =>
      rw [at?_nil, Option.some.injEq] at hat
      exact ⟨d, at?_nil d, hat ▸ h⟩
  | cons name rest ih =>
      rw [at?_cons, Option.bind_eq_some_iff] at hat
      obtain ⟨e', he', hrest⟩ := hat
      obtain ⟨d', hd', h'⟩ := h.child? he'
      rw [at?_cons, hd']
      exact ih h' hrest

theorem refl (he : e.WellFormed) : e.Relisted e := by
  induction e using induction_on with
  | file c => exact .file c
  | link t => exact .link t
  | folder es ih =>
      refine .folder (List.Perm.refl _) fun name e d hx hy => ?_
      have heq : some e = some d :=
        (find?_of_mem he.distinct hx).symm.trans (find?_of_mem he.distinct hy)
      cases heq
      exact ih (name, e) hx (he.of_mem hx)

theorem of_perm (he : (Entry.folder es).WellFormed) (h : es.Perm ds) :
    (Entry.folder es).Relisted (.folder ds) := by
  cases refl he with
  | folder _ entries =>
      exact .folder (h.map _) fun name e d hx hy => entries name e d hx (h.mem_iff.mpr hy)

end Relisted

end Host.Entry

namespace Walk

variable {excluded : List String} {e : Entry}

theorem pairwise_sortByName {α : Type} {ys : List (String × α)} (hys : (ys.map (·.1)).Nodup) :
    (sortByName ys).Pairwise fun x y => x.1 < y.1 := by
  have hle : (sortByName ys).Pairwise fun x y => (!decide (y.1 < x.1)) = true := by
    apply List.pairwise_mergeSort
    · intro x y z hxy hyz
      simp only [Bool.not_eq_true', decide_eq_false_iff_not, not_lt] at hxy hyz ⊢
      exact hxy.trans hyz
    · intro x y
      simp only [Bool.or_eq_true, Bool.not_eq_true', decide_eq_false_iff_not, not_lt]
      exact le_total _ _
  have hne : (sortByName ys).Pairwise fun x y => x.1 ≠ y.1 :=
    List.pairwise_map.mp (((sortByName_perm ys).map Prod.fst).nodup_iff.mpr hys)
  refine (hle.and hne).imp ?_
  rintro x y ⟨hxy, hxy'⟩
  simp only [Bool.not_eq_true', decide_eq_false_iff_not, not_lt] at hxy
  exact lt_of_le_of_ne hxy hxy'

theorem path_lt_path {path : List String} {m n : String} (h : m < n) {xs ys : List Sighting}
    (hxs : Spread (path ++ [m]) xs) (hys : Spread (path ++ [n]) ys) :
    ∀ s ∈ xs, ∀ t ∈ ys, s.path < t.path := by
  intro s hs t ht
  obtain ⟨below, hbelow, _⟩ := hxs.below s hs
  obtain ⟨below', hbelow', _⟩ := hys.below t ht
  rw [hbelow, hbelow', List.append_assoc, List.append_assoc]
  apply List.append_left_lt
  exact List.cons_lt_cons_iff.mpr (Or.inl h)

theorem pairwise_inOrder {path : List String} {xs : List (String × List Sighting)}
    (hnames : (xs.map (·.1)).Nodup) (hspread : ∀ x ∈ xs, Spread (path ++ [x.1]) x.2)
    (hxs : ∀ x ∈ xs, x.2.Pairwise fun s t => s.path < t.path) :
    (inOrder xs).Pairwise fun s t => s.path < t.path := by
  have hmem {x : String × List Sighting} (hx : x ∈ sortByName xs) : x ∈ xs :=
    (sortByName_perm xs).mem_iff.mp hx
  rw [inOrder, List.pairwise_flatMap]
  refine ⟨fun x hx => hxs x (hmem hx), ?_⟩
  refine (pairwise_sortByName hnames).imp_of_mem ?_
  intro x y hx hy hxy
  exact path_lt_path hxy (hspread x (hmem hx)) (hspread y (hmem hy))

/-- What a walk meets stands in the order of the names on the way. -/
theorem pairwise_sightings (he : e.WellFormed) (path : List String) :
    (sightings excluded path e).Pairwise fun s t => s.path < t.path := by
  induction e using Entry.induction_on generalizing path with
  | file c =>
      rw [sightings_file]
      exact List.pairwise_singleton _ _
  | link t =>
      rw [sightings_link]
      exact List.Pairwise.nil
  | folder es ih =>
      have hspread : ∀ x ∈ es, Spread (path ++ [x.1]) (sightingsAt excluded path x) := by
        intro x hx
        exact spread_sightingsAt (spread_sightings (he.of_mem hx) _)
      have hentry : ∀ x ∈ es,
          (sightingsAt excluded path x).Pairwise fun s t => s.path < t.path := by
        intro x hx
        rw [sightingsAt]
        split
        · exact List.pairwise_singleton _ _
        · exact ih x hx (he.of_mem hx) _
      rw [sightings_folder]
      apply pairwise_inOrder
      · rw [List.map_map]
        exact he.distinct
      · exact List.forall_mem_map.mpr hspread
      · exact List.forall_mem_map.mpr hentry

end Walk

namespace Discovery

open Walk

variable {d : Discovery} {host : Host} {base : String} {place files : List String}
  {es ds : List (String × Entry)}

/-- Names that lead through real folders with admitted names to a source file. -/
structure LeadsToSource (excluded : List String) (e : Entry) (names : List String) : Prop where
  file : ∃ c, e.at? names = some (.file c)
  admitted : ∀ n ∈ names.dropLast, n ∉ excluded
  source : ∃ name, names.getLast? = some name ∧ HasSourceExtension name

theorem LeadsToSource.relisted {excluded names : List String} {e e' : Entry}
    (h : LeadsToSource excluded e names) (he : e.Relisted e') :
    LeadsToSource excluded e' names := by
  obtain ⟨c, hc⟩ := h.file
  obtain ⟨f, hf, hfile⟩ := he.at? hc
  cases hfile
  exact ⟨⟨c, hf⟩, h.admitted, h.source⟩

theorem mem_sourcePaths_iff {met : List Sighting} {path : List String} :
    path ∈ sourcePaths met ↔
      .file path ∈ met ∧ ∃ name, path.getLast? = some name ∧ HasSourceExtension name := by
  have hname : isSourceName (path.getLast?.getD "") = true ↔
      ∃ name, path.getLast? = some name ∧ HasSourceExtension name := by
    cases path.getLast? with
    | none => simp [show isSourceName "" = false by decide]
    | some name => simp [isSourceName_iff]
  rw [← hname]
  constructor
  · intro h
    obtain ⟨s, hs, hpath⟩ := List.mem_filterMap.mp h
    cases eq_path_of_sourcePath? hpath
    refine ⟨hs, ?_⟩
    by_contra hno
    rw [sourcePath?, if_neg hno] at hpath
    cases hpath
  · rintro ⟨hs, hsource⟩
    exact List.mem_filterMap.mpr ⟨_, hs, by rw [sourcePath?, if_pos hsource]⟩

theorem mem_sourcePaths_sightings_iff {excluded names : List String} {e : Entry}
    (he : e.WellFormed) :
    names ∈ sourcePaths (sightings excluded [] e) ↔ LeadsToSource excluded e names := by
  rw [mem_sourcePaths_iff, file_mem_sightings_iff he]
  constructor
  · rintro ⟨⟨below, hbelow, hadmits⟩, hsource⟩
    rw [List.nil_append] at hbelow
    subst hbelow
    exact ⟨hadmits.1, hadmits.2, hsource⟩
  · intro h
    exact ⟨⟨names, rfl, h.file, h.admitted⟩, h.source⟩

theorem pairwise_sourcePaths_sightings {e : Entry} (excluded : List String) (he : e.WellFormed) :
    (sourcePaths (sightings excluded [] e)).Pairwise (· < ·) := by
  have hpaths : ((sightings excluded [] e).map Sighting.path).Pairwise (· < ·) :=
    List.pairwise_map.mpr (pairwise_sightings he [])
  exact hpaths.sublist (sourcePaths_sublist _)

/-- A list of exactly the source files of a tree, in the order of the names on the way to them. -/
structure ListsInOrder (excluded : List String) (e : Entry) (files : List String) : Prop where
  mem_iff : ∀ path, path ∈ files ↔ LeadsToSource excluded e (Path.segments path)
  sorted : files.Pairwise fun p q => Path.segments p < Path.segments q

namespace ListsInOrder

variable {excluded other : List String} {e e' : Entry}

theorem nodup (h : ListsInOrder excluded e files) : files.Nodup :=
  h.sorted.imp fun hpq heq => absurd (heq ▸ hpq) (lt_irrefl _)

theorem unique (h : ListsInOrder excluded e files) (h' : ListsInOrder excluded e other) :
    other = files := by
  have hirrefl : Std.Irrefl fun p q : String => Path.segments p < Path.segments q :=
    ⟨fun p => lt_irrefl _⟩
  have hantisymm : Std.Antisymm fun p q : String => Path.segments p < Path.segments q :=
    ⟨fun p q hpq hqp => absurd hqp (lt_asymm hpq)⟩
  apply h'.sorted.eq_of_mem_iff h.sorted
  intro path
  rw [h'.mem_iff, h.mem_iff]

theorem relisted (h : ListsInOrder excluded e files) (he : e.Relisted e') :
    ListsInOrder excluded e' files := by
  refine ⟨fun path => ?_, h.sorted⟩
  rw [h.mem_iff]
  exact ⟨fun hpath => hpath.relisted he, fun hpath => hpath.relisted he.symm⟩

end ListsInOrder

theorem listsInOrder_listing (hroot : host.root.WellFormed) (hlinks : d.followLinks = false)
    (hbase : host.resolve base = .ok ⟨place, .folder es⟩) :
    ListsInOrder d.excluded (.folder es) (d.listing host base []) := by
  have hes : (Entry.folder es).WellFormed := (hroot.of_at? (at?_of_resolve hbase)).1
  have hmet := spreadInside_sightings d.excluded hes []
  have hsegments {names : List String}
      (hnames : names ∈ sourcePaths (sightings d.excluded [] (.folder es))) :
      Path.segments (joinFields '/' names) = names := by
    obtain ⟨hne, hplain⟩ := plain_of_mem_sourcePaths hmet hnames
    exact Path.segments_joinFields hne fun n hn => (hplain n hn).toIsSegment
  have hlisting : d.listing host base [] =
      (sourcePaths (sightings d.excluded [] (.folder es))).map (joinFields '/') :=
    listing_of_resolve hlinks hbase
  rw [hlisting]
  constructor
  · intro path
    rw [← mem_sourcePaths_sightings_iff hes, List.mem_map]
    constructor
    · rintro ⟨names, hnames, rfl⟩
      rwa [hsegments hnames]
    · intro hpath
      exact ⟨_, hpath, Path.joinFields_segments path⟩
  · rw [List.pairwise_map]
    refine (pairwise_sourcePaths_sightings d.excluded hes).imp_of_mem ?_
    intro p q hp hq hpq
    rwa [hsegments hp, hsegments hq]

theorem listsInOrder_of_linkFree (hroot : host.root.WellFormed)
    (hbase : host.resolve base = .ok ⟨place, .folder es⟩) (hfree : (Entry.folder es).LinkFree) :
    ListsInOrder d.excluded (.folder es) (d.listing host base []) := by
  have hlisting : d.listing host base [] =
      listing { d with followLinks := false } host base [] := by
    rw [listing, listing, Location.joinAll_nil, Walk.run_of_linkFree hroot hbase hfree,
      Walk.run_of_linkFree hroot hbase hfree]
  rw [hlisting]
  exact listsInOrder_listing (d := { d with followLinks := false }) hroot rfl hbase

theorem discover_whole (hroot : host.root.WellFormed)
    (hbase : host.resolve base = .ok ⟨place, .folder es⟩) :
    (d.discover host base none).value = .ok (d.listing host base []) := by
  have hfolder : host.isFolder base = true := isFolder_iff.mpr ⟨_, _, hbase⟩
  have hnone : scopeFolders? none = some [] := rfl
  exact value_discover_of_isFolder hroot (ne_empty_of_isFolder hfolder) hnone hfolder

/-- Whatever the tree and the excluded names, a discovery of a whole repository that follows no
links gives the one list of its source files in the order of the names on the way, and it gives the
same list if the folders list their entries in another order. -/
theorem listsInOrder_discover (hroot : host.root.WellFormed) (hlinks : d.followLinks = false)
    (hbase : host.resolve base = .ok ⟨place, .folder es⟩) :
    ∃ files, (d.discover host base none).value = .ok files ∧
      ListsInOrder d.excluded (.folder es) files ∧ files.Nodup ∧
      (∀ other, ListsInOrder d.excluded (.folder es) other → other = files) ∧
      ∀ (host' : Host) (base' : String) (place' : List String) (ds : List (String × Entry)),
        host'.root.WellFormed → host'.resolve base' = .ok ⟨place', .folder ds⟩ →
        (Entry.folder es).Relisted (.folder ds) →
        (d.discover host' base' none).value = .ok files := by
  have hlists := listsInOrder_listing hroot hlinks hbase
  refine ⟨_, discover_whole hroot hbase, hlists, hlists.nodup, fun other => hlists.unique, ?_⟩
  intro host' base' place' ds hroot' hbase' hrelisted
  have hlists' := listsInOrder_listing hroot' hlinks hbase'
  rw [discover_whole hroot' hbase', (hlists.relisted hrelisted).unique hlists']

/-! ### A folder beside files that are named after it, and its entries the other way round -/

def orderEntries : List (String × Entry) :=
  [("a", .folder [("b.js", .file ⟨#[]⟩)]), ("a.js", .file ⟨#[]⟩),
    ("dist", .folder [("out.js", .file ⟨#[]⟩)]), ("dist.ts", .file ⟨#[]⟩),
    ("link.js", .link "a.js")]

def orderHost (es : List (String × Entry)) : Host := ⟨.folder [("repo", .folder es)], []⟩

theorem resolve_order : (orderHost orderEntries).resolve "/repo" =
    .ok ⟨["repo"], .folder orderEntries⟩ := by cbv

theorem resolve_order_reverse : (orderHost orderEntries.reverse).resolve "/repo" =
    .ok ⟨["repo"], .folder orderEntries.reverse⟩ := by cbv

theorem listing_order : listing {} (orderHost orderEntries) "/repo" [] =
    ["a/b.js", "a.js", "dist.ts"] := by
  have hmet : Walk.sightings Exclusions.standard [] (.folder orderEntries) =
      [.file ["a", "b.js"], .file ["a.js"], .excluded ["dist"], .file ["dist.ts"]] := by
    rw [Walk.sightings_of_sorted (by decide)]
    simp (disch := decide) [orderEntries, Walk.sightingsAt, Walk.sightings_of_sorted,
      Entry.isFolder, Exclusions.standard]
  rw [listing_of_resolve rfl resolve_order,
    show ({} : Discovery).excluded = Exclusions.standard from rfl, hmet]
  cbv

theorem listsInOrder_sample :
    (discover {} (orderHost orderEntries) "/repo" none).value =
        .ok ["a/b.js", "a.js", "dist.ts"] ∧
      ListsInOrder Exclusions.standard (.folder orderEntries) ["a/b.js", "a.js", "dist.ts"] ∧
      (discover {} (orderHost orderEntries.reverse) "/repo" none).value =
        .ok ["a/b.js", "a.js", "dist.ts"] := by
  have hroot : (orderHost orderEntries).root.WellFormed := by decide
  have hentries : (Entry.folder orderEntries).WellFormed := by decide
  obtain ⟨files, hfiles, hlists, _, _, hrelisted⟩ :=
    listsInOrder_discover (d := {}) hroot rfl resolve_order
  have hlist : files = ["a/b.js", "a.js", "dist.ts"] := by
    rw [discover_whole hroot resolve_order, listing_order] at hfiles
    exact (Except.ok.inj hfiles).symm
  subst hlist
  refine ⟨hfiles, hlists, hrelisted _ _ _ _ (by decide) resolve_order_reverse ?_⟩
  exact .of_perm hentries (List.reverse_perm _).symm

end Discovery

end ImportAtlas
