import ImportAtlas.Proofs.Resolution.Base

/-!
# Imports of folders

A specifier made of `.` and `..` segments denotes a folder above the importer. It names the index of
that folder, unless a file stands in for the folder: suffixes are added to the folder's path as to
any other, so `lib.js` beside the folder `lib` is found first, and in the root a file that has only
an extension for its name.
-/

namespace ImportAtlas

open Text Host

variable {files folder : List String} {importer specifier target : String} {order : SuffixOrder}

namespace Resolution

/-! ## What such a specifier denotes -/

/-- A specifier of `.` and `..` segments leads from an importer's folder to a folder of the root
that is the same or above. -/
structure LeadsUp (importer specifier : String) (folder : List String) : Prop where
  ne_empty : specifier ≠ ""
  dots : ∀ s ∈ fields Path.isSlash specifier, s = "" ∨ s = "." ∨ s = ".."
  inside : ".." ∉ folders importer
  up : ∃ left, folders importer = folder ++ left ∧
    (fields Path.isSlash specifier).count ".." = left.length

/-- The folders of a file in written form are those that its path goes through. -/
theorem leadsUp_of_isCanonical (himporter : Path.IsCanonical importer) {left : List String}
    {name : String} (hsegs : Path.segments importer = folder ++ left ++ [name])
    (hne : specifier ≠ "")
    (hdots : ∀ s ∈ fields Path.isSlash specifier, s = "" ∨ s = "." ∨ s = "..")
    (hcount : (fields Path.isSlash specifier).count ".." = left.length) :
    LeadsUp importer specifier folder := by
  have hplain : ∀ s ∈ folder ++ left, IsSegment s := by
    intro s hs
    apply himporter.plain s
    rw [hsegs]
    exact List.mem_append_left [name] hs
  have hfolders : folders importer = folder ++ left := by
    rw [folders, himporter.fields, hsegs, List.dropLast_concat]
    exact Path.foldSegments_segments hplain
  refine ⟨hne, hdots, ?_, left, hfolders, hcount⟩
  rw [hfolders]
  exact fun hmem => (hplain _ hmem).ne_parent rfl

namespace LeadsUp

theorem dot_of_mem (h : LeadsUp importer specifier folder) :
    ∀ c ∈ specifier.toList, c = '/' ∨ c = '.' := by
  intro c hc
  by_cases hslash : c = '/'
  · exact Or.inl hslash
  · rw [← Path.joinFields_fields specifier, mem_joinFields hslash] at hc
    obtain ⟨s, hs, hmem⟩ := hc
    rcases h.dots s hs with rfl | rfl | rfl
    · cases hmem
    · exact Or.inr (by simpa using hmem)
    · exact Or.inr (by simpa using hmem)

theorem isRelative (h : LeadsUp importer specifier folder) :
    SpecifierKind.of specifier = .relative := by
  have hall := h.dot_of_mem
  rw [SpecifierKind.of]
  cases hspec : specifier.toList with
  | nil => exact absurd (String.toList_eq_nil_iff.mp hspec) h.ne_empty
  | cons c cs =>
      rw [hspec] at hall
      rcases hall c List.mem_cons_self with rfl | rfl <;> rfl

theorem fields_eq (h : LeadsUp importer specifier folder) :
    fields Path.isSeparator specifier = fields Path.isSlash specifier := by
  have hplain : ∀ s ∈ fields Path.isSlash specifier, '/' ∉ s.toList ∧ '\\' ∉ s.toList := by
    intro s hs
    rcases h.dots s hs with rfl | rfl | rfl <;> decide
  conv_lhs => rw [← Path.joinFields_fields specifier]
  exact Path.fields_isSeparator_joinFields (fields_ne_nil _ _) hplain

theorem base_eq_folder (h : LeadsUp importer specifier folder) :
    base importer specifier = joinFields '/' folder := by
  obtain ⟨left, hleft, hcount⟩ := h.up
  have hstack : (fields Path.isSeparator importer).dropLast.foldl Path.push [] =
      left.reverse ++ folder.reverse := by
    rw [← List.reverse_append, ← hleft, folders, Path.foldSegments, List.reverse_reverse]
  have hinside : ".." ∉ left.reverse := by
    intro hmem
    apply h.inside
    rw [hleft]
    exact List.mem_append_right folder (List.mem_reverse.mp hmem)
  rw [base_eq, way, h.fields_eq, Path.foldSegments, List.foldl_append, hstack,
    Path.foldl_push_dots h.dots hinside (by simpa using hcount), List.reverse_reverse]

theorem isSegment (h : LeadsUp importer specifier folder) : ∀ s ∈ folder, IsSegment s := by
  obtain ⟨left, hleft, -⟩ := h.up
  have hslash : ∀ s ∈ (fields Path.isSeparator importer).dropLast, '/' ∉ s.toList :=
    fun s hs => Path.no_slash_of_mem_fields (List.mem_of_mem_dropLast hs)
  intro s hs
  apply Path.isSegment_of_mem_foldSegments hslash h.inside
  rw [show Path.foldSegments _ = folder ++ left from hleft]
  exact List.mem_append_left left hs

end LeadsUp

/-! ## What a folder is looked for by -/

/-- The written forms by which a file stands in for a folder. -/
def standIns (order : SuffixOrder) (folder : List String) : List String :=
  if folder = [] then order.extensions
  else joinFields '/' folder :: order.extensions.map (joinFields '/' folder ++ ·)

def indexPaths (order : SuffixOrder) (folder : List String) : List String :=
  order.indexNames.map fun name => joinFields '/' (folder ++ [name])

theorem candidates_of_leadsUp (h : LeadsUp importer specifier folder) :
    candidates order importer specifier = standIns order folder ++ indexPaths order folder := by
  have hbase := h.base_eq_folder
  by_cases hroot : folder = []
  · subst hroot
    rw [candidates, hbase]
    cases order <;> decide
  · have hne : base importer specifier ≠ "" :=
      hbase ▸ Location.joinFields_ne_empty hroot h.isSegment
    rw [candidates_of_base hne, hbase, SuffixOrder.suffixes_eq, standIns, if_neg hroot, indexPaths]
    simp [Path.joinFields_concat hroot, Function.comp_def]

theorem disjoint_standIns_indexPaths (order : SuffixOrder) (folder : List String) :
    ∀ c ∈ standIns order folder, c ∉ indexPaths order folder := by
  by_cases hroot : folder = []
  · subst hroot
    cases order <;> decide
  · intro c hc hindex
    have hsuffix : ∃ e ∈ "" :: order.extensions, joinFields '/' folder ++ e = c := by
      simpa [standIns, hroot, eq_comm] using hc
    obtain ⟨e, he, rfl⟩ := hsuffix
    obtain ⟨name, hname, hjoin⟩ := List.mem_map.mp hindex
    rw [← Path.joinFields_concat hroot] at hjoin
    have hcancel : "/" ++ name = e := by
      have hchars := congrArg String.toList hjoin
      rw [String.toList_append, String.toList_append (s := joinFields '/' folder)] at hchars
      exact String.toList_injective (List.append_cancel_left hchars)
    -- an index is a file below the folder, and an extension has no slash
    have hall : ∀ n ∈ order.indexNames, "/" ++ n ∉ "" :: order.extensions := by
      cases order <;> decide
    exact hall name hname (hcancel ▸ he)

theorem findSome?_get?_eq_none_iff {cs : List String} :
    cs.findSome? (⟨files⟩ : FileSet).get? = none ↔ ∀ f ∈ files, Path.slashed f ∉ cs := by
  simp only [List.findSome?_eq_none_iff, FileSet.get?_eq_none_iff]
  exact ⟨fun h f hf hmem => h _ hmem f hf rfl, fun h c hc f hf hfc => h f hf (hfc ▸ hc)⟩

theorem slashed_mem_of_findSome? {cs : List String}
    (h : cs.findSome? (⟨files⟩ : FileSet).get? = some target) : Path.slashed target ∈ cs := by
  obtain ⟨c, hc, hget⟩ := List.exists_of_findSome?_eq_some h
  exact FileSet.slashed_of_get? hget ▸ hc

/-- How an import of a folder is resolved. -/
structure NamesFolder (order : SuffixOrder) (files folder : List String) (result : Option String) :
    Prop where
  /-- It names the folder's index, if there is one, exactly if no file stands in for the folder. -/
  index_iff : result = (indexPaths order folder).findSome? (⟨files⟩ : FileSet).get? ↔
    ∀ f ∈ files, Path.slashed f ∉ standIns order folder
  /-- Else it names the first that does. -/
  standIn : ∀ f ∈ files, Path.slashed f ∈ standIns order folder →
    ∃ target, (standIns order folder).findSome? (⟨files⟩ : FileSet).get? = some target ∧
      result = some target

/-- A folder of the root that a specifier of dots denotes is named by its index or a stand-in. -/
theorem namesFolder_of_leadsUp (h : LeadsUp importer specifier folder) (order : SuffixOrder)
    (files : List String) :
    NamesFolder order files folder (resolve order ⟨files⟩ importer specifier) := by
  have hresolve : resolve order ⟨files⟩ importer specifier =
      ((standIns order folder).findSome? (⟨files⟩ : FileSet).get?).or
        ((indexPaths order folder).findSome? (⟨files⟩ : FileSet).get?) := by
    rw [resolve, h.isRelative, ← List.findSome?_append, ← candidates_of_leadsUp h]
  have hstandIn : ∀ f ∈ files, Path.slashed f ∈ standIns order folder →
      ∃ target, (standIns order folder).findSome? (⟨files⟩ : FileSet).get? = some target ∧
        resolve order ⟨files⟩ importer specifier = some target := by
    intro f hf hmem
    have hsome : (standIns order folder).findSome? (⟨files⟩ : FileSet).get? ≠ none :=
      fun hnone => findSome?_get?_eq_none_iff.mp hnone f hf hmem
    obtain ⟨target, htarget⟩ := Option.ne_none_iff_exists'.mp hsome
    exact ⟨target, htarget, by rw [hresolve, htarget, Option.some_or]⟩
  refine ⟨⟨fun hindex f hf hmem => ?_, fun hfree => ?_⟩, hstandIn⟩
  · obtain ⟨target, htarget, hres⟩ := hstandIn f hf hmem
    rw [hres] at hindex
    exact disjoint_standIns_indexPaths order folder _ (slashed_mem_of_findSome? htarget)
      (slashed_mem_of_findSome? hindex.symm)
  · rw [hresolve, findSome?_get?_eq_none_iff.mpr hfree, Option.none_or]

/-! ### A folder with two index files, and a file beside it -/

def indexFiles : List String := ["lib/deep/b.js", "lib/index.js", "lib/index.ts", "main.js"]

theorem leadsUp_lib : LeadsUp "lib/deep/b.js" ".././" ["lib"] := by
  have hsegs : Path.segments "lib/deep/b.js" = ["lib"] ++ ["deep"] ++ ["b.js"] := by decide
  exact leadsUp_of_isCanonical (by decide) hsegs (by decide) (by decide) (by decide)

theorem leadsUp_root : LeadsUp "main.js" "." [] := by
  have hsegs : Path.segments "main.js" = [] ++ [] ++ ["main.js"] := by decide
  exact leadsUp_of_isCanonical (by decide) hsegs (by decide) (by decide) (by decide)

theorem namesFolder_lib :
    LeadsUp "lib/deep/b.js" ".././" ["lib"] ∧ LeadsUp "main.js" "." [] ∧
      resolve .javascriptFirst ⟨indexFiles⟩ "lib/deep/b.js" ".././" = some "lib/index.js" ∧
      resolve .typescriptFirst ⟨indexFiles⟩ "lib/deep/b.js" ".././" = some "lib/index.ts" ∧
      resolve .javascriptFirst ⟨indexFiles⟩ "main.js" "." = none ∧
      resolve .javascriptFirst ⟨indexFiles ++ [".tsx"]⟩ "main.js" "." = some ".tsx" := by
  have hlib (order : SuffixOrder) := namesFolder_of_leadsUp leadsUp_lib order indexFiles
  have hroot (files : List String) := namesFolder_of_leadsUp leadsUp_root .javascriptFirst files
  refine ⟨leadsUp_lib, leadsUp_root, ?_, ?_, ?_, ?_⟩
  · exact ((hlib .javascriptFirst).index_iff.mpr (by decide)).trans (by decide)
  · exact ((hlib .typescriptFirst).index_iff.mpr (by decide)).trans (by decide)
  · exact ((hroot indexFiles).index_iff.mpr (by decide)).trans (by decide)
  · obtain ⟨target, htarget, hres⟩ :=
      (hroot (indexFiles ++ [".tsx"])).standIn ".tsx" (by decide) (by decide)
    exact hres.trans (htarget.symm.trans (by decide))

/-- The index is not named whatever else is there. -/
theorem not_index_beside_lib : ¬ ∀ (order : SuffixOrder) (files folder : List String)
    (importer specifier : String), (∀ f ∈ files, Path.IsListed f) → importer ∈ files →
    LeadsUp importer specifier folder →
    resolve order ⟨files⟩ importer specifier =
      (indexPaths order folder).findSome? (⟨files⟩ : FileSet).get? := by
  intro hclaim
  have hindex := hclaim .javascriptFirst ("lib.js" :: indexFiles) ["lib"] "lib/deep/b.js" ".././"
    (by decide) (by decide) leadsUp_lib
  exact absurd hindex (by decide)

end Resolution

end ImportAtlas
