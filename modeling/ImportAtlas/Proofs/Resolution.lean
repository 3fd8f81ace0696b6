import ImportAtlas.Resolution
import ImportAtlas.Proofs.Path

/-!
# Resolution in a part of a set of files

An import that names a file of the part names it in the whole set if and only if nothing outside of
the part is tried earlier. For the files of one folder such a file has to be one that shadows the
folder: its written path is that of a file in the folder, or that of the folder with a suffix.
-/

namespace ImportAtlas

open Text Host

variable {files : List String} {keep : String → Bool} {path file target : String}

namespace FileSet

theorem slashed_of_get? {set : FileSet} (h : set.get? path = some file) :
    Path.slashed file = path := by
  simpa using List.find?_some h

theorem get?_filter_of_get? (h : (⟨files⟩ : FileSet).get? path = some file)
    (hfile : keep file = true) :
    (⟨files.filter keep⟩ : FileSet).get? path = some file := by
  rw [get?, List.find?_eq_some_iff_append] at h ⊢
  obtain ⟨hpath, before, after, hfiles, hbefore⟩ := h
  refine ⟨hpath, before.filter keep, after.filter keep, ?_, fun f hf => ?_⟩
  · rw [show files = before ++ file :: after from hfiles, List.filter_append,
      List.filter_cons_of_pos hfile]
  · exact hbefore f (List.mem_of_mem_filter hf)

theorem get?_filter_of_none (h : (⟨files⟩ : FileSet).get? path = none) :
    (⟨files.filter keep⟩ : FileSet).get? path = none := by
  rw [get?, List.find?_eq_none] at h ⊢
  exact fun f hf => h f (List.mem_of_mem_filter hf)

end FileSet

namespace Resolution

variable {order : SuffixOrder} {folder importer specifier : String}

theorem resolve_eq_some_iff {set : FileSet} :
    resolve order set importer specifier = some target ↔ SpecifierKind.of specifier = .relative ∧
      (candidates order importer specifier).findSome? set.get? = some target := by
  rw [resolve]
  cases SpecifierKind.of specifier <;> simp

theorem slashed_of_resolve {set : FileSet}
    (h : resolve order set importer specifier = some target) :
    ∃ suffix ∈ order.suffixes,
      Path.slashed target = candidate (base importer specifier) suffix := by
  obtain ⟨_, hfound⟩ := resolve_eq_some_iff.mp h
  obtain ⟨c, hc, hget⟩ := List.exists_of_findSome?_eq_some hfound
  obtain ⟨suffix, hsuffix, rfl⟩ := List.mem_map.mp (List.mem_of_mem_filter hc)
  exact ⟨suffix, hsuffix, FileSet.slashed_of_get? hget⟩

theorem resolve_filter_of_resolve (h : resolve order ⟨files⟩ importer specifier = some target)
    (htarget : keep target = true) :
    resolve order ⟨files.filter keep⟩ importer specifier = some target := by
  obtain ⟨hkind, hfound⟩ := resolve_eq_some_iff.mp h
  obtain ⟨before, c, after, hcands, hget, hbefore⟩ := List.findSome?_eq_some_iff.mp hfound
  refine resolve_eq_some_iff.mpr ⟨hkind, List.findSome?_eq_some_iff.mpr ⟨before, c, after, hcands,
    FileSet.get?_filter_of_get? hget htarget, fun d hd => ?_⟩⟩
  exact FileSet.get?_filter_of_none (hbefore d hd)

theorem resolve_filter_of_none (h : resolve order ⟨files⟩ importer specifier = none) :
    resolve order ⟨files.filter keep⟩ importer specifier = none := by
  rw [resolve] at h ⊢
  cases hkind : SpecifierKind.of specifier with
  | external => rfl
  | relative =>
      rw [hkind] at h
      rw [List.findSome?_eq_none_iff] at h ⊢
      exact fun c hc => FileSet.get?_filter_of_none (h c hc)

/-! ## Shadows -/

/-- A file outside of a folder whose written path is that of a file in the folder, or that of the
folder with a suffix. The first takes a `\` in the file's name. -/
structure Shadows (order : SuffixOrder) (folder file : String) : Prop where
  outside : Path.liesIn folder file = false
  written : Path.liesIn folder (Path.slashed file) = true ∨
    ∃ suffix ∈ order.suffixes, Path.slashed file = folder ++ suffix

theorem no_slash_in_tail {suffix : String} (h : suffix ∈ order.suffixes) :
    '/' ∉ suffix.toList.tail := by
  have hall : ∀ s ∈ order.suffixes, '/' ∉ s.toList.tail := by cases order <;> decide
  exact hall suffix h

theorem no_slash_in_candidate_empty {suffix : String} (h : suffix ∈ order.suffixes) :
    '/' ∉ (candidate "" suffix).toList := by
  have hall : ∀ s ∈ order.suffixes, '/' ∉ (candidate "" s).toList := by cases order <;> decide
  exact hall suffix h

theorem base_of_liesIn_candidate {b suffix : String} (hsuffix : suffix ∈ order.suffixes)
    (h : Path.liesIn folder (candidate b suffix) = true) :
    b ≠ "" ∧ (b = folder ∨ Path.liesIn folder b = true) := by
  obtain ⟨below, hbelow⟩ := Path.liesIn_iff.mp h
  have hb : b ≠ "" := by
    rintro rfl
    apply no_slash_in_candidate_empty hsuffix
    simp [hbelow]
  have hcat : b.toList ++ suffix.toList = folder.toList ++ '/' :: below.toList := by
    rw [candidate, if_neg (by simpa using hb)] at hbelow
    simpa using congrArg String.toList hbelow
  refine ⟨hb, ?_⟩
  rcases List.append_eq_append_iff.mp hcat with ⟨rest, hfolder, hrest⟩ | ⟨rest, hbase, hrest⟩
  · cases rest with
    | nil => exact Or.inl (String.toList_injective (by simpa using hfolder.symm))
    | cons c rest =>
        -- the slash behind the folder would stand inside the suffix
        refine absurd ?_ (no_slash_in_tail hsuffix)
        simp [hrest]
  · cases rest with
    | nil => exact Or.inl (String.toList_injective (by simpa using hbase))
    | cons c rest =>
        rw [List.cons_append, List.cons.injEq] at hrest
        refine Or.inr (Path.liesIn_iff.mpr ⟨String.ofList rest, String.toList_injective ?_⟩)
        simp [hbase, ← hrest.1]

/-- If an import leads into a folder once only the files in the folder are there, and led out of it
before, then it led to a shadow of the folder. -/
theorem shadows_of_redirect {redirected : String} (hfolder : '\\' ∉ folder.toList)
    (hwhole : resolve order ⟨files⟩ importer specifier = some target)
    (htarget : Path.liesIn folder target = false)
    (hpart : resolve order ⟨files.filter (Path.liesIn folder)⟩ importer specifier =
      some redirected) :
    Shadows order folder target := by
  refine ⟨htarget, ?_⟩
  obtain ⟨suffix, hsuffix, hslashed⟩ := slashed_of_resolve hwhole
  obtain ⟨suffix', hsuffix', hslashed'⟩ := slashed_of_resolve hpart
  have hin := Path.liesIn_slashed hfolder (List.mem_filter.mp (mem_of_resolve hpart)).2
  rw [hslashed'] at hin
  obtain ⟨hb, hbase⟩ := base_of_liesIn_candidate hsuffix' hin
  rw [candidate, if_neg (by simpa using hb)] at hslashed
  rcases hbase with hbase | hbase
  · exact Or.inr ⟨suffix, hsuffix, hbase ▸ hslashed⟩
  · obtain ⟨below, hbelow⟩ := Path.liesIn_iff.mp hbase
    refine Or.inl (Path.liesIn_iff.mpr ⟨below ++ suffix, ?_⟩)
    rw [hslashed, hbelow, String.append_assoc]

end Resolution

end ImportAtlas
