import ImportAtlas.Proofs.Resolution

/-!
# Which file an import names

The suffixes of an order are tried one after another, and the first whose candidate is the written
form of some file decides; of several files with that form the first in the list is meant. So where
no two files share a written form, the order in which the files are listed does not matter.
-/

namespace ImportAtlas

variable {files files' : List String} {path file : String}

namespace FileSet

/-- The first of the files with a written form. -/
def IsFirst (files : List String) (path file : String) : Prop :=
  Path.slashed file = path ∧ ∃ before after, files = before ++ file :: after ∧
    ∀ f ∈ before, Path.slashed f ≠ path

theorem get?_eq_some_iff : (⟨files⟩ : FileSet).get? path = some file ↔ IsFirst files path file := by
  rw [get?, List.find?_eq_some_iff_append, IsFirst]
  simp

theorem get?_eq_none_iff :
    (⟨files⟩ : FileSet).get? path = none ↔ ∀ f ∈ files, Path.slashed f ≠ path := by
  rw [get?, List.find?_eq_none]
  simp

theorem get?_of_perm (h : files.Perm files') (hdistinct : (files.map Path.slashed).Nodup)
    (path : String) : (⟨files⟩ : FileSet).get? path = (⟨files'⟩ : FileSet).get? path := by
  apply List.find?_eq_find?_of_perm h
  rintro f ⟨hf, hpath⟩ g ⟨hg, hpath'⟩
  apply List.inj_on_of_nodup_map hdistinct hf hg
  exact (eq_of_beq hpath).trans (eq_of_beq hpath').symm

end FileSet

namespace Resolution

variable {order : SuffixOrder} {importer specifier target b c suffix : String} {i : Nat}

/-- A candidate is the written form of some file. The empty candidate is that of none. -/
def IsFound (files : List String) (c : String) : Prop :=
  c ≠ "" ∧ ∃ f ∈ files, Path.slashed f = c

instance (files : List String) (c : String) : Decidable (IsFound files c) :=
  inferInstanceAs (Decidable (_ ∧ _))

/-- The positions in an order of the suffixes that lead from a base to some file. -/
def leading (order : SuffixOrder) (files : List String) (b : String) : Set Nat :=
  {i | ∃ suffix, order.suffixes[i]? = some suffix ∧ IsFound files (candidate b suffix)}

/-- The file that one candidate leads to. -/
def fileAt? (files : List String) (c : String) : Option String :=
  if c = "" then none else (⟨files⟩ : FileSet).get? c

theorem fileAt?_eq_some_iff :
    fileAt? files c = some target ↔ c ≠ "" ∧ FileSet.IsFirst files c target := by
  rw [fileAt?]
  split
  next hc => simp [hc]
  next hc => simp [hc, FileSet.get?_eq_some_iff]

theorem fileAt?_eq_none_iff : fileAt? files c = none ↔ ¬ IsFound files c := by
  rw [fileAt?, IsFound]
  split
  next hc => simp [hc]
  next hc => simp [hc, FileSet.get?_eq_none_iff]

theorem isFound_of_fileAt? (h : fileAt? files c = some target) : IsFound files c := by
  by_contra hmissing
  rw [fileAt?_eq_none_iff.mpr hmissing] at h
  cases h

/-- To leave the empty candidates out is to find nothing by them. -/
theorem resolve_eq_findSome? (h : SpecifierKind.of specifier = .relative) (order : SuffixOrder)
    (files : List String) (importer : String) :
    resolve order ⟨files⟩ importer specifier =
      order.suffixes.findSome? fun s => fileAt? files (candidate (base importer specifier) s) := by
  simp only [resolve, h, candidates]
  generalize base importer specifier = b
  induction order.suffixes with
  | nil => simp
  | cons s rest ih =>
      rw [List.map_cons, List.findSome?_cons, ← ih]
      by_cases hs : candidate b s = ""
      · simp [hs, fileAt?]
      · rw [List.filter_cons_of_pos (by simpa using hs), List.findSome?_cons, fileAt?, if_neg hs]

/-- The suffixes before the least position that leads to a file lead to none. -/
theorem findSome?_fileAt?_eq_some_iff :
    order.suffixes.findSome? (fun s => fileAt? files (candidate b s)) = some target ↔
      ∃ i suffix, IsLeast (leading order files b) i ∧ order.suffixes[i]? = some suffix ∧
        FileSet.IsFirst files (candidate b suffix) target := by
  rw [List.findSome?_eq_some_iff]
  constructor
  · rintro ⟨before, suffix, after, hsuffixes, htarget, hbefore⟩
    have hat : order.suffixes[before.length]? = some suffix := by simp [hsuffixes]
    refine ⟨before.length, suffix, ⟨⟨suffix, hat, isFound_of_fileAt? htarget⟩, ?_⟩, hat,
      (fileAt?_eq_some_iff.mp htarget).2⟩
    rintro j ⟨s, hs, hfound⟩
    by_contra hlt
    rw [hsuffixes, List.getElem?_append_left (by omega)] at hs
    exact fileAt?_eq_none_iff.mp (hbefore s (List.mem_of_getElem? hs)) hfound
  · rintro ⟨i, suffix, ⟨⟨s, hs, hfound⟩, hleast⟩, hat, hfirst⟩
    obtain rfl : s = suffix := Option.some.inj (hs.symm.trans hat)
    obtain ⟨hi, hget⟩ := List.getElem?_eq_some_iff.mp hat
    refine ⟨order.suffixes.take i, s, order.suffixes.drop (i + 1), ?_,
      fileAt?_eq_some_iff.mpr ⟨hfound.1, hfirst⟩, ?_⟩
    · rw [← hget, List.getElem_cons_drop, List.take_append_drop]
    · intro earlier hearlier
      obtain ⟨j, hj, hjget⟩ := List.mem_take_iff_getElem.mp hearlier
      rw [fileAt?_eq_none_iff]
      intro hjfound
      have hle : i ≤ j := hleast ⟨earlier, List.getElem?_eq_some_iff.mpr ⟨_, hjget⟩, hjfound⟩
      omega

theorem findSome?_fileAt?_eq_none_iff :
    order.suffixes.findSome? (fun s => fileAt? files (candidate b s)) = none ↔
      leading order files b = ∅ := by
  simp only [List.findSome?_eq_none_iff, fileAt?_eq_none_iff, Set.eq_empty_iff_forall_notMem]
  constructor
  · rintro h i ⟨suffix, hat, hfound⟩
    exact h suffix (List.mem_of_getElem? hat) hfound
  · intro h suffix hsuffix hfound
    obtain ⟨i, hi⟩ := List.getElem?_of_mem hsuffix
    exact h i ⟨suffix, hi, hfound⟩

/-- How an import is resolved in a list of files. -/
structure Decides (order : SuffixOrder) (files : List String) (importer specifier : String) :
    Prop where
  /-- The least position decides, and of several files with its candidate the first. -/
  some_iff : ∀ target, resolve order ⟨files⟩ importer specifier = some target ↔
    ∃ i suffix, IsLeast (leading order files (base importer specifier)) i ∧
      order.suffixes[i]? = some suffix ∧
      FileSet.IsFirst files (candidate (base importer specifier) suffix) target
  none_iff : resolve order ⟨files⟩ importer specifier = none ↔
    leading order files (base importer specifier) = ∅
  /-- Where no two files share a written form, the order of the list does not matter. -/
  perm : ∀ files', files.Perm files' → (files.map Path.slashed).Nodup →
    resolve order ⟨files'⟩ importer specifier = resolve order ⟨files⟩ importer specifier

/-- An import names the first file whose written form is the first candidate that is one. -/
theorem decides_of_relative (h : SpecifierKind.of specifier = .relative) (order : SuffixOrder)
    (files : List String) (importer : String) : Decides order files importer specifier where
  some_iff target := by
    rw [resolve_eq_findSome? h]
    exact findSome?_fileAt?_eq_some_iff
  none_iff := by
    rw [resolve_eq_findSome? h]
    exact findSome?_fileAt?_eq_none_iff
  perm files' hperm hdistinct := by
    have hsame (c : String) : fileAt? files' c = fileAt? files c := by
      rw [fileAt?, fileAt?, FileSet.get?_of_perm hperm hdistinct]
    rw [resolve_eq_findSome? h, resolve_eq_findSome? h]
    simp only [hsame]

/-! ### A name that several files answer to -/

/-- No two of these files share a written form. -/
def libFiles : List String := ["src/lib/index.js", "src\\lib.ts", "src/lib.js"]

/-- One more file in front, with the written form of the last. -/
def twinFiles : List String := "src\\lib.js" :: libFiles

theorem isLeast_leading_one {files : List String} (hexact : ¬ IsFound files "src/lib")
    (hfound : IsFound files (candidate "src/lib" ".js")) :
    IsLeast (leading .javascriptFirst files "src/lib") 1 := by
  refine ⟨⟨".js", rfl, hfound⟩, ?_⟩
  rintro j ⟨suffix, hat, hj⟩
  cases j with
  | zero =>
      cases hat
      exact absurd hj hexact
  | succ j => exact Nat.le_add_left 1 j

theorem decides_lib :
    resolve .javascriptFirst ⟨twinFiles⟩ "src/main.js" "./lib" = some "src\\lib.js" ∧
      resolve .javascriptFirst ⟨libFiles⟩ "src/main.js" "./lib" = some "src/lib.js" ∧
      resolve .javascriptFirst ⟨libFiles.reverse⟩ "src/main.js" "./lib" = some "src/lib.js" ∧
      resolve .javascriptFirst ⟨libFiles⟩ "main.js" "." = none := by
  have hrelative : SpecifierKind.of "./lib" = .relative := by decide
  have hbase : base "src/main.js" "./lib" = "src/lib" := by decide
  have htwin := decides_of_relative hrelative .javascriptFirst twinFiles "src/main.js"
  have hlib := decides_of_relative hrelative .javascriptFirst libFiles "src/main.js"
  have hdot : SpecifierKind.of "." = .relative := by decide
  have hroot := decides_of_relative hdot .javascriptFirst libFiles "main.js"
  have hone : resolve .javascriptFirst ⟨libFiles⟩ "src/main.js" "./lib" = some "src/lib.js" := by
    rw [hlib.some_iff, hbase]
    refine ⟨1, ".js", isLeast_leading_one (by decide) (by decide), rfl, by decide, ?_⟩
    exact ⟨["src/lib/index.js", "src\\lib.ts"], [], rfl, by decide⟩
  refine ⟨?_, hone, ?_, ?_⟩
  · rw [htwin.some_iff, hbase]
    refine ⟨1, ".js", isLeast_leading_one (by decide) (by decide), rfl, by decide, ?_⟩
    exact ⟨[], libFiles, rfl, by simp⟩
  · rw [hlib.perm _ (List.reverse_perm _).symm (by decide), hone]
  · rw [hroot.none_iff, Set.eq_empty_iff_forall_notMem]
    rintro i ⟨suffix, hat, hfound⟩
    have hnone : ∀ s ∈ SuffixOrder.javascriptFirst.suffixes,
        ¬ IsFound libFiles (candidate (base "main.js" ".") s) := by decide
    exact hnone suffix (List.mem_of_getElem? hat) hfound

end Resolution

end ImportAtlas
