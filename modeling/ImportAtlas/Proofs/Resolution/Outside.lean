import ImportAtlas.Proofs.Discovery.Order
import ImportAtlas.Proofs.Resolution.Base

/-!
# Imports that lead out of the root

The path of such an import starts with `..`, and files of a repository have no such path. But
suffixes are added to a path as they are to a name: `..` with an extension is the name of a file.
And a file with a backslash in its name has a written form that can lead out of the root itself.
These are all the files that such an import can name, and each of them is named by one.
-/

namespace ImportAtlas

open Text Host

variable {names files : List String} {ext suffix path importer specifier target : String}
  {order : SuffixOrder} {k : Nat}

namespace Path

/-! ## Suffixes of written forms -/

theorem isSegment_append_extension (path : String)
    (hpath : '/' ∉ path.toList ∧ '\\' ∉ path.toList) (hext : ext ∈ order.extensions) :
    IsSegment (path ++ ext) ∧ '\\' ∉ (path ++ ext).toList := by
  have hall : ∀ e ∈ order.extensions, 's' ∈ e.toList ∧ '/' ∉ e.toList ∧ '\\' ∉ e.toList := by
    cases order <;> decide
  obtain ⟨hs, hslash, hback⟩ := hall ext hext
  have hname : ∀ dots : String, 's' ∉ dots.toList → path ++ ext ≠ dots := by
    rintro dots hdots rfl
    apply hdots
    rw [String.toList_append]
    exact List.mem_append_right _ hs
  refine ⟨⟨hname "" (by decide), hname "." (by decide), hname ".." (by decide), ?_⟩, ?_⟩
  · rw [String.toList_append, List.mem_append, not_or]
    exact ⟨hpath.1, hslash⟩
  · rw [String.toList_append, List.mem_append, not_or]
    exact ⟨hpath.2, hback⟩

/-- A suffix leaves the `..` segments of a written form alone, unless nothing stands behind them:
then an extension makes the last of them a name. -/
theorem exists_joinFields_append_suffix (k : Nat)
    (hnames : ∀ n ∈ names, IsSegment n ∧ '\\' ∉ n.toList) (hsuffix : suffix ∈ order.suffixes) :
    (∃ more, (∀ n ∈ more, IsSegment n ∧ '\\' ∉ n.toList) ∧
        joinFields '/' (List.replicate (k + 1) ".." ++ names) ++ suffix =
          joinFields '/' (List.replicate (k + 1) ".." ++ more)) ∨
      names = [] ∧ suffix ∈ order.extensions ∧
        joinFields '/' (List.replicate (k + 1) ".." ++ names) ++ suffix =
          joinFields '/' (List.replicate k ".." ++ [".." ++ suffix]) := by
  rcases SuffixOrder.mem_suffixes_iff.mp hsuffix with rfl | hext | ⟨index, hindex, rfl⟩
  · exact Or.inl ⟨names, hnames, String.append_empty⟩
  · rcases List.eq_nil_or_concat' names with rfl | ⟨init, last, rfl⟩
    · refine Or.inr ⟨rfl, hext, ?_⟩
      rw [List.append_nil, List.replicate_succ', joinFields_concat_append]
    · obtain ⟨hinit, hlast⟩ := List.forall_mem_append.mp hnames
      have hlast := hlast last (List.mem_singleton_self last)
      refine Or.inl ⟨init ++ [last ++ suffix], ?_, ?_⟩
      · refine List.forall_mem_append.mpr ⟨hinit, List.forall_mem_singleton.mpr ?_⟩
        exact isSegment_append_extension last ⟨hlast.1.no_slash, hlast.2⟩ hext
      · rw [← List.append_assoc, joinFields_concat_append, List.append_assoc]
  · have hall : ∀ n ∈ order.indexNames, IsSegment n ∧ '\\' ∉ n.toList := by
      cases order <;> decide
    refine Or.inl ⟨names ++ [index], ?_, ?_⟩
    · exact List.forall_mem_append.mpr ⟨hnames, List.forall_mem_singleton.mpr (hall index hindex)⟩
    · rw [joinFields_concat (by simp), List.append_assoc]

end Path

namespace Resolution

/-- The files that `..` names by an extension. -/
def parentFiles : List String := ["...js", "...jsx", "...ts", "...tsx"]

/-- The written form of a file leads out of the root. -/
def WrittenOutside (path : String) : Prop :=
  Path.leavesRoot (Path.slashed path) = true ∧ Path.normalize path = Path.slashed path

instance (path : String) : Decidable (WrittenOutside path) :=
  inferInstanceAs (Decidable (_ ∧ _))

theorem writtenOutside_of_slashed (hnames : ∀ n ∈ names, IsSegment n ∧ '\\' ∉ n.toList)
    (h : Path.slashed path = joinFields '/' (List.replicate (k + 1) ".." ++ names)) :
    WrittenOutside path := by
  constructor
  · rw [h, List.replicate_succ, List.cons_append]
    exact Path.leavesRoot_joinFields _
  · rw [← Path.normalize_slashed, h]
    exact Path.normalize_joinFields_parents (k + 1) (by simp [List.replicate_succ]) hnames

theorem eq_of_slashed (hslash : '/' ∉ (Path.slashed path).toList) : Path.slashed path = path := by
  apply Path.slashed_eq_self
  intro hback
  apply hslash
  rw [Path.slashed, replaceChar, String.toList_ofList]
  exact List.mem_map.mpr ⟨'\\', hback, rfl⟩

theorem WrittenOutside.backslash (h : WrittenOutside path) (hpath : Path.IsListed path) :
    '\\' ∈ path.toList := by
  by_contra hback
  have hout := h.1
  rw [Path.slashed_eq_self hback, hpath.leavesRoot_eq_false] at hout
  cases hout

theorem exists_base_of_leavesRoot (h : Path.leavesRoot (base importer specifier) = true) :
    ∃ k names, base importer specifier = joinFields '/' (List.replicate (k + 1) ".." ++ names) ∧
      ∀ n ∈ names, IsSegment n ∧ '\\' ∉ n.toList := by
  obtain ⟨k, names, hbase, hnames⟩ := isNormal_base importer specifier
  cases k with
  | zero =>
      exfalso
      rw [hbase, List.replicate_zero, List.nil_append] at h
      by_cases hne : names = []
      · subst hne
        cases h
      · rw [Path.leavesRoot_eq_false hne fun n hn => (hnames n hn).1] at h
        cases h
  | succ k => exact ⟨k, names, hbase, hnames⟩

/-- An import that leads out of the root names a file only by an extension of `..`, or if the
written form of the file leads out of the root, too. -/
theorem outside_of_resolve (hout : Path.leavesRoot (base importer specifier) = true)
    (h : resolve order ⟨files⟩ importer specifier = some target) :
    (base importer specifier = ".." ∧ target ∈ parentFiles) ∨ WrittenOutside target := by
  obtain ⟨k, names, hbase, hnames⟩ := exists_base_of_leavesRoot hout
  obtain ⟨suffix, hsuffix, hslashed⟩ := slashed_of_resolve h
  have hne : base importer specifier ≠ "" := by
    intro hempty
    rw [hempty] at hout
    cases hout
  rw [candidate, if_neg (by simpa using hne), hbase] at hslashed
  rcases Path.exists_joinFields_append_suffix k hnames hsuffix with
    ⟨more, hmore, hjoin⟩ | ⟨rfl, hext, hjoin⟩
  · exact Or.inr (writtenOutside_of_slashed hmore (hslashed.trans hjoin))
  · cases k with
    | succ k =>
        have hname := Path.isSegment_append_extension ".." (by decide) hext
        exact Or.inr (writtenOutside_of_slashed (List.forall_mem_singleton.mpr hname)
          (hslashed.trans hjoin))
    | zero =>
        have hall : ∀ e ∈ order.extensions, ".." ++ e ∈ parentFiles ∧ '/' ∉ (".." ++ e).toList := by
          cases order <;> decide
        obtain ⟨hmem, hslash⟩ := hall suffix hext
        have hsingle : joinFields '/' [".." ++ suffix] = ".." ++ suffix := String.ofList_toList
        have htarget : Path.slashed target = ".." ++ suffix := (hslashed.trans hjoin).trans hsingle
        rw [← htarget] at hmem hslash
        exact Or.inl ⟨by rw [hbase]; rfl, eq_of_slashed hslash ▸ hmem⟩

theorem resolve_ne_none (hkind : SpecifierKind.of specifier = .relative)
    (hsuffix : suffix ∈ order.suffixes)
    (hfound : IsFound files (candidate (base importer specifier) suffix)) :
    resolve order ⟨files⟩ importer specifier ≠ none := by
  intro hnone
  rw [resolve_eq_findSome? hkind, List.findSome?_eq_none_iff] at hnone
  exact fileAt?_eq_none_iff.mp (hnone suffix hsuffix) hfound

/-- A file that names itself from its own folder denotes its written form. -/
theorem base_self (path : String) :
    base path (climbing 0 ((fields Path.isSeparator path).getLast (fields_ne_nil _ path))) =
      Path.normalize path := by
  generalize hlast : (fields Path.isSeparator path).getLast (fields_ne_nil _ path) = last
  have hmem : last ∈ fields Path.isSeparator path := hlast ▸ List.getLast_mem _
  have hsplit : (fields Path.isSeparator path).dropLast ++ [last] = fields Path.isSeparator path :=
    hlast ▸ List.dropLast_concat_getLast _
  have hfold : Path.foldSegments ((fields Path.isSeparator path).dropLast ++ ["."] ++ [last]) =
      Path.foldSegments (fields Path.isSeparator path) := by
    conv_rhs => rw [← hsplit]
    simp [Path.foldSegments]
  rw [base_eq, way, fields_climbing, fields_of_plain (plain_of_mem_fields hmem), Path.normalize,
    ← hfold, List.append_assoc]
  rfl

theorem reached_of_parentFiles (order : SuffixOrder) (hpath : path ∈ files)
    (h : path ∈ parentFiles) :
    Path.leavesRoot (base path "..") = true ∧ resolve order ⟨files⟩ path ".." ≠ none := by
  have hall : ∀ f ∈ parentFiles, base f ".." = ".." ∧ Path.slashed f = f ∧
      ∃ e ∈ order.extensions, f = ".." ++ e := by
    cases order <;> decide
  obtain ⟨hbase, hslashed, e, he, heq⟩ := hall path h
  refine ⟨by rw [hbase]; decide, ?_⟩
  have hsuffix : e ∈ order.suffixes := SuffixOrder.mem_suffixes_iff.mpr (Or.inr (Or.inl he))
  apply resolve_ne_none (by decide) hsuffix
  rw [hbase, show candidate ".." e = path from heq.symm]
  exact ⟨by rintro rfl; revert h; decide, path, hpath, hslashed⟩

theorem reached_of_writtenOutside (order : SuffixOrder) (hpath : path ∈ files)
    (h : WrittenOutside path) :
    ∃ specifier, Path.leavesRoot (base path specifier) = true ∧
      resolve order ⟨files⟩ path specifier ≠ none := by
  obtain ⟨hout, hnormal⟩ := h
  have hbase := (base_self path).trans hnormal
  have hne : Path.slashed path ≠ "" := by
    intro hempty
    rw [hempty] at hout
    cases hout
  refine ⟨_, by rw [hbase]; exact hout, ?_⟩
  apply resolve_ne_none (isRelative_climbing _ _) (SuffixOrder.mem_suffixes_iff.mpr (Or.inl rfl))
  rw [hbase, candidate, if_neg (by simpa using hne), String.append_empty]
  exact ⟨hne, path, hpath, rfl⟩

/-- What imports that lead out of the root name in a set of files. -/
structure NamesOutside (files : List String) : Prop where
  named : ∀ order importer specifier target, Path.leavesRoot (base importer specifier) = true →
    resolve order ⟨files⟩ importer specifier = some target →
    (base importer specifier = ".." ∧ target ∈ parentFiles) ∨ WrittenOutside target
  backslash : ∀ f ∈ files, WrittenOutside f → '\\' ∈ f.toList
  /-- They name nothing exactly if the set holds no such file. -/
  none_iff : (∀ order, ∀ importer ∈ files, ∀ specifier,
      Path.leavesRoot (base importer specifier) = true →
      resolve order ⟨files⟩ importer specifier = none) ↔
    ∀ f ∈ files, f ∉ parentFiles ∧ ¬ WrittenOutside f

theorem namesOutside_of_isListed (hfiles : ∀ f ∈ files, Path.IsListed f) : NamesOutside files where
  named _ _ _ _ hout h := outside_of_resolve hout h
  backslash f hf h := h.backslash (hfiles f hf)
  none_iff := by
    constructor
    · intro hnone f hf
      constructor
      · intro hparent
        obtain ⟨hout, hsome⟩ := reached_of_parentFiles .javascriptFirst hf hparent
        exact hsome (hnone .javascriptFirst f hf ".." hout)
      · intro hwritten
        obtain ⟨specifier, hout, hsome⟩ :=
          reached_of_writtenOutside .javascriptFirst hf hwritten
        exact hsome (hnone .javascriptFirst f hf specifier hout)
    · intro hfree order importer _ specifier hout
      cases hres : resolve order ⟨files⟩ importer specifier with
      | none => rfl
      | some target =>
          obtain ⟨hparent, hwritten⟩ := hfree target (mem_of_resolve hres)
          rcases outside_of_resolve hout hres with ⟨-, hmem⟩ | hmem
          · exact absurd hmem hparent
          · exact absurd hmem hwritten

/-! ### A repository with a file that `..` names -/

def dotsEntries : List (String × Entry) :=
  [("...js", .file ⟨#[]⟩), ("lib", .folder [("a.js", .file ⟨#[]⟩)]), ("main.js", .file ⟨#[]⟩)]

def dotsHost : Host := ⟨.folder [("repo", .folder dotsEntries)], []⟩

theorem resolve_dots : dotsHost.resolve "/repo" = .ok ⟨["repo"], .folder dotsEntries⟩ := by cbv

theorem discover_dots :
    (Discovery.discover {} dotsHost "/repo" none).value =
      .ok ["...js", "lib/a.js", "main.js"] := by
  have hmet : Walk.sightings Exclusions.standard [] (.folder dotsEntries) =
      [.file ["...js"], .file ["lib", "a.js"], .file ["main.js"]] := by
    rw [Walk.sightings_of_sorted (by decide)]
    simp (disch := decide) [dotsEntries, Walk.sightingsAt, Walk.sightings_of_sorted,
      Entry.isFolder, Exclusions.standard]
  rw [Discovery.discover_whole (by decide) resolve_dots,
    Discovery.listing_of_resolve rfl resolve_dots,
    show ({} : Discovery).excluded = Exclusions.standard from rfl, hmet]
  cbv

theorem namesOutside_dots :
    (Discovery.discover {} dotsHost "/repo" none).value =
        .ok ["...js", "lib/a.js", "main.js"] ∧
      NamesOutside ["...js", "lib/a.js", "main.js"] ∧
      Path.leavesRoot (base "main.js" "..") = true ∧
      resolve .javascriptFirst ⟨["...js", "lib/a.js", "main.js"]⟩ "main.js" ".." = some "...js" ∧
      ∀ order, resolve order ⟨["lib/a.js", "main.js"]⟩ "lib/a.js" "../.." = none := by
  have hlisted := Discovery.isListed_of_discover (by decide)
    (Host.isFolder_iff.mpr ⟨_, _, resolve_dots⟩) discover_dots
  have hfree : NamesOutside ["lib/a.js", "main.js"] := namesOutside_of_isListed (by decide)
  refine ⟨discover_dots, namesOutside_of_isListed hlisted, by decide, by decide, fun order => ?_⟩
  exact hfree.none_iff.mpr (by decide) order "lib/a.js" (by decide) "../.." (by decide)

end Resolution

end ImportAtlas
