import ImportAtlas.Proofs.Path.Joining
import ImportAtlas.Proofs.Resolution.Precedence

/-!
# The path that an import denotes

The base of an import is the written form of the importer's folders followed by the segments of the
specifier. So every file can be named from every other one: up to a folder above both, and down
again by the rest of the path. Nothing stands before such a specifier, since what it denotes is
tried before any suffix is added.
-/

namespace ImportAtlas

open Text Host

variable {files : List String} {path file : String}

theorem FileSet.get?_of_mem (hfiles : ∀ f ∈ files, Path.IsCanonical f) (h : path ∈ files) :
    (⟨files⟩ : FileSet).get? path = some path := by
  cases hget : (⟨files⟩ : FileSet).get? path with
  | none => exact absurd (hfiles path h).slashed (FileSet.get?_eq_none_iff.mp hget path h)
  | some file =>
      have hfile : file ∈ files := FileSet.mem_of_get? hget
      rw [← FileSet.slashed_of_get? hget, (hfiles file hfile).slashed]

namespace SuffixOrder

/-- The suffixes that complete the name of a file. -/
def extensions : SuffixOrder → List String
  | javascriptFirst => [".js", ".jsx", ".ts", ".tsx"]
  | typescriptFirst => [".ts", ".tsx", ".js", ".jsx"]

/-- The files that stand for the folder they are in. -/
def indexNames : SuffixOrder → List String
  | javascriptFirst => ["index.js", "index.ts"]
  | typescriptFirst => ["index.ts", "index.js"]

theorem suffixes_eq (order : SuffixOrder) :
    order.suffixes = "" :: (order.extensions ++ order.indexNames.map ("/" ++ ·)) := by
  cases order <;> decide

theorem mem_suffixes_iff {order : SuffixOrder} {suffix : String} :
    suffix ∈ order.suffixes ↔ suffix = "" ∨ suffix ∈ order.extensions ∨
      ∃ name ∈ order.indexNames, suffix = "/" ++ name := by
  simp [suffixes_eq, eq_comm]

end SuffixOrder

namespace Resolution

variable {order : SuffixOrder} {importer specifier target suffix : String}
  {above below rest : List String} {name : String}

/-- The folders that lead to an importing file, as far as they are not left again. -/
def folders (importer : String) : List String :=
  Path.foldSegments (fields Path.isSeparator importer).dropLast

/-- All segments on the way from the root to what a specifier denotes, in the order in which they
are walked. -/
def way (importer specifier : String) : List String :=
  (fields Path.isSeparator importer).dropLast ++ fields Path.isSeparator specifier

theorem no_separator_of_mem_way {s : String} (hs : s ∈ way importer specifier) :
    '/' ∉ s.toList ∧ '\\' ∉ s.toList := by
  rcases List.mem_append.mp hs with hfolder | hspec
  · have hmem := List.mem_of_mem_dropLast hfolder
    exact ⟨Path.no_slash_of_mem_fields hmem, Path.no_backslash_of_mem_fields hmem⟩
  · exact ⟨Path.no_slash_of_mem_fields hspec, Path.no_backslash_of_mem_fields hspec⟩

/-- A specifier continues the path of the importer's folder. -/
theorem base_eq (importer specifier : String) :
    base importer specifier = joinFields '/' (Path.foldSegments (way importer specifier)) := by
  rw [base, way, ← Path.fields_slashed importer]
  rcases Path.directory?_cases (Path.backslash_notMem_slashed importer) with
    ⟨hdir, hfields⟩ | ⟨dir, name, hdir, hfields⟩
  · rw [hdir, hfields]
    rfl
  · rw [hdir, hfields, List.dropLast_concat]
    simp only [String.isEmpty_iff]
    split
    next hempty =>
      -- a leading slash parts an empty segment off, which names no folder
      rw [hempty, show fields Path.isSeparator "" = [""] by decide, Path.foldSegments,
        List.singleton_append, List.foldl_cons, Path.push_empty]
      rfl
    next =>
      rw [Path.normalize, show "/" = String.singleton '/' from rfl,
        fields_append_sep _ (show Path.isSeparator '/' = true by decide)]

/-- A base is a written form: it leads up first and down afterwards. -/
theorem isNormal_base (importer specifier : String) : Path.IsNormal (base importer specifier) := by
  rw [base]
  split
  · exact Path.isNormal_normalize _
  · split <;> exact Path.isNormal_normalize _

theorem candidates_of_base (hne : base importer specifier ≠ "") (order : SuffixOrder) :
    candidates order importer specifier =
      order.suffixes.map (base importer specifier ++ ·) := by
  have hcandidate : candidate (base importer specifier) = (base importer specifier ++ ·) := by
    funext suffix
    rw [candidate, if_neg (by simpa using hne)]
  rw [candidates, hcandidate, List.filter_eq_self]
  intro c hc
  obtain ⟨suffix, -, rfl⟩ := List.mem_map.mp hc
  simp [hne]

/-- What a specifier denotes is tried before any suffix is added. -/
theorem resolve_of_base (hfiles : ∀ f ∈ files, Path.IsCanonical f) (htarget : target ∈ files)
    (hkind : SpecifierKind.of specifier = .relative) (hbase : base importer specifier = target)
    (order : SuffixOrder) : resolve order ⟨files⟩ importer specifier = some target := by
  have hne : base importer specifier ≠ "" := hbase ▸ (hfiles target htarget).ne_empty
  have hfound : (⟨files⟩ : FileSet).get? (target ++ "") = some target := by
    rw [String.append_empty]
    exact FileSet.get?_of_mem hfiles htarget
  rw [resolve, hkind, candidates_of_base hne, hbase, SuffixOrder.suffixes_eq, List.map_cons]
  exact (List.findSome?_cons_of_isSome (by rw [hfound]; rfl)).trans hfound

/-! ## From one file to another -/

/-- The specifier that leads up by some folders and down again by a path. -/
def climbing (up : Nat) (path : String) : String :=
  "./" ++ String.join (List.replicate up "../") ++ path

theorem fields_climbing (up : Nat) (path : String) :
    fields Path.isSeparator (climbing up path) =
      "." :: (List.replicate up ".." ++ fields Path.isSeparator path) := by
  have hup : fields Path.isSeparator (String.join (List.replicate up "../") ++ path) =
      List.replicate up ".." ++ fields Path.isSeparator path := by
    induction up with
    | zero => simp
    | succ up ih =>
        rw [List.replicate_succ, List.replicate_succ, String.join_cons, String.append_assoc,
          List.cons_append, ← ih]
        exact fields_append_sep (p := Path.isSeparator) ".." (c := '/') (by decide) _
  rw [climbing, String.append_assoc, ← hup]
  exact fields_append_sep (p := Path.isSeparator) "." (c := '/') (by decide) _

theorem isRelative_climbing (up : Nat) (path : String) :
    SpecifierKind.of (climbing up path) = .relative := by
  rw [climbing, SpecifierKind.of, String.toList_append, String.toList_append]
  rfl

/-- Up to a folder above the importer, and down again to what lies below it. -/
theorem base_climbing (himporter : Path.IsCanonical importer)
    (hsegs : Path.segments importer = above ++ below ++ [name]) (hne : rest ≠ [])
    (hrest : ∀ s ∈ rest, IsSegment s ∧ '\\' ∉ s.toList) :
    base importer (climbing below.length (joinFields '/' rest)) =
      joinFields '/' (above ++ rest) := by
  have hplain : ∀ s ∈ above ++ below, IsSegment s := by
    intro s hs
    apply himporter.plain s
    rw [hsegs]
    exact List.mem_append_left [name] hs
  obtain ⟨habove, hbelow⟩ := List.forall_mem_append.mp hplain
  have hcut : fields Path.isSeparator (joinFields '/' rest) = rest :=
    Path.fields_isSeparator_joinFields hne fun s hs => ⟨(hrest s hs).1.no_slash, (hrest s hs).2⟩
  have hup : ("." :: List.replicate below.length "..").foldl Path.push
      (below.reverse ++ above.reverse) = above.reverse := by
    refine Path.foldl_push_dots ?_ ?_ (by simp)
    · simp
    · exact fun h => (hbelow _ (List.mem_reverse.mp h)).ne_parent rfl
  rw [base_eq, way, himporter.fields, hsegs, List.dropLast_concat, fields_climbing, hcut,
    Path.foldSegments, ← List.cons_append, List.foldl_append, List.foldl_append,
    Path.foldl_push_segments hplain, List.append_nil, List.reverse_append, hup,
    Path.foldl_push_segments fun s hs => (hrest s hs).1, List.reverse_append,
    List.reverse_reverse, List.reverse_reverse]

/-- Whatever else the set holds, a file is named from any file by the way over any folder above
both. -/
theorem resolve_climbing (hfiles : ∀ f ∈ files, Path.IsCanonical f) (himporter : importer ∈ files)
    (htarget : target ∈ files) (hup : Path.segments importer = above ++ below ++ [name])
    (hdown : Path.segments target = above ++ rest) (hne : rest ≠ []) (order : SuffixOrder) :
    resolve order ⟨files⟩ importer (climbing below.length (joinFields '/' rest)) = some target := by
  have hrest : ∀ s ∈ rest, IsSegment s ∧ '\\' ∉ s.toList := by
    intro s hs
    have hmem : s ∈ Path.segments target := hdown ▸ List.mem_append_right above hs
    exact ⟨(hfiles target htarget).plain s hmem, (hfiles target htarget).no_backslash_of_mem hmem⟩
  apply resolve_of_base hfiles htarget (isRelative_climbing _ _)
  rw [base_climbing (hfiles importer himporter) hup hne hrest, ← hdown, Path.joinFields_segments]

/-! ### Files that are named after the one asked for -/

def decoyFiles : List String :=
  ["b.js", "src/b.js.ts", "src/b.js/index.js", "src/deep/b.js", "src/deep/er/a.js", "src/b.js"]

theorem resolve_climbing_decoy :
    (∀ f ∈ decoyFiles, Path.IsCanonical f) ∧
      resolve .javascriptFirst ⟨decoyFiles⟩ "src/deep/er/a.js" "./../../b.js" = some "src/b.js" ∧
      resolve .typescriptFirst ⟨decoyFiles⟩ "src/deep/er/a.js" "./../../../src/b.js" =
        some "src/b.js" ∧
      resolve .typescriptFirst ⟨decoyFiles⟩ "b.js" "./src/b.js" = some "src/b.js" := by
  have hfiles : ∀ f ∈ decoyFiles, Path.IsCanonical f := by decide
  have hdeep : "src/deep/er/a.js" ∈ decoyFiles := by decide
  have htop : "b.js" ∈ decoyFiles := by decide
  have htarget : "src/b.js" ∈ decoyFiles := by decide
  have hsrc : Path.segments "src/deep/er/a.js" = ["src"] ++ ["deep", "er"] ++ ["a.js"] := by decide
  have hroot : Path.segments "src/deep/er/a.js" = [] ++ ["src", "deep", "er"] ++ ["a.js"] := by
    decide
  have hflat : Path.segments "b.js" = [] ++ [] ++ ["b.js"] := by decide
  have hdown : Path.segments "src/b.js" = ["src"] ++ ["b.js"] := by decide
  have hwhole : Path.segments "src/b.js" = [] ++ ["src", "b.js"] := by decide
  exact ⟨hfiles,
    resolve_climbing hfiles hdeep htarget hsrc hdown (by simp) .javascriptFirst,
    resolve_climbing hfiles hdeep htarget hroot hwhole (by simp) .typescriptFirst,
    resolve_climbing hfiles htop htarget hflat hwhole (by simp) .typescriptFirst⟩

end Resolution

end ImportAtlas
