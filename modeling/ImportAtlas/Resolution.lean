import ImportAtlas.Path

/-!
# Resolution of specifiers

Which file of a set an import names. The specifier is joined to the folder of the importing file,
brought into its written form, and completed by a fixed order of suffixes; the first candidate that
is in the set wins.
-/

namespace ImportAtlas

open Text

/-- The source files of a repository, in the order they were found. -/
structure FileSet where
  files : List String
  deriving DecidableEq, Repr, Inhabited

namespace FileSet

/-- The first file whose path, written with `/`, is the one asked for. -/
def get? (set : FileSet) (path : String) : Option String :=
  set.files.find? (Path.slashed · == path)

def contains (set : FileSet) (path : String) : Bool := (set.get? path).isSome

def size (set : FileSet) : Nat := set.files.length

theorem mem_of_get? {set : FileSet} {path file : String} (h : set.get? path = some file) :
    file ∈ set.files := List.mem_of_find?_eq_some h

end FileSet

/-- Which language's endings are tried first. -/
inductive SuffixOrder where
  | javascriptFirst
  | typescriptFirst
  deriving DecidableEq, Repr, Inhabited

namespace SuffixOrder

def name : SuffixOrder → String
  | javascriptFirst => "javascript-first"
  | typescriptFirst => "typescript-first"

def ofName? (text : String) : Option SuffixOrder :=
  [javascriptFirst, typescriptFirst].find? (·.name == text)

def suffixes : SuffixOrder → List String
  | javascriptFirst => ["", ".js", ".jsx", ".ts", ".tsx", "/index.js", "/index.ts"]
  | typescriptFirst => ["", ".ts", ".tsx", ".js", ".jsx", "/index.ts", "/index.js"]

@[simp] theorem ofName?_name (o : SuffixOrder) : ofName? o.name = some o := by
  cases o <;> decide

end SuffixOrder

inductive SpecifierKind where
  /-- The name of a package. -/
  | external
  /-- A path, which starts with `.` or `/`. -/
  | relative
  deriving DecidableEq, Repr, Inhabited

namespace SpecifierKind

def name : SpecifierKind → String
  | external => "external"
  | relative => "relative"

def of (specifier : String) : SpecifierKind :=
  match specifier.toList with
  | '.' :: _ | '/' :: _ => relative
  | _ => external

end SpecifierKind

namespace Resolution

/-- The path that a specifier denotes before any suffix is added. A leading `/` does not lead back
to the root: it is one more separator after the importer's folder. -/
def base (importer specifier : String) : String :=
  match Path.directory? (Path.slashed importer) with
  | none => Path.normalize specifier
  | some dir =>
    if dir.isEmpty then Path.normalize specifier
    else Path.normalize (dir ++ "/" ++ specifier)

/-- The base completed by a suffix. At the root there is nothing to complete, and an index suffix
loses its slash. -/
def candidate (base suffix : String) : String :=
  if base.isEmpty then String.ofList (suffix.toList.dropWhile Path.isSlash) else base ++ suffix

/-- The paths that are looked up, in order. -/
def candidates (order : SuffixOrder) (importer specifier : String) : List String :=
  (order.suffixes.map (candidate (base importer specifier))).filter (!·.isEmpty)

def resolve (order : SuffixOrder) (set : FileSet) (importer specifier : String) : Option String :=
  match SpecifierKind.of specifier with
  | .external => none
  | .relative => (candidates order importer specifier).findSome? set.get?

/-- The candidates up to and including the first that is found. -/
def tried (set : FileSet) : List String → List String
  | [] => []
  | c :: cs => if set.contains c then [c] else c :: tried set cs

theorem mem_of_resolve {order : SuffixOrder} {set : FileSet} {importer specifier file : String}
    (h : resolve order set importer specifier = some file) : file ∈ set.files := by
  unfold resolve at h
  split at h
  · simp at h
  · obtain ⟨c, _, hc⟩ := List.exists_of_findSome?_eq_some h
    exact FileSet.mem_of_get? hc

end Resolution

end ImportAtlas
