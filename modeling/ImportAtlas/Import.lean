import ImportAtlas.Language

/-!
# Imports

An import as it stands in a source file, before anything is known about the file it names.
-/

namespace ImportAtlas

inductive ImportKind where
  /-- `import x from './y'` -/
  | importFrom
  /-- `require('./y')` -/
  | require
  /-- `import('./y')` -/
  | dynamic
  deriving DecidableEq, Repr, Inhabited

namespace ImportKind

def name : ImportKind → String
  | importFrom => "import"
  | require => "require"
  | dynamic => "dynamic"

def ofName? (text : String) : Option ImportKind :=
  [importFrom, require, dynamic].find? (·.name == text)

@[simp] theorem ofName?_name (k : ImportKind) : ofName? k.name = some k := by
  cases k <;> decide

end ImportKind

/-- One import: the specifier as written without its quotes, and the line it starts on, counted
from one. -/
structure ImportStatement where
  specifier : String
  line : Nat
  kind : ImportKind
  deriving DecidableEq, Repr, Inhabited

structure ParseReport where
  file : String
  language : Option Language
  imports : List ImportStatement
  importCount : Nat
  deriving DecidableEq, Repr, Inhabited

def ParseReport.ofImports (file : String) (imports : List ImportStatement) : ParseReport where
  file := file
  language := Language.ofPath? file
  imports := imports
  importCount := imports.length

end ImportAtlas
