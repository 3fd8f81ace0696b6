import ImportAtlas.Import
import ImportAtlas.Syntax.Tree
import ImportAtlas.Text.Blank

/-!
# Imports in a syntax tree

Three shapes of nodes import a file: an import statement, the `require` clause of one, and a call of
`require` or `import`. Each has to name the file by a string; computed names are passed over. The
imports of a tree are those of its nodes, parents before children and children from left to right.
-/

namespace ImportAtlas.Syntax

open Text

def isQuote (c : Char) : Bool := c == '\'' || c == '"'

/-- What a string says: its text without the quotes around it. -/
def stringValue? (t : Tree) : Option String :=
  if t.kind == .string then some (String.ofList (stripEnds isQuote t.text.toList)) else none

/-- The first argument of a call, comments passed over. -/
def firstArgument? (arguments : Tree) : Option Tree :=
  arguments.children.find? fun t => t.kind.isNamed && t.kind != .comment

def callKind? (function : Tree) : Option ImportKind :=
  if function.text == "require" then some .require
  else if function.text == "import" then some .dynamic
  else none

/-- The line a node starts on, counted from one. -/
def lineOf (t : Tree) : Nat := t.rows.first + 1

/-- The import that a node makes by itself. -/
def importAt? (t : Tree) : Option ImportStatement :=
  match t.kind with
  | .importStatement => do
    let path ← t.part? .source >>= stringValue?
    return ⟨path, lineOf t, .importFrom⟩
  | .importRequireClause => do
    let path ← t.part? .source >>= stringValue?
    return ⟨path, lineOf t, .require⟩
  | .callExpression => do
    let kind ← t.part? .function >>= callKind?
    let path ← t.part? .arguments >>= firstArgument? >>= stringValue?
    return ⟨path, lineOf t, kind⟩
  | _ => none

/-- The imports of the trees that are still to be visited, behind those found so far. The children
of a node take its place before all that follows. -/
def collect (found : List ImportStatement) : List Tree → List ImportStatement
  | [] => found.reverse
  | t :: waiting => collect ((importAt? t).toList ++ found) (t.children ++ waiting)
termination_by waiting => Tree.sizeAll waiting
decreasing_by
  rw [Tree.sizeAll_append, Tree.sizeAll_cons, Tree.size_eq]
  omega

def extractImports (t : Tree) : List ImportStatement := collect [] [t]

end ImportAtlas.Syntax
