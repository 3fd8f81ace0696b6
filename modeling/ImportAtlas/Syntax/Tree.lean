/-!
# Syntax trees

The tree of a source text. Every token is a leaf, comments among them; a node tells what it is, what
it is to its parent, the rows it lies on, and the text it covers.
-/

namespace ImportAtlas.Syntax

inductive Kind where
  | program
  | importStatement
  /-- `x = require('./y')` in an import statement. -/
  | importRequireClause
  | importClause
  | exportStatement
  | declaration
  | statement
  | block
  | member
  | pattern
  | callExpression
  | newExpression
  | memberExpression
  | expression
  | functionExpression
  | classExpression
  | arguments
  | decorator
  | type
  /-- An element of a page, written in the midst of the code. -/
  | element
  /-- The text of a template or of an element. -/
  | text
  | template
  | string
  | number
  | regex
  | identifier
  | comment
  /-- A keyword or a punctuation mark. -/
  | token
  /-- What could not be made sense of. -/
  | error
  deriving DecidableEq, Repr, Inhabited

/-- Tokens are the only nodes without a name of their own. -/
def Kind.isNamed : Kind → Bool
  | token => false
  | _ => true

inductive Field where
  /-- The string that names the file of an import. -/
  | source
  | function
  | arguments
  deriving DecidableEq, Repr, Inhabited

/-- The rows that a node starts and ends on, counted from zero. -/
structure Rows where
  first : Nat
  last : Nat
  deriving DecidableEq, Repr, Inhabited

inductive Tree where
  | node (kind : Kind) (field : Option Field) (rows : Rows) (text : String) (children : List Tree)
  deriving Repr, Inhabited

namespace Tree

def kind : Tree → Kind
  | node kind _ _ _ _ => kind

def field : Tree → Option Field
  | node _ field _ _ _ => field

def rows : Tree → Rows
  | node _ _ rows _ _ => rows

def text : Tree → String
  | node _ _ _ text _ => text

def children : Tree → List Tree
  | node _ _ _ _ children => children

def withField (field : Field) : Tree → Tree
  | node kind _ rows text children => node kind (some field) rows text children

/-- The first child that is the given part of a node. -/
def part? (field : Field) (t : Tree) : Option Tree := t.children.find? (·.field == some field)

mutual

def size : Tree → Nat
  | node _ _ _ _ children => 1 + sizeAll children

def sizeAll : List Tree → Nat
  | [] => 0
  | t :: ts => size t + sizeAll ts

end

theorem size_eq (t : Tree) : t.size = 1 + sizeAll t.children := by
  cases t
  rw [size, children]

@[simp] theorem sizeAll_nil : sizeAll [] = 0 := by rw [sizeAll]

@[simp] theorem sizeAll_cons (t : Tree) (ts : List Tree) :
    sizeAll (t :: ts) = t.size + sizeAll ts := by rw [sizeAll]

@[simp] theorem sizeAll_append (ts us : List Tree) :
    sizeAll (ts ++ us) = sizeAll ts + sizeAll us := by
  induction ts with
  | nil => simp
  | cons t ts ih => simp [ih, Nat.add_assoc]

end Tree

end ImportAtlas.Syntax
