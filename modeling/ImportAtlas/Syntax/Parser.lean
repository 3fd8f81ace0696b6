import ImportAtlas.Language
import ImportAtlas.Syntax.Token

/-!
# Parsers

A parser consumes tokens and leaves trees behind. The finished trees lie on a stack until the node
that they belong to is closed over them. A parser that gives up keeps what it has finished, so that
a statement with a mistake in it still has its sound parts.

The rules of the grammar refer to each other through the names in `Rule`; each of them is defined
for any reading of those names, and the names are bound to the definitions once, at the end.
-/

namespace ImportAtlas.Syntax

structure Surroundings where
  /-- Whether it stands in brackets, where the end of a line ends nothing. -/
  isBracketed : Bool
  /-- Whether a colon has to follow it, as in the middle of a choice. -/
  awaitsColon : Bool

structure State where
  dialect : Dialect
  token : Token
  /-- Where the last token ended. -/
  last : Cursor
  /-- The finished trees, last one first. -/
  done : List Tree
  count : Nat
  surroundings : Surroundings

namespace State

def push (t : Tree) (s : State) : State := { s with done := t :: s.done, count := s.count + 1 }

/-- The state with the comments before the next token among the finished trees. -/
def keepComments (s : State) : State :=
  let s' := s.token.comments.foldl (fun s t => s.push t) s
  { s' with token := { s'.token with comments := [] } }

def shift (s : State) : State :=
  let s := s.keepComments.push s.token.leaf
  { s with last := s.token.stop, token := s.token.next }

/-- How many steps a loop may take here: there is no token without characters. -/
def stepBound (s : State) : Nat := s.last.left + 1

end State

/-- Gives up with the state it has reached. -/
abbrev Parser := EStateM Unit State

/-- Where a node begins: the number of trees before it, and its place. -/
structure Beginning where
  count : Nat
  start : Cursor

namespace Parser

def giveUp {α : Type} : Parser α := throw ()

def peek : Parser Token := do return (← get).token

def peekSecond : Parser Token := do return (← get).token.next

def hasTypes : Parser Bool := do return (← get).dialect.hasTypes

def nextIs (text : String) : Parser Bool := do return (← get).token.is text

def nextIsAny (texts : List String) : Parser Bool := do return (← get).token.isAny texts

def secondIs (text : String) : Parser Bool := do return (← peekSecond).is text

def shift : Parser Unit := modify State.shift

/-- Consumes a certain token if it comes next, and tells whether it did. -/
def accept (text : String) : Parser Bool := do
  if ← nextIs text then
    shift
    return true
  else return false

def expect (text : String) : Parser Unit := do
  unless ← accept text do giveUp

/-- Consumes a closing bracket. It may be missing right before a semicolon. -/
def close (bracket : String) : Parser Unit := do
  unless ← accept bracket do
    unless ← nextIs ";" do giveUp

def expectKind (kind : TokenKind) : Parser Unit := do
  if (← peek).kind == kind then shift else giveUp

def word : Parser Unit := expectKind .word

def reread (reading : Reading) : Parser Unit :=
  modify fun s => { s with token := s.token.reread reading }

/-- Reads the text right behind the last token in another way. -/
def rereadRest (reading : Reading) : Parser Unit :=
  modify fun s => { s with token := .behind reading ⟨s.last, false, []⟩ }

def beginning : Parser Beginning := do
  modify State.keepComments
  let s ← get
  return ⟨s.count, s.token.start⟩

/-- Makes all trees since a beginning the children of one node. -/
def reduce (kind : Kind) (b : Beginning) : Parser Unit :=
  modify fun s =>
    let n := s.count - b.count
    let rows := ⟨b.start.row, max b.start.row s.last.row⟩
    let tree := .node kind none rows (b.start.textTo s.last) (s.done.take n).reverse
    { s with done := tree :: s.done.drop n, count := s.count - n + 1 }

/-- What a parser leaves behind, as one node. -/
def node (kind : Kind) (p : Parser Unit) : Parser Unit := do
  let b ← beginning
  p
  reduce kind b

/-- Tells what the last finished tree is to its parent. -/
def label (field : Field) : Parser Unit :=
  modify fun s =>
    match s.done with
    | [] => s
    | t :: ts => { s with done := t.withField field :: ts }

/-- Runs a parser, and takes all back if it gives up or answers no. -/
def attempt (p : Parser Bool) : Parser Bool := fun s =>
  match p s with
  | .ok true s' => .ok true s'
  | _ => .ok false s

def repeatWhile (p : Parser Bool) : Parser Unit := do
  go (← get).stepBound
where
  go : Nat → Parser Unit
    | 0 => return
    | fuel + 1 => do
      if ← p then go fuel

/-- Items with a mark between them, up to a closing bracket. The last item may have the mark too. -/
def separated (mark bracket : String) (item : Parser Unit) : Parser Unit :=
  repeatWhile do
    if ← nextIs bracket then return false
    item
    accept mark

def within (surroundings : Surroundings) (p : Parser Unit) : Parser Unit := do
  let before := (← get).surroundings
  modify fun s => { s with surroundings }
  p
  modify fun s => { s with surroundings := before }

def bracketed (p : Parser Unit) : Parser Unit := within ⟨true, false⟩ p

/-- Whether the statement may end before the next token, because a line does. -/
def lineEndsStatement : Parser Bool := do
  let s ← get
  return !s.surroundings.isBracketed && s.token.isOnLineOfItsOwn

/-- Whether the next token belongs to something else than the statement so far. -/
def expressionEnds : Parser Bool := do
  return (← peek).endsExpression || (← lineEndsStatement)

/-- A semicolon, which may be missing. -/
def semicolon : Parser Unit := do
  let _ ← accept ";"

end Parser

/-- The rules of the grammar that refer to themselves in some way. -/
inductive Rule where
  | statement
  /-- An expression without a comma. The operator `in` may be reserved for a loop. -/
  | assignment (hasIn : Bool)
  /-- An operand with the operators before and behind it. -/
  | unary
  | type
  | element
  deriving DecidableEq, Repr

/-- What the names of the rules stand for. -/
abbrev Grammar := Rule → Parser Unit

end ImportAtlas.Syntax
