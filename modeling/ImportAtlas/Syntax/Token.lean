import ImportAtlas.Syntax.Character
import ImportAtlas.Syntax.Tree

/-!
# Tokens

A source text is read token by token. What a token is may depend on where it stands: a slash
divides or opens a regular expression, and the text of a template or an element follows rules of
its own. So a token tells where it starts, and can be read again in another way from there.
-/

namespace ImportAtlas.Syntax

/-- A place in a text: what follows, how many characters that is, and the row. -/
structure Cursor where
  rest : List Char
  left : Nat
  row : Nat

namespace Cursor

def ofChars (cs : List Char) : Cursor := ⟨cs, cs.length, 0⟩

def skip : Nat → Cursor → Cursor
  | 0, c => c
  | n + 1, c =>
    match c.rest with
    | [] => c
    | x :: rest => skip n ⟨rest, c.left - 1, if x == '\n' then c.row + 1 else c.row⟩

def textTo (start stop : Cursor) : String :=
  String.ofList (start.rest.take (start.left - stop.left))

def leaf (kind : Kind) (start stop : Cursor) : Tree :=
  .node kind none ⟨start.row, stop.row⟩ (start.textTo stop) []

end Cursor

inductive TokenKind where
  | word
  | privateName
  | number
  | string
  | regex
  | mark
  /-- The text of a template or between the tags of an element. -/
  | text
  | malformed
  | endOfText
  deriving DecidableEq, Repr, Inhabited

structure Token where
  kind : TokenKind
  text : String
  start : Cursor
  stop : Cursor
  /-- Whether a line ends between the token before and this one. -/
  startsLine : Bool
  comments : List Tree

/-- A way to read a token: its kind, and how long it is. -/
abbrev Reading := List Char → TokenKind × Nat

/-- The usual reading. A slash divides, and a string that does not end reaches to the end of its
line. -/
def usualReading : Reading
  | [] => (.endOfText, 0)
  | c :: cs =>
    if isWordStart c then (.word, wordLength (c :: cs))
    else if isDigit c then (.number, numberLength (c :: cs))
    else
      match c, cs with
      | '.', d :: _ =>
        if isDigit d then (.number, decimalLength (c :: cs)) else (.mark, markLength (c :: cs))
      | '#', d :: _ =>
        if isWordStart d then (.privateName, 1 + wordLength cs) else (.malformed, 1)
      | '\\', 'u' :: _ => (.word, wordLength (c :: cs))
      | '/', '*' :: _ => (.malformed, 1 + cs.length)
      | _, _ =>
        if c == '"' || c == '\'' then
          match stringLength? c cs with
          | some n => (.string, 1 + n)
          | none => (.malformed, 1 + lineLength cs)
        else
          match markLength (c :: cs) with
          | 0 => (.malformed, 1)
          | n => (.mark, n)

structure Gap where
  stop : Cursor
  hasLineEnd : Bool
  /-- The comments, last one first. -/
  comments : List Tree

namespace Gap

/-- The gap with a comment of some characters. -/
def withComment (g : Gap) (length : Nat) : Gap :=
  let stop := g.stop.skip length
  { g with stop, comments := g.stop.leaf .comment stop :: g.comments }

/-- Passes over blanks and comments. The first argument bounds the steps. -/
def extend : Nat → Gap → Gap
  | 0, g => g
  | fuel + 1, g =>
    match g.stop.rest with
    | '/' :: '/' :: cs => extend fuel (g.withComment (2 + lineLength cs))
    | '/' :: '*' :: cs =>
      match blockCommentLength? cs with
      | some n => extend fuel (g.withComment (2 + n))
      | none => g
    | c :: _ =>
      if isGap c then
        extend fuel { g with stop := g.stop.skip 1, hasLineEnd := g.hasLineEnd || isLineEnd c }
      else g
    | [] => g

end Gap

namespace Token

def behind (reading : Reading) (g : Gap) : Token :=
  let (kind, length) := reading g.stop.rest
  let stop := g.stop.skip length
  ⟨kind, g.stop.textTo stop, g.stop, stop, g.hasLineEnd, g.comments.reverse⟩

def after (c : Cursor) : Token := behind usualReading (Gap.extend c.left ⟨c, false, []⟩)

def reread (reading : Reading) (t : Token) : Token :=
  behind reading ⟨t.start, t.startsLine, t.comments.reverse⟩

def next (t : Token) : Token := after t.stop

def isEnd (t : Token) : Bool := t.kind == .endOfText

def is (text : String) (t : Token) : Bool :=
  (t.kind == .word || t.kind == .mark) && t.text == text

def isAny (texts : List String) (t : Token) : Bool :=
  (t.kind == .word || t.kind == .mark) && texts.contains t.text

def leafKind : TokenKind → Kind
  | .word | .privateName => .identifier
  | .number => .number
  | .string => .string
  | .regex => .regex
  | .text => .text
  | .malformed => .error
  | .mark | .endOfText => .token

def leaf (t : Token) : Tree := t.start.leaf (leafKind t.kind) t.stop

/-- Whether a line end before this token ends a statement that could end there. A mark that may
carry on an expression does carry it on. -/
def isOnLineOfItsOwn (t : Token) : Bool :=
  t.startsLine &&
    match t.start.rest with
    | '.' :: d :: _ => isDigit d
    | '+' :: c :: _ => c == '+'
    | '-' :: c :: _ => c == '-'
    | '!' :: c :: _ => c != '='
    | c :: _ => !carryOn.contains c && !t.isAny ["in", "instanceof"]
    | [] => true
where
  carryOn : List Char := "\x60,:;*%><=[(?^|&/.+-".toList

/-- Whether nothing that starts here can belong to the expression before. -/
def endsExpression (t : Token) : Bool :=
  t.isEnd || t.isAny [")", "]", "\x7d", ",", ";", ":"]

end Token

end ImportAtlas.Syntax
