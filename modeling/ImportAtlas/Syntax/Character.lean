import ImportAtlas.Text.Blank

/-!
# Characters of a source text

Which characters stand between tokens, end lines and make up words, and how long a number, a string
or a regular expression is. Every length is that of the token at the front of the text.
-/

namespace ImportAtlas.Syntax

open Text

/-- Characters that only keep tokens apart. -/
def isGap (c : Char) : Bool :=
  (isBlank c && c != '\u0085') || c == '\ufeff' || c == '\u2060' || c == '\u200b'

/-- Characters that end a line comment, and a statement that could end before them. -/
def isLineEnd (c : Char) : Bool := c == '\n' || c == '\u2028' || c == '\u2029'

def isDigit (c : Char) : Bool := '0' ≤ c && c ≤ '9'

def isHexDigit (c : Char) : Bool := isDigit c || ('a' ≤ c && c ≤ 'f') || ('A' ≤ c && c ≤ 'F')

/-- Characters with a meaning of their own. -/
def reserved : List Char := ":;\x60\"'@#.,|^&<=>+-*/\\%?!~()[]\x7b\x7d".toList

/-- Whatever has no meaning of its own may be part of a word. -/
def isWordPart (c : Char) : Bool := c.toNat ≥ 32 && !isGap c && !reserved.contains c

def isWordStart (c : Char) : Bool := isWordPart c && !isDigit c

/-- The length of a word, in which a character may be written as an escape. -/
def wordLength (cs : List Char) : Nat := go 0 cs
where
  go (n : Nat) : List Char → Nat
    | '\\' :: 'u' :: '{' :: cs => inBraces (n + 3) cs
    | '\\' :: 'u' :: cs => go (n + 2) cs
    | c :: cs => if isWordPart c then go (n + 1) cs else n
    | [] => n
  inBraces (n : Nat) : List Char → Nat
    | '}' :: cs => go (n + 1) cs
    | c :: cs => if isHexDigit c then inBraces (n + 1) cs else n
    | [] => n

/-- The length of a run of digits, with underscores among them. -/
def digitsLength (isDigit : Char → Bool) (cs : List Char) : Nat :=
  (cs.takeWhile fun c => isDigit c || c == '_').length

/-- The length of the sign and digits that may follow the mark of an exponent. -/
def exponentLength : List Char → Nat
  | e :: s :: d :: cs =>
    if e != 'e' && e != 'E' then 0
    else if isDigit s then 1 + digitsLength isDigit (s :: d :: cs)
    else if (s == '+' || s == '-') && isDigit d then 2 + digitsLength isDigit (d :: cs)
    else 0
  | [e, d] => if (e == 'e' || e == 'E') && isDigit d then 2 else 0
  | _ => 0

def decimalLength (cs : List Char) : Nat :=
  let whole := digitsLength isDigit cs
  let rest := cs.drop whole
  let fraction :=
    match rest with
    | '.' :: ds => 1 + digitsLength isDigit ds
    | _ => 0
  match rest with
  | 'n' :: _ => whole + 1
  | _ => whole + fraction + exponentLength (rest.drop fraction)

def numberLength (cs : List Char) : Nat :=
  match cs with
  | '0' :: x :: ds =>
    if x == 'x' || x == 'X' || x == 'b' || x == 'B' || x == 'o' || x == 'O' then
      let n := 2 + digitsLength isHexDigit ds
      match cs.drop n with
      | 'n' :: _ => n + 1
      | _ => n
    else decimalLength cs
  | _ => decimalLength cs

/-- The length of a string behind its opening quote, up to and with the closing one. A backslash
takes the character behind it along, even the end of the line. -/
def stringLength? (quote : Char) (cs : List Char) : Option Nat := go 0 cs
where
  go (n : Nat) : List Char → Option Nat
    | '\\' :: '\r' :: '\n' :: cs => go (n + 3) cs
    | '\\' :: _ :: cs => go (n + 2) cs
    | c :: cs =>
      if c == quote then some (n + 1)
      else if c == '\n' || c == '\r' then none
      else go (n + 1) cs
    | [] => none

/-- The length of a regular expression behind its opening slash, flags included. Between brackets a
slash does not close it. -/
def regexLength? (cs : List Char) : Option Nat := go 0 false cs
where
  go (n : Nat) (inBrackets : Bool) : List Char → Option Nat
    | '\\' :: c :: cs => if c == '\n' then none else go (n + 2) inBrackets cs
    | c :: cs =>
      if c == '\n' then none
      else if c == '/' && !inBrackets then
        some (n + 1 + (cs.takeWhile fun c => 'a' ≤ c && c ≤ 'z').length)
      else go (n + 1) (c == '[' || (inBrackets && c != ']')) cs
    | [] => none

/-- How much of a template lies before the next substitution or the end. -/
def templateTextLength (cs : List Char) : Nat := go 0 cs
where
  go (n : Nat) : List Char → Nat
    | '\\' :: _ :: cs => go (n + 2) cs
    | '$' :: '{' :: _ => n
    | c :: cs => if c == '\x60' then n else go (n + 1) cs
    | [] => n

def blockCommentLength? (cs : List Char) : Option Nat := go 0 cs
where
  go (n : Nat) : List Char → Option Nat
    | '*' :: '/' :: _ => some (n + 2)
    | _ :: cs => go (n + 1) cs
    | [] => none

def lineLength (cs : List Char) : Nat := (cs.takeWhile (!isLineEnd ·)).length

/-- The punctuation marks, longer ones before those they start with. -/
def marks : List (List Char) :=
  (["...", "===", "!==", "**=", "<<=", "&&=", "||=", "??=", "=>", "==", "!=", "<=", "&&", "||",
    "??", "?.", "++", "--", "+=", "-=", "*=", "/=", "%=", "&=", "|=", "^=", "**", "<<"].map
      String.toList) ++
    (":;\x60@.,|^&<=>+-*/%?!~()[]\x7b\x7d".toList.map fun c => [c])

/-- The length of a punctuation mark, or zero. A question mark before a decimal fraction stands
alone. -/
def markLength (cs : List Char) : Nat :=
  match cs with
  | '?' :: '.' :: d :: _ => if isDigit d then 1 else longest cs
  | _ => longest cs
where
  longest (cs : List Char) : Nat :=
    ((marks.find? fun mark => mark.isPrefixOf cs).map List.length).getD 0

end ImportAtlas.Syntax
