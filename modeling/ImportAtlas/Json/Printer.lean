import ImportAtlas.Json.Basic

/-!
# Writing JSON

Compact text has no blanks at all. Laid out text puts each item and member on a line of its own,
two spaces deeper than its container; an empty container stays on one line.
-/

namespace ImportAtlas.Json

structure Layout where
  /-- Before an item at the given depth and before the closing bracket. -/
  lineBreak : Nat → List Char
  /-- Between the name of a member and its value. -/
  colon : List Char

namespace Layout

def compact : Layout where
  lineBreak _ := []
  colon := [':']

def pretty : Layout where
  lineBreak depth := '\n' :: List.replicate (2 * depth) ' '
  colon := [':', ' ']

def ofPretty (isPretty : Bool) : Layout := if isPretty then pretty else compact

end Layout

/-- The written form of one character of a string. Only quotes, backslashes and control characters
are escaped. -/
def escapeChar (c : Char) : List Char :=
  if c == '"' then ['\\', '"']
  else if c == '\\' then ['\\', '\\']
  else if c == '\n' then ['\\', 'n']
  else if c == '\r' then ['\\', 'r']
  else if c == '\t' then ['\\', 't']
  else if c == '\u0008' then ['\\', 'b']
  else if c == '\u000c' then ['\\', 'f']
  else if c.toNat < 32 then
    ['\\', 'u', '0', '0', Nat.digitChar (c.toNat / 16), Nat.digitChar (c.toNat % 16)]
  else [c]

def renderString (s : String) : List Char := '"' :: s.toList.flatMap escapeChar ++ ['"']

def renderInt (n : Int) : List Char :=
  if n < 0 then '-' :: (toString n.natAbs).toList else (toString n.natAbs).toList

variable (layout : Layout)

mutual

/-- The text of a value whose container is at the given depth. -/
def renderAt (depth : Nat) : Json → List Char
  | null => ['n', 'u', 'l', 'l']
  | bool true => ['t', 'r', 'u', 'e']
  | bool false => ['f', 'a', 'l', 's', 'e']
  | int n => renderInt n
  | real text => text.toList
  | str s => renderString s
  | arr [] => ['[', ']']
  | arr (j :: js) =>
    '[' :: layout.lineBreak (depth + 1) ++ renderAt (depth + 1) j ++ renderItems (depth + 1) js ++
      layout.lineBreak depth ++ [']']
  | obj [] => ['{', '}']
  | obj (m :: ms) =>
    '{' :: layout.lineBreak (depth + 1) ++ renderMember (depth + 1) m ++
      renderMembers (depth + 1) ms ++ layout.lineBreak depth ++ ['}']

def renderItems (depth : Nat) : List Json → List Char
  | [] => []
  | j :: js => ',' :: layout.lineBreak depth ++ renderAt depth j ++ renderItems depth js

def renderMember (depth : Nat) : String × Json → List Char
  | (name, value) => renderString name ++ layout.colon ++ renderAt depth value

def renderMembers (depth : Nat) : List (String × Json) → List Char
  | [] => []
  | m :: ms => ',' :: layout.lineBreak depth ++ renderMember depth m ++ renderMembers depth ms

end

def render (j : Json) : String := String.ofList (renderAt layout 0 j)

end ImportAtlas.Json
