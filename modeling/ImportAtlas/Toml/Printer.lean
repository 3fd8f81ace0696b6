/-!
# Writing TOML

Strings are written in the plainest of the four forms that can hold them: in quotes if nothing has
to be escaped, else in apostrophes, else over several lines; only what none of these can hold is
escaped. Lists of two or more items take a line for each.
-/

namespace ImportAtlas.Toml

def longestRun (c : Char) : List Char → Nat
  | cs => go 0 0 cs
where
  go (best run : Nat) : List Char → Nat
    | [] => best
    | d :: ds => if d == c then go (max best (run + 1)) (run + 1) ds else go best 0 ds

/-- Control characters that only an escape can stand for. -/
def needsCode (c : Char) : Bool := (c.toNat < 32 && c != '\t' && c != '\n') || c == '\x7f'

inductive StringForm where
  | basic
  | literal
  | basicLines
  | literalLines
  deriving DecidableEq, Repr, Inhabited

def formOf (cs : List Char) : StringForm :=
  let codes := cs.any needsCode
  let backslash := cs.contains '\\'
  let newline := cs.contains '\n'
  let quotes := longestRun '"' cs
  let apostrophes := longestRun '\'' cs
  if !codes && !backslash && quotes == 0 && !newline then .basic
  else if !codes && apostrophes == 0 && !newline then .literal
  else if !codes && !backslash && quotes ≤ 2 then .basicLines
  else if !codes && apostrophes ≤ 2 then .literalLines
  else if newline then .basicLines
  else .basic

def hexDigit (n : Nat) : Char := (Nat.digitChar n).toUpper

/-- The characters of a string with escapes. In a run of quotes, `quotes` may stand unescaped. -/
def escapeString (overLines : Bool) (run : Nat) : List Char → List Char
  | [] => []
  | c :: cs =>
    if c == '"' then
      if run < (if overLines then 2 else 0) then c :: escapeString overLines (run + 1) cs
      else '\\' :: '"' :: escapeString overLines 0 cs
    else if c == '\\' then '\\' :: '\\' :: escapeString overLines 0 cs
    else if c == '\t' then '\\' :: 't' :: escapeString overLines 0 cs
    else if c == '\n' && overLines then '\n' :: escapeString overLines 0 cs
    else if c == '\n' then '\\' :: 'n' :: escapeString overLines 0 cs
    else if c == '\r' then '\\' :: 'r' :: escapeString overLines 0 cs
    else if c == '\u0008' then '\\' :: 'b' :: escapeString overLines 0 cs
    else if c == '\u000c' then '\\' :: 'f' :: escapeString overLines 0 cs
    else if needsCode c then
      '\\' :: 'u' :: '0' :: '0' :: hexDigit (c.toNat / 16) :: hexDigit (c.toNat % 16) ::
        escapeString overLines 0 cs
    else c :: escapeString overLines 0 cs

def renderStringAs (form : StringForm) (cs : List Char) : List Char :=
  let first := if cs.contains '\n' then ['\n'] else []
  match form with
  | .basic => '"' :: escapeString false 0 cs ++ ['"']
  | .literal => '\'' :: cs ++ ['\'']
  | .basicLines => ['"', '"', '"'] ++ first ++ escapeString true 0 cs ++ ['"', '"', '"']
  | .literalLines => ['\'', '\'', '\''] ++ first ++ cs ++ ['\'', '\'', '\'']

def renderString (s : String) : List Char := renderStringAs (formOf s.toList) s.toList

def renderBool (b : Bool) : List Char := if b then "true".toList else "false".toList

def renderNat (n : Nat) : List Char := (toString n).toList

/-- A list of strings: on one line if it has at most one item. -/
def renderStrings : List String → List Char
  | [] => ['[', ']']
  | [s] => '[' :: renderString s ++ [']']
  | ss => '[' :: (ss.flatMap fun s => "\n    ".toList ++ renderString s ++ [',']) ++ ['\n', ']']

/-- A line that gives a key its value. -/
def renderPair (key : String) (value : List Char) : List Char :=
  key.toList ++ " = ".toList ++ value ++ ['\n']

/-- The header of a table, after an empty line. -/
def renderHeader (key : String) : List Char := "\n[".toList ++ key.toList ++ "]\n".toList

end ImportAtlas.Toml
