import ImportAtlas.Toml.Scalar

/-!
# Reading TOML

A document is read line by line. Each step takes what it reads off the front of the text and
returns the rest. Values may be nested 80 deep.
-/

namespace ImportAtlas.Toml

open Json (isDigit hexValue?)

def isSpace (c : Char) : Bool := c == ' ' || c == '\t'

def skipSpace (cs : List Char) : List Char := cs.dropWhile isSpace

/-- Control characters other than the tab stand nowhere as themselves. -/
def isControl (c : Char) : Bool := (c.toNat < 32 && c != '\t') || c == '\x7f'

def skipComment : List Char → List Char
  | '#' :: cs => cs.dropWhile (!isControl ·)
  | cs => cs

def newline? : List Char → Option (List Char)
  | '\n' :: cs => some cs
  | '\r' :: '\n' :: cs => some cs
  | _ => none

def lineEnd? (cs : List Char) : Option (List Char) :=
  match skipComment (skipSpace cs) with
  | [] => some []
  | cs => newline? cs

/-- The rest behind blanks, comments and line ends. The first argument bounds the lines. -/
def skipLines : Nat → List Char → List Char
  | 0, cs => cs
  | fuel + 1, cs =>
    match newline? (skipComment (skipSpace cs)) with
    | some rest => skipLines fuel rest
    | none => skipComment (skipSpace cs)

/-- The number written by some hexadecimal digits, as a character. -/
def charOfHex? (digits : List Char) : Option Char := do
  let n ← digits.foldlM (fun n d => do return n * 16 + (← hexValue? d)) 0
  if n.isValidChar then some (Char.ofNat n) else none

def escape? : List Char → Option (Char × List Char)
  | 'b' :: cs => some ('\u0008', cs)
  | 't' :: cs => some ('\t', cs)
  | 'n' :: cs => some ('\n', cs)
  | 'f' :: cs => some ('\u000c', cs)
  | 'r' :: cs => some ('\r', cs)
  | '"' :: cs => some ('"', cs)
  | '\\' :: cs => some ('\\', cs)
  | 'u' :: cs =>
    if cs.length < 4 then none else (charOfHex? (cs.take 4)).map (·, cs.drop 4)
  | 'U' :: cs =>
    if cs.length < 8 then none else (charOfHex? (cs.take 8)).map (·, cs.drop 8)
  | _ => none

/-- The characters of a string in quotes, with escapes. The first argument bounds their number. -/
def basicBody : Nat → List Char → Option (List Char × List Char)
  | 0, _ => none
  | fuel + 1, cs =>
    match cs with
    | [] => none
    | '"' :: rest => some ([], rest)
    | '\\' :: rest => do
      let (c, rest) ← escape? rest
      let (s, rest) ← basicBody fuel rest
      return (c :: s, rest)
    | c :: rest =>
      if isControl c then none
      else do
        let (s, rest) ← basicBody fuel rest
        return (c :: s, rest)

/-- The characters of a string in apostrophes, which are all meant as they stand. -/
def literalBody : List Char → Option (List Char × List Char)
  | [] => none
  | '\'' :: rest => some ([], rest)
  | c :: rest => if isControl c then none else (literalBody rest).map fun (s, r) => (c :: s, r)

/-- A line end right behind the opening of a string of several lines does not belong to it. -/
def dropFirstNewline (cs : List Char) : List Char := (newline? cs).getD cs

/-- The rest behind an escaped line end and the blanks that follow, if only blanks stand before
it. -/
def continuation? (cs : List Char) : Option (List Char) :=
  (newline? (skipSpace cs)).map fun rest =>
    rest.dropWhile fun c => c == ' ' || c == '\t' || c == '\n' || c == '\r'

/-- The quotes that close a string of several lines, with up to two more before them. -/
def closing? (quote : Char) (cs : List Char) : Option (List Char × List Char) :=
  let run := (cs.takeWhile (· == quote)).length
  if run < 3 then none
  else
    let extra := min (run - 3) 2
    some (List.replicate extra quote, cs.drop (3 + extra))

def linesBody (quote : Char) (hasEscapes : Bool) : Nat → List Char → Option (List Char × List Char)
  | 0, _ => none
  | fuel + 1, cs =>
    match closing? quote cs with
    | some r => some r
    | none =>
      match cs with
      | [] => none
      | c :: rest =>
        if c == '\\' && hasEscapes then
          match continuation? rest with
          | some rest => linesBody quote hasEscapes fuel rest
          | none => do
            let (c, rest) ← escape? rest
            let (s, rest) ← linesBody quote hasEscapes fuel rest
            return (c :: s, rest)
        else
          match newline? cs with
          | some rest => do
            let (s, rest) ← linesBody quote hasEscapes fuel rest
            return ('\n' :: s, rest)
          | none =>
            if isControl c then none
            else do
              let (s, rest) ← linesBody quote hasEscapes fuel rest
              return (c :: s, rest)

/-- A string in any of its four forms. -/
def readString? (cs : List Char) : Option (String × List Char) :=
  (match cs with
  | '"' :: '"' :: '"' :: rest => linesBody '"' true (rest.length + 1) (dropFirstNewline rest)
  | '\'' :: '\'' :: '\'' :: rest => linesBody '\'' false (rest.length + 1) (dropFirstNewline rest)
  | '"' :: rest => basicBody (rest.length + 1) rest
  | '\'' :: rest => literalBody rest
  | _ => none).map fun (s, rest) => (String.ofList s, rest)

def isKeyChar (c : Char) : Bool := c.isAlphanum || c == '_' || c == '-'

def readKey? (cs : List Char) : Option (String × List Char) :=
  match cs with
  | '"' :: rest => (basicBody (rest.length + 1) rest).map fun (s, r) => (String.ofList s, r)
  | '\'' :: rest => (literalBody rest).map fun (s, r) => (String.ofList s, r)
  | _ =>
    let key := cs.takeWhile isKeyChar
    if key.isEmpty then none else some (String.ofList key, cs.dropWhile isKeyChar)

/-- A key of one or more parts with dots between them. The first argument bounds the parts. -/
def readKeys? : Nat → List Char → Option (List String × List Char)
  | 0, _ => none
  | fuel + 1, cs => do
    let (key, rest) ← readKey? (skipSpace cs)
    match skipSpace rest with
    | '.' :: rest => do
      let (keys, rest) ← readKeys? fuel rest
      return (key :: keys, rest)
    | rest => return ([key], rest)

def isWordChar (c : Char) : Bool :=
  c.isAlphanum || c == '_' || c == '-' || c == '+' || c == '.' || c == ':'

/-- A word, or a date and a time with a space between them. -/
def takeWord (cs : List Char) : List Char × List Char :=
  let word := cs.takeWhile isWordChar
  let rest := cs.dropWhile isWordChar
  match rest with
  | ' ' :: d :: more =>
    if isDate word && isDigit d then
      (word ++ ' ' :: (d :: more).takeWhile isWordChar, (d :: more).dropWhile isWordChar)
    else (word, rest)
  | _ => (word, rest)

variable (value : List Char → Option (Toml × List Char))

/-- The items of an array behind its bracket. A comma may close the list. -/
def readItems? : Nat → List Char → Option (List Toml × List Char)
  | 0, _ => none
  | fuel + 1, cs =>
    match skipLines (cs.length + 1) cs with
    | ']' :: rest => some ([], rest)
    | cs => do
      let (t, rest) ← value cs
      match skipLines (rest.length + 1) rest with
      | ',' :: rest => do
        let (ts, rest) ← readItems? fuel rest
        return (t :: ts, rest)
      | ']' :: rest => return ([t], rest)
      | _ => none

/-- A key, perhaps dotted, with its value. -/
def readPair? (cs : List Char) : Option ((List String × Toml) × List Char) := do
  let (keys, rest) ← readKeys? (cs.length + 1) cs
  match rest with
  | '=' :: rest => do
    let (t, rest) ← value (skipSpace rest)
    return ((keys, t), rest)
  | _ => none

/-- The pairs of an inline table behind its brace. No comma closes the list. -/
def readPairs? : Nat → List Char → Option (List (List String × Toml) × List Char)
  | 0, _ => none
  | fuel + 1, cs => do
    let (pair, rest) ← readPair? value cs
    match skipSpace rest with
    | ',' :: rest => do
      let (pairs, rest) ← readPairs? fuel rest
      return (pair :: pairs, rest)
    | '}' :: rest => return ([pair], rest)
    | _ => none

/-- The table that pairs of keys and values make up. -/
def insertPair? (t : Toml) : List String × Toml → Option Toml
  | (keys, value) => do
    let key ← keys.getLast?
    t.insert keys.dropLast key value

def inlineOf? (pairs : List (List String × Toml)) : Option Toml := do
  match ← pairs.foldlM insertPair? (table false false []) with
  | table _ _ members => return inline members
  | _ => none

/-- A value that starts at the first character. The first argument bounds the nesting. -/
def readValue? : Nat → List Char → Option (Toml × List Char)
  | depth, cs =>
    match cs with
    | '"' :: _ => (readString? cs).map fun (s, rest) => (str s, rest)
    | '\'' :: _ => (readString? cs).map fun (s, rest) => (str s, rest)
    | '[' :: rest =>
      match depth with
      | 0 => none
      | depth + 1 =>
        (readItems? (readValue? depth) (rest.length + 1) rest).map fun (ts, r) => (array ts, r)
    | '{' :: rest =>
      match depth with
      | 0 => none
      | depth + 1 =>
        match skipSpace rest with
        | '}' :: rest => some (inline [], rest)
        | _ => do
          let (pairs, rest) ← readPairs? (readValue? depth) (rest.length + 1) rest
          return (← inlineOf? pairs, rest)
    | _ => do
      let (word, rest) := takeWord cs
      return (← ofWord? word, rest)

def maxDepth : Nat := 80

/-- A document being read: its tables so far, and the path of the one that is open. -/
structure Document where
  root : Toml
  path : List String

def readHeader? (d : Document) (isArray : Bool) (cs : List Char) :
    Option (Document × List Char) := do
  let (keys, rest) ← readKeys? (cs.length + 1) cs
  let key ← keys.getLast?
  let (root, rest) ←
    match isArray, rest with
    | false, ']' :: rest => do pure (← d.root.openTable keys.dropLast key, rest)
    | true, ']' :: ']' :: rest => do pure (← d.root.openTables keys.dropLast key, rest)
    | _, _ => none
  return (⟨root, keys⟩, ← lineEnd? rest)

/-- One header or one key with its value, to the end of the line. -/
def readLine? (d : Document) (cs : List Char) : Option (Document × List Char) :=
  match cs with
  | '[' :: '[' :: rest => readHeader? d true rest
  | '[' :: rest => readHeader? d false rest
  | _ => do
    let (pair, rest) ← readPair? (readValue? maxDepth) cs
    let root ← d.root.alterAt false (insertPair? · pair) d.path
    return (⟨root, d.path⟩, ← lineEnd? rest)

def readDocument? : Nat → Document → List Char → Option Toml
  | 0, _, _ => none
  | fuel + 1, d, cs =>
    match skipLines (cs.length + 1) cs with
    | [] => some d.root
    | cs => do
      let (d, rest) ← readLine? d cs
      readDocument? fuel d rest

/-- The document that a text holds. A byte order mark may stand before it. -/
def parse? (s : String) : Option Toml :=
  let cs :=
    match s.toList with
    | '\ufeff' :: cs => cs
    | cs => cs
  readDocument? (cs.length + 1) ⟨table false false [], []⟩ cs

end ImportAtlas.Toml
