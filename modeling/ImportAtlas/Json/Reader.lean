import ImportAtlas.Json.Basic

/-!
# Reading JSON

Each step takes what it reads off the front of the text and returns the rest. Containers may be
nested 127 deep.
-/

namespace ImportAtlas.Json

def isSpace (c : Char) : Bool := c == ' ' || c == '\n' || c == '\t' || c == '\r'

def skipSpace (cs : List Char) : List Char := cs.dropWhile isSpace

def hexValue? (c : Char) : Option Nat :=
  if '0' ≤ c && c ≤ '9' then some (c.toNat - '0'.toNat)
  else if 'a' ≤ c && c ≤ 'f' then some (c.toNat - 'a'.toNat + 10)
  else if 'A' ≤ c && c ≤ 'F' then some (c.toNat - 'A'.toNat + 10)
  else none

def hex4? (a b c d : Char) : Option Nat := do
  return (((← hexValue? a) * 16 + (← hexValue? b)) * 16 + (← hexValue? c)) * 16 + (← hexValue? d)

def simpleEscape? (c : Char) : Option Char :=
  match c with
  | '"' => some '"'
  | '\\' => some '\\'
  | '/' => some '/'
  | 'b' => some '\u0008'
  | 'f' => some '\u000c'
  | 'n' => some '\n'
  | 'r' => some '\r'
  | 't' => some '\t'
  | _ => none

def isHighSurrogate (n : Nat) : Bool := 0xd800 ≤ n && n < 0xdc00

def isLowSurrogate (n : Nat) : Bool := 0xdc00 ≤ n && n < 0xe000

/-- The characters of a string after its opening quote, and what follows its closing quote. -/
def stringBody : List Char → Option (List Char × List Char)
  | [] => none
  | '"' :: rest => some ([], rest)
  | '\\' :: 'u' :: a :: b :: c :: d :: rest => do
    let high ← hex4? a b c d
    if isHighSurrogate high then
      match rest with
      | '\\' :: 'u' :: a' :: b' :: c' :: d' :: rest' => do
        let low ← hex4? a' b' c' d'
        if isLowSurrogate low then
          let (s, r) ← stringBody rest'
          return (Char.ofNat (0x10000 + (high - 0xd800) * 0x400 + (low - 0xdc00)) :: s, r)
        else none
      | _ => none
    else if isLowSurrogate high then none
    else
      let (s, r) ← stringBody rest
      return (Char.ofNat high :: s, r)
  | '\\' :: e :: rest => do
    let c ← simpleEscape? e
    let (s, r) ← stringBody rest
    return (c :: s, r)
  | c :: rest =>
    if c.toNat < 32 then none
    else do
      let (s, r) ← stringBody rest
      return (c :: s, r)

def readString? : List Char → Option (String × List Char)
  | '"' :: rest => do
    let (s, r) ← stringBody rest
    return (String.ofList s, r)
  | _ => none

def isDigit (c : Char) : Bool := '0' ≤ c && c ≤ '9'

def natOfDigits (ds : List Char) : Nat := ds.foldl (fun n d => n * 10 + (d.toNat - '0'.toNat)) 0

/-- The digits before the point: a single zero, or digits that do not start with one. -/
def wholeDigits? : List Char → Option (List Char × List Char)
  | '0' :: rest => if (rest.head?.map isDigit).getD false then none else some (['0'], rest)
  | cs =>
    let ds := cs.takeWhile isDigit
    if ds.isEmpty then none else some (ds, cs.dropWhile isDigit)

/-- The point and the digits behind it, if there is a point. -/
def fraction? : List Char → Option (List Char × List Char)
  | '.' :: rest =>
    let ds := rest.takeWhile isDigit
    if ds.isEmpty then none else some ('.' :: ds, rest.dropWhile isDigit)
  | cs => some ([], cs)

/-- The exponent, if there is one. -/
def exponent? : List Char → Option (List Char × List Char)
  | e :: rest =>
    if e == 'e' || e == 'E' then
      let (sign, rest) :=
        match rest with
        | '+' :: r => (['+'], r)
        | '-' :: r => (['-'], r)
        | r => ([], r)
      let ds := rest.takeWhile isDigit
      if ds.isEmpty then none else some (e :: sign ++ ds, rest.dropWhile isDigit)
    else some ([], e :: rest)
  | [] => some ([], [])

/-- The value of a number without point and exponent, when 64 bits hold it. -/
def integer? (negative : Bool) (n : Nat) : Option Int :=
  if negative then if n == 0 || n > 0x8000000000000000 then none else some (-(n : Int))
  else if n ≥ 0x10000000000000000 then none
  else some n

def readNumber? (cs : List Char) : Option (Json × List Char) := do
  let (negative, digits) :=
    match cs with
    | '-' :: r => (true, r)
    | r => (false, r)
  let (whole, rest) ← wholeDigits? digits
  let (fraction, rest) ← fraction? rest
  let (exponent, rest) ← exponent? rest
  let text := (if negative then ['-'] else []) ++ whole ++ fraction ++ exponent
  if fraction.isEmpty && exponent.isEmpty then
    match integer? negative (natOfDigits whole) with
    | some n => return (int n, rest)
    | none => return (real (String.ofList text), rest)
  else return (real (String.ofList text), rest)

variable (item : List Char → Option (Json × List Char))

/-- The items of an array after its opening bracket and a first look at what follows. -/
def readItems? : Nat → List Char → Option (List Json × List Char)
  | 0, _ => none
  | fuel + 1, cs => do
    let (j, rest) ← item (skipSpace cs)
    match skipSpace rest with
    | ',' :: rest => do
      let (js, rest) ← readItems? fuel rest
      return (j :: js, rest)
    | ']' :: rest => return ([j], rest)
    | _ => none

def readMember? (cs : List Char) : Option ((String × Json) × List Char) := do
  let (name, rest) ← readString? (skipSpace cs)
  match skipSpace rest with
  | ':' :: rest => do
    let (j, rest) ← item (skipSpace rest)
    return ((name, j), rest)
  | _ => none

def readMembers? : Nat → List Char → Option (List (String × Json) × List Char)
  | 0, _ => none
  | fuel + 1, cs => do
    let (m, rest) ← readMember? item cs
    match skipSpace rest with
    | ',' :: rest => do
      let (ms, rest) ← readMembers? fuel rest
      return (m :: ms, rest)
    | '}' :: rest => return ([m], rest)
    | _ => none

/-- A value that starts at the first character. The first argument bounds the nesting. -/
def readValue? : Nat → List Char → Option (Json × List Char)
  | depth, cs =>
    match cs with
    | '"' :: _ => do
      let (s, rest) ← readString? cs
      return (str s, rest)
    | '[' :: rest =>
      match depth with
      | 0 => none
      | depth + 1 =>
        match skipSpace rest with
        | ']' :: rest => some (arr [], rest)
        | rest =>
          (readItems? (readValue? depth) (rest.length + 1) rest).map fun (js, r) => (arr js, r)
    | '{' :: rest =>
      match depth with
      | 0 => none
      | depth + 1 =>
        match skipSpace rest with
        | '}' :: rest => some (obj [], rest)
        | rest =>
          (readMembers? (readValue? depth) (rest.length + 1) rest).map fun (ms, r) => (obj ms, r)
    | 't' :: 'r' :: 'u' :: 'e' :: rest => some (bool true, rest)
    | 'f' :: 'a' :: 'l' :: 's' :: 'e' :: rest => some (bool false, rest)
    | 'n' :: 'u' :: 'l' :: 'l' :: rest => some (null, rest)
    | _ => readNumber? cs

variable {c : Char} {cs rest : List Char}

/-- An array that holds something is read item by item. -/
theorem readValue?_arr (limit : Nat) (hcs : skipSpace cs = c :: rest) (hc : c ≠ ']') :
    readValue? (limit + 1) ('[' :: cs) =
      (readItems? (readValue? limit) ((c :: rest).length + 1) (c :: rest)).map
        fun (js, r) => (arr js, r) := by
  rw [readValue?, hcs]
  split
  next hsplit => exact absurd (List.cons.inj hsplit).1 hc
  next => rfl

theorem readValue?_obj (limit : Nat) (hcs : skipSpace cs = c :: rest) (hc : c ≠ '}') :
    readValue? (limit + 1) ('{' :: cs) =
      (readMembers? (readValue? limit) ((c :: rest).length + 1) (c :: rest)).map
        fun (ms, r) => (obj ms, r) := by
  rw [readValue?, hcs]
  split
  next hsplit => exact absurd (List.cons.inj hsplit).1 hc
  next => rfl

def maxDepth : Nat := 127

/-- The value that a text holds. -/
def parse? (s : String) : Option Json := do
  let (j, rest) ← readValue? maxDepth (skipSpace s.toList)
  if (skipSpace rest).isEmpty then return j else none

end ImportAtlas.Json
