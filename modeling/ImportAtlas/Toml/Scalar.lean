import ImportAtlas.Json.Reader
import ImportAtlas.Toml.Basic

/-!
# TOML scalars

Numbers, truth values and points in time. Each is written as one word.
-/

namespace ImportAtlas.Toml

open Json (isDigit hexValue?)

/-- Digits of a base, where an underscore may stand between two of them. -/
def readDigits? (base : Nat) : List Char → Option Nat
  | [] => none
  | c :: cs => do go (← digit? c) cs
where
  digit? (c : Char) : Option Nat := do
    let d ← hexValue? c
    if d < base then some d else none
  go (n : Nat) : List Char → Option Nat
    | [] => some n
    | '_' :: c :: cs => do go (n * base + (← digit? c)) cs
    | c :: cs => do go (n * base + (← digit? c)) cs

/-- Decimal digits that do not start with a zero unless they are just that. -/
def readDecimal? : List Char → Option Nat
  | ['0'] => some 0
  | '0' :: _ => none
  | cs => readDigits? 10 cs

/-- The value, if 64 bits with sign hold it. -/
def bounded? (n : Int) : Option Int :=
  if -0x8000000000000000 ≤ n && n < 0x8000000000000000 then some n else none

def readInteger? (cs : List Char) : Option Int :=
  match cs with
  | '0' :: 'x' :: ds => readDigits? 16 ds >>= fun n => bounded? n
  | '0' :: 'o' :: ds => readDigits? 8 ds >>= fun n => bounded? n
  | '0' :: 'b' :: ds => readDigits? 2 ds >>= fun n => bounded? n
  | '+' :: ds => readDecimal? ds >>= fun n => bounded? n
  | '-' :: ds => readDecimal? ds >>= fun n => bounded? (-(n : Int))
  | ds => readDecimal? ds >>= fun n => bounded? n

def dropSign : List Char → List Char
  | '+' :: cs => cs
  | '-' :: cs => cs
  | cs => cs

def isFloat (cs : List Char) : Bool :=
  let cs := dropSign cs
  if cs == "inf".toList || cs == "nan".toList then true
  else
    let mantissa := cs.takeWhile fun c => c != 'e' && c != 'E'
    let whole := mantissa.takeWhile (· != '.')
    let fractionOk :=
      match mantissa.dropWhile (· != '.') with
      | [] => true
      | _ :: ds => (readDigits? 10 ds).isSome
    let exponentOk :=
      match cs.dropWhile fun c => c != 'e' && c != 'E' with
      | [] => mantissa.contains '.'
      | _ :: ds => (readDigits? 10 (dropSign ds)).isSome
    (readDecimal? whole).isSome && fractionOk && exponentOk

def twoDigits? : List Char → Option Nat
  | [a, b] => if isDigit a && isDigit b then readDigits? 10 [a, b] else none
  | _ => none

def daysInMonth (year month : Nat) : Nat :=
  if month == 2 then
    if year % 4 == 0 && (year % 100 != 0 || year % 400 == 0) then 29 else 28
  else if month == 4 || month == 6 || month == 9 || month == 11 then 30
  else 31

def isDate : List Char → Bool
  | [a, b, c, d, '-', e, f, '-', g, h] =>
    match twoDigits? [a, b], twoDigits? [c, d], twoDigits? [e, f], twoDigits? [g, h] with
    | some y₁, some y₂, some month, some day =>
      1 ≤ month && month ≤ 12 && 1 ≤ day && day ≤ daysInMonth (y₁ * 100 + y₂) month
    | _, _, _, _ => false
  | _ => false

/-- A time of day, its seconds perhaps with a fraction. -/
def isTime : List Char → Bool
  | a :: b :: ':' :: c :: d :: ':' :: e :: f :: rest =>
    match twoDigits? [a, b], twoDigits? [c, d], twoDigits? [e, f] with
    | some h, some m, some s =>
      h < 24 && m < 60 && s ≤ 60 &&
        match rest with
        | [] => true
        | '.' :: ds => !ds.isEmpty && ds.all isDigit
        | _ => false
    | _, _, _ => false
  | _ => false

def isOffset : List Char → Bool
  | [z] => z == 'Z' || z == 'z'
  | [sign, a, b, ':', c, d] =>
    (sign == '+' || sign == '-') &&
      match twoDigits? [a, b], twoDigits? [c, d] with
      | some h, some m => h < 24 && m < 60
      | _, _ => false
  | _ => false

def isDatetime (cs : List Char) : Bool :=
  if isDate cs || isTime cs then true
  else
    isDate (cs.take 10) &&
      match cs.drop 10 with
      | sep :: rest =>
        let isOffsetStart := fun c => c == 'Z' || c == 'z' || c == '+' || c == '-'
        let offset := rest.dropWhile (!isOffsetStart ·)
        (sep == 'T' || sep == 't' || sep == ' ') && isTime (rest.takeWhile (!isOffsetStart ·)) &&
          (offset.isEmpty || isOffset offset)
      | [] => false

def ofWord? (cs : List Char) : Option Toml :=
  if cs == "true".toList then some (bool true)
  else if cs == "false".toList then some (bool false)
  else
    match readInteger? cs with
    | some n => some (int n)
    | none =>
      if isFloat cs then some (float (String.ofList cs))
      else if isDatetime cs then some (datetime (String.ofList cs))
      else none

end ImportAtlas.Toml
