import ImportAtlas.Json.Reader
import ImportAtlas.Text.Fields
import ImportAtlas.Text.Utf8

/-!
# Query strings

The fields of a query, decoded. A field that the receiver knows may be given once only; other fields
count for nothing.
-/

namespace ImportAtlas.Http

open Text

/-- The bytes behind a percent sign and a plus sign put back. A percent sign that two hexadecimal
digits do not follow stands for itself. -/
def decodeBytes : List Nat → List Nat
  | [] => []
  | 0x2b :: rest => 0x20 :: decodeBytes rest
  | 0x25 :: a :: b :: rest =>
    match Json.hexValue? (Char.ofNat a), Json.hexValue? (Char.ofNat b) with
    | some high, some low => (high * 16 + low) :: decodeBytes rest
    | _, _ => 0x25 :: decodeBytes (a :: b :: rest)
  | c :: rest => c :: decodeBytes rest

def decodeField (s : String) : String := decodeLossy (decodeBytes (bytesOf s))

/-- The names and values of a query. A piece without `=` is a name with an empty value. -/
def queryPairs (query : String) : List (String × String) :=
  ((fields (· == '&') query).filter (· != "")).map fun piece =>
    let cs := piece.toList
    (decodeField (String.ofList (cs.takeWhile (· != '='))),
      decodeField (String.ofList ((cs.dropWhile (· != '=')).drop 1)))

/-- The values of some fields, unless one of them is given twice; then its name. -/
def queryFields (names : List String) (query : String) :
    Except String (String → Option String) :=
  let pairs := queryPairs query
  match names.find? fun name => 1 < (pairs.filter (·.1 == name)).length with
  | some name => .error name
  | none => .ok fun name => (pairs.find? (·.1 == name)).map (·.2)

end ImportAtlas.Http
