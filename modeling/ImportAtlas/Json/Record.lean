import ImportAtlas.Json.Basic

/-!
# Records in JSON

A record is written as an object, or as an array of its fields in the order of their declaration.
Members that no field asks for are ignored.
-/

namespace ImportAtlas.Json

/-- A look at the fields of a record by position and name. -/
structure Record where
  get? : Nat → String → Option Json
  /-- Whether the fields have names, so that an optional one may be left out. -/
  named : Bool

def record? (size : Nat) : Json → Option Record
  | obj members => some ⟨fun _ name => (obj members).get? name, true⟩
  | arr items => if items.length ≤ size then some ⟨fun i _ => items[i]?, false⟩ else none
  | _ => none

def asString? : Json → Option String
  | str s => some s
  | _ => none

def asBool? : Json → Option Bool
  | bool b => some b
  | _ => none

/-- Counts are numbers of 64 bits. -/
def countBound : Nat := 0x10000000000000000

def asNat? (bound : Nat) : Json → Option Nat
  | int n => if 0 ≤ n && n.toNat < bound then some n.toNat else none
  | _ => none

def asList? {α : Type} (item : Json → Option α) : Json → Option (List α)
  | arr items => items.mapM item
  | _ => none

def asOption? {α : Type} (value : Json → Option α) : Json → Option (Option α)
  | null => some none
  | j => (value j).map some

/-- A name out of a fixed set: its text, or an object with that single member and no value. -/
def asName? {α : Type} (ofName? : String → Option α) : Json → Option α
  | str s => ofName? s
  | obj [(name, null)] => ofName? name
  | _ => none

namespace Record

variable {α : Type} (r : Record) (i : Nat) (name : String) (value : Json → Option α)

def required : Option α := r.get? i name >>= value

/-- An optional field is absent when it is null or, in an object, left out. -/
def optional : Option (Option α) :=
  match r.get? i name with
  | some j => asOption? value j
  | none => if r.named then some none else none

def withDefault (default : α) : Option α :=
  match r.get? i name with
  | some j => value j
  | none => some default

end Record

end ImportAtlas.Json
