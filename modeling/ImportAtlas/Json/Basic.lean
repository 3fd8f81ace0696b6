/-!
# JSON values

Objects keep their members in the order written. A number that is no integer of 64 bits keeps its
text, since no value of this program is a fraction.
-/

namespace ImportAtlas

inductive Json where
  | null
  | bool (b : Bool)
  | int (n : Int)
  | real (text : String)
  | str (s : String)
  | arr (items : List Json)
  | obj (members : List (String × Json))
  deriving Repr, Inhabited

namespace Json

/-- The member of that name; of two, the later one. -/
def get? (name : String) : Json → Option Json
  | obj members => (members.reverse.find? (·.1 == name)).map (·.2)
  | _ => none

def nat (n : Nat) : Json := int n

def ofOption {α : Type} (f : α → Json) : Option α → Json
  | none => null
  | some a => f a

def strings (ss : List String) : Json := arr (ss.map str)

end Json

end ImportAtlas
