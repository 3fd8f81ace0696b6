/-!
# Fields of a text

Cutting a text at every separator, putting the pieces together again, and the parts of a text
before and after its last separator.
-/

namespace ImportAtlas.Text

/-- The pieces between separators. There is one more piece than there are separators. -/
def splitBy (p : Char → Bool) : List Char → List (List Char)
  | [] => [[]]
  | c :: cs =>
    if p c then [] :: splitBy p cs
    else
      match splitBy p cs with
      | [] => [[c]]
      | f :: fs => (c :: f) :: fs

/-- The pieces with one separator between each two. -/
def joinBy (sep : Char) : List (List Char) → List Char
  | [] => []
  | [f] => f
  | f :: fs => f ++ sep :: joinBy sep fs

/-- What follows the last separator, the whole text if there is none. -/
def afterLast (p : Char → Bool) (s : List Char) : List Char :=
  (s.reverse.takeWhile (!p ·)).reverse

/-- What precedes the last separator, if there is one. -/
def beforeLast? (p : Char → Bool) (s : List Char) : Option (List Char) :=
  match s.reverse.dropWhile (!p ·) with
  | [] => none
  | _ :: r => some r.reverse

def fields (p : Char → Bool) (s : String) : List String :=
  (splitBy p s.toList).map String.ofList

def joinFields (sep : Char) (fs : List String) : String :=
  String.ofList (joinBy sep (fs.map String.toList))

/-- The text with every character that satisfies `p` replaced. -/
def replaceChar (p : Char → Bool) (new : Char) (s : String) : String :=
  String.ofList (s.toList.map fun c => if p c then new else c)

theorem splitBy_ne_nil (p : Char → Bool) (s : List Char) : splitBy p s ≠ [] := by
  cases s with
  | nil => simp [splitBy]
  | cons c cs =>
    simp only [splitBy]
    split
    · simp
    · split <;> simp

end ImportAtlas.Text
