/-!
# Blank characters

Which characters count as white space, and the text without those at its ends.
-/

namespace ImportAtlas.Text

/-- The `White_Space` property of Unicode. -/
def isBlank (c : Char) : Bool :=
  ('\t' ≤ c && c ≤ '\r') || c == ' ' || c == '\u0085' || c == '\u00a0' || c == '\u1680' ||
    ('\u2000' ≤ c && c ≤ '\u200a') || c == '\u2028' || c == '\u2029' || c == '\u202f' ||
    c == '\u205f' || c == '\u3000'

def stripEnds (p : Char → Bool) (s : List Char) : List Char :=
  ((s.dropWhile p).reverse.dropWhile p).reverse

def trim (s : String) : String := String.ofList (stripEnds isBlank s.toList)

def isAllBlank (s : String) : Bool := s.toList.all isBlank

theorem stripEnds_sublist (p : Char → Bool) (s : List Char) : (stripEnds p s).Sublist s := by
  have hinner := (List.dropWhile_sublist p (l := (s.dropWhile p).reverse)).reverse
  rw [List.reverse_reverse] at hinner
  exact hinner.trans (List.dropWhile_sublist p)

end ImportAtlas.Text
