import ImportAtlas.Proofs.Text.Blank
import ImportAtlas.Proofs.Text.Fields
import ImportAtlas.Text.Lines

/-!
# Lines and filled cells

Lines that are closed one after another are found again at the line feeds. A cell that is filled up
with spaces is found again by taking them away, unless it ends in a space itself.
-/

namespace ImportAtlas.Text

def isLineFeed (c : Char) : Bool := c == '\n'

/-- The lines of a text. The last one may do without a line feed. -/
def lines (text : String) : List String :=
  if (fields isLineFeed text).getLast? = some "" then (fields isLineFeed text).dropLast
  else fields isLineFeed text

theorem unlines_cons (l : String) (ls : List String) :
    unlines (l :: ls) = l ++ String.singleton '\n' ++ unlines ls := by
  apply String.toList_injective
  simp [unlines]

theorem fields_unlines {ls : List String} (hls : ∀ l ∈ ls, '\n' ∉ l.toList) :
    fields isLineFeed (unlines ls) = ls ++ [""] := by
  induction ls with
  | nil => rfl
  | cons l ls ih =>
      obtain ⟨hl, hls⟩ := List.forall_mem_cons.mp hls
      have hplain : ∀ c ∈ l.toList, isLineFeed c = false := by
        intro c hc
        apply beq_eq_false_iff_ne.mpr
        rintro rfl
        exact hl hc
      rw [unlines_cons, fields_append_sep l rfl, fields_of_plain hplain, ih hls]
      rfl

theorem lines_unlines {ls : List String} (hls : ∀ l ∈ ls, '\n' ∉ l.toList) :
    lines (unlines ls) = ls := by
  simp [lines, fields_unlines hls]

theorem lineFeed_notMem_toDigits (n : Nat) : '\n' ∉ Nat.toDigits 10 n := by
  intro hmem
  exact absurd (Nat.isDigit_of_mem_toDigits (by decide) (by decide) hmem) (by decide)

/-! ## Filling up -/

/-- Spaces alone. -/
def gap (n : Nat) : String := String.ofList (List.replicate n ' ')

theorem gap_add (m n : Nat) : gap (m + n) = gap m ++ gap n := by
  rw [gap, List.replicate_add, String.ofList_append]
  rfl

theorem padRight_eq (width : Nat) (s : String) : padRight width s = s ++ gap (width - s.length) :=
  rfl

/-- Spaces behind a filled cell fill it up to a larger width. -/
theorem padRight_append_gap {width : Nat} {s : String} (h : s.length ≤ width) (n : Nat) :
    padRight width s ++ gap n = s ++ gap (width + n - s.length) := by
  have hsum : width + n - s.length = (width - s.length) + n := by omega
  rw [padRight_eq, hsum, gap_add, String.append_assoc]

theorem length_append_gap {width : Nat} {s : String} (h : s.length ≤ width) :
    (s ++ gap (width - s.length)).length = width := by
  rw [gap, String.length_append, String.length_ofList, List.length_replicate]
  omega

theorem mem_padRight {width : Nat} {s : String} {c : Char} (hc : c ∈ (padRight width s).toList) :
    c ∈ s.toList ∨ c = ' ' := by
  rw [padRight_eq, String.toList_append, List.mem_append, gap, String.toList_ofList] at hc
  exact hc.imp_right List.eq_of_mem_replicate

theorem length_le_columnWidth {cells : List String} {cell : String} (h : cell ∈ cells) :
    cell.length ≤ columnWidth cells := by
  rw [columnWidth, List.foldl_eq_foldr]
  exact List.le_max_of_le (List.mem_map_of_mem h) le_rfl

/-- The text without the spaces at its end. -/
def trimSpaces (s : String) : String := String.ofList (s.toList.rdropWhile (· == ' '))

theorem trimSpaces_eq_self {s : String} (h : s.toList.getLast? ≠ some ' ') : trimSpaces s = s := by
  have hkept : s.toList.rdropWhile (· == ' ') = s.toList := by
    apply rdropWhile_eq_self_iff.mpr
    cases hlast : s.toList.getLast? with
    | none => rfl
    | some c =>
        apply beq_eq_false_iff_ne.mpr
        rintro rfl
        exact h hlast
  rw [trimSpaces, hkept, String.ofList_toList]

theorem trimSpaces_append_gap (s : String) (n : Nat) : trimSpaces (s ++ gap n) = trimSpaces s := by
  have hspaces : ∀ c ∈ (List.replicate n ' ').reverse, (c == ' ') = true := by
    intro c hc
    exact beq_iff_eq.mpr (List.eq_of_mem_replicate (List.mem_reverse.mp hc))
  rw [trimSpaces, trimSpaces, String.toList_append, gap, String.toList_ofList, List.rdropWhile,
    List.reverse_append, List.dropWhile_append_of_pos hspaces]
  rfl

/-! ## Slices -/

/-- The characters of a text from one offset up to another. -/
def slice (start stop : Nat) (s : String) : String :=
  String.ofList ((s.toList.take stop).drop start)

theorem slice_append (front piece back : String) :
    slice front.length (front.length + piece.length) (front ++ piece ++ back) = piece := by
  have htake : (front ++ piece ++ back).toList.take (front.length + piece.length) =
      (front ++ piece).toList := by
    rw [String.toList_append (s := front ++ piece)]
    exact List.take_left' (String.length_toList.trans (String.length_append front piece))
  apply String.toList_injective
  rw [slice, String.toList_ofList, htake, String.toList_append]
  exact List.drop_left' String.length_toList

end ImportAtlas.Text
