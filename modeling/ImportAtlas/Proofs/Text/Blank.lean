import ImportAtlas.Text.Blank
import Mathlib

/-!
# Blanks at the ends of a text

A text is left as it is by trimming exactly if it neither starts nor ends with a blank. What stands
in front of a text keeps the blanks behind it from being leading ones.
-/

namespace ImportAtlas.Text

variable {p : Char → Bool} {s : List Char}

def startsBlank (s : String) : Bool := s.toList.head?.any isBlank

def endsBlank (s : String) : Bool := s.toList.getLast?.any isBlank

theorem dropWhile_eq_self_iff : s.dropWhile p = s ↔ s.head?.any p = false := by
  cases s with
  | nil => simp
  | cons c cs => simp [List.dropWhile_eq_self_iff]

theorem rdropWhile_eq_self_iff : s.rdropWhile p = s ↔ s.getLast?.any p = false := by
  rw [List.rdropWhile, List.reverse_eq_iff, dropWhile_eq_self_iff, List.head?_reverse]

theorem stripEnds_eq (p : Char → Bool) (s : List Char) :
    stripEnds p s = (s.dropWhile p).rdropWhile p := rfl

theorem stripEnds_eq_self_iff :
    stripEnds p s = s ↔ s.head?.any p = false ∧ s.getLast?.any p = false := by
  rw [stripEnds_eq, ← dropWhile_eq_self_iff, ← rdropWhile_eq_self_iff]
  constructor
  · intro h
    have hfront : s.dropWhile p = s := by
      refine (List.dropWhile_sublist p).eq_of_length_le ?_
      calc s.length = ((s.dropWhile p).rdropWhile p).length := by rw [h]
        _ ≤ (s.dropWhile p).length := (List.rdropWhile_prefix p _).length_le
    rw [hfront] at h
    exact ⟨hfront, h⟩
  · rintro ⟨hfront, hback⟩
    rw [hfront, hback]

theorem trim_eq_self_iff {s : String} :
    trim s = s ↔ startsBlank s = false ∧ endsBlank s = false := by
  rw [trim, ← String.toList_inj, String.toList_ofList, stripEnds_eq_self_iff, startsBlank,
    endsBlank]

theorem stripEnds_eq_nil_iff : stripEnds p s = [] ↔ ∀ c ∈ s, p c = true := by
  rw [stripEnds_eq, List.rdropWhile_eq_nil_iff]
  refine ⟨fun h c hc => ?_, fun h c hc => h c ((List.dropWhile_sublist p).subset hc)⟩
  rw [← List.takeWhile_append_dropWhile (p := p) (l := s), List.mem_append] at hc
  exact hc.elim List.mem_takeWhile_imp (h c)

theorem trim_eq_empty_iff {s : String} : trim s = "" ↔ isAllBlank s = true := by
  rw [trim, String.ofList_eq_empty_iff, stripEnds_eq_nil_iff, isAllBlank, List.all_eq_true]

theorem rdropWhile_cons_of_neg {c : Char} (hc : p c = false) (s : List Char) :
    (c :: s).rdropWhile p = c :: s.rdropWhile p := by
  induction s using List.reverseRecOn with
  | nil => simp [List.rdropWhile, hc]
  | append_singleton s d ih =>
      rw [← List.cons_append, List.rdropWhile_concat, List.rdropWhile_concat]
      split
      · exact ih
      · rfl

theorem stripEnds_cons_of_neg {c : Char} (hc : p c = false) (s : List Char) :
    stripEnds p (c :: s) = c :: s.rdropWhile p := by
  rw [stripEnds_eq, List.dropWhile_cons_of_neg (by simp [hc]), rdropWhile_cons_of_neg hc]

/-- What is cut off at the ends anyway makes no difference there. -/
theorem stripEnds_surround {c d : Char} (hc : p c = true) (hd : p d = true) (s : List Char) :
    stripEnds p (c :: (s ++ [d])) = stripEnds p s := by
  rw [stripEnds_eq, stripEnds_eq, List.dropWhile_cons_of_pos hc, List.dropWhile_append]
  split
  next hempty =>
    rw [List.isEmpty_iff] at hempty
    rw [hempty, List.dropWhile_cons_of_pos hd, List.dropWhile_nil]
  next => exact List.rdropWhile_concat_pos p _ d hd

theorem stripEnds_stripEnds (p : Char → Bool) (s : List Char) :
    stripEnds p (stripEnds p s) = stripEnds p s := by
  have hfront : (s.dropWhile p).head?.any p = false :=
    dropWhile_eq_self_iff.mp (List.dropWhile_idempotent p s)
  rw [stripEnds_eq_self_iff, stripEnds_eq]
  refine ⟨?_, rdropWhile_eq_self_iff.mp (List.rdropWhile_idempotent p _)⟩
  obtain ⟨back, hback⟩ := List.rdropWhile_prefix p (s.dropWhile p)
  cases hkept : (s.dropWhile p).rdropWhile p with
  | nil => rfl
  | cons c cs =>
      rw [← hback, hkept, List.cons_append] at hfront
      exact hfront

theorem exists_stripEnds (p : Char → Bool) (s : List Char) :
    ∃ front back, s = front ++ stripEnds p s ++ back ∧ (∀ c ∈ front, p c = true) ∧
      ∀ c ∈ back, p c = true := by
  refine ⟨s.takeWhile p, (s.dropWhile p).rtakeWhile p, ?_, fun c hc => List.mem_takeWhile_imp hc,
    fun c hc => List.mem_rtakeWhile_imp hc⟩
  rw [stripEnds_eq, List.append_assoc, List.rdropWhile_append_rtakeWhile,
    List.takeWhile_append_dropWhile]

end ImportAtlas.Text
