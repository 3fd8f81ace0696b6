import ImportAtlas.Proofs.Path.WrittenForm

/-!
# Joined paths

The written form of a path stands for it wherever the path goes on from: a plain segment that is put
on a stack and taken away again leaves no trace, and a `..` that is left over waits at the front for
what is put before it. So paths can be written before or after they are joined.
-/

namespace ImportAtlas.Path

open Text Host

variable {stack segs : List String} {path top : String}

/-- Where a path leads from a stack of segments. -/
def follow (stack : List String) (path : String) : List String :=
  (fields isSeparator path).foldl push stack

theorem normalize_eq_follow (path : String) :
    normalize path = joinFields '/' (follow [] path).reverse := rfl

theorem follow_append (stack : List String) (path more : String) :
    follow stack (path ++ "/" ++ more) = follow (follow stack path) more := by
  rw [follow, show "/" = String.singleton '/' from rfl, fields_append_sep _ (by decide),
    List.foldl_append, follow, follow]

theorem normalize_congr {other : String} (h : follow [] path = follow [] other) :
    normalize path = normalize other := by
  rw [normalize_eq_follow, normalize_eq_follow, h]

/-! ## Folded segments -/

theorem IsStack.isSegment_top (h : IsStack (top :: stack)) (htop : top ≠ "..") :
    IsSegment top := by
  obtain ⟨plain, k, hstack, hplain⟩ := h
  have hmem : top ∈ plain ++ List.replicate k ".." := hstack ▸ List.mem_cons_self
  rcases List.mem_append.mp hmem with hmem | hmem
  · exact hplain top hmem
  · exact absurd (List.eq_of_mem_replicate hmem) htop

theorem push_parent_push (htop : IsSegment top) (stack : List String) :
    push (push stack top) ".." = stack := by
  rw [push_plain stack htop.ne_empty htop.ne_current htop.ne_parent,
    push_parent_cons htop.ne_parent]

/-- Folded segments do to any stack what the segments do. -/
theorem foldl_push_foldSegments (hslash : ∀ s ∈ segs, '/' ∉ s.toList) (stack : List String) :
    (foldSegments segs).foldl push stack = segs.foldl push stack := by
  induction segs using List.reverseRecOn with
  | nil => rfl
  | append_singleton init s ih =>
      obtain ⟨hinit, -⟩ := List.forall_mem_append.mp hslash
      have hfold : IsStack (init.foldl push []) := isStack_foldl ⟨[], 0, rfl, by simp⟩ hinit
      have hpush := pushes_push (init.foldl push []) s
      specialize ih hinit
      rw [foldSegments] at ih ⊢
      rw [List.foldl_concat, List.foldl_concat, ← ih]
      generalize init.foldl push [] = folded at hfold hpush ⊢
      generalize push folded s = folded' at hpush ⊢
      cases hpush with
      | skip hs => rcases hs with rfl | rfl <;> simp
      | escape => rw [List.reverse_cons, List.foldl_concat]
      | pop htop =>
          -- the segment that was taken away stood at the end, just before this `..`
          rw [List.reverse_cons, List.foldl_concat,
            push_parent_push (hfold.isSegment_top htop)]
      | plain => rw [List.reverse_cons, List.foldl_concat]

theorem follow_normalize (stack : List String) (path : String) :
    follow stack (normalize path) = follow stack path := by
  have hfold := foldl_push_foldSegments
    (fun s (hs : s ∈ fields isSeparator path) => no_slash_of_mem_fields hs) stack
  by_cases hnil : foldSegments (fields isSeparator path) = []
  · rw [hnil] at hfold
    rw [normalize, hnil, follow, follow, ← hfold]
    exact push_empty stack
  · have hplain : ∀ s ∈ foldSegments (fields isSeparator path),
        '/' ∉ s.toList ∧ '\\' ∉ s.toList := by
      intro s hs
      have hmem := mem_of_mem_foldSegments hs
      exact ⟨no_slash_of_mem_fields hmem, no_backslash_of_mem_fields hmem⟩
    rw [normalize, follow, fields_isSeparator_joinFields hnil hplain, hfold, follow]

/-! ## Written forms -/

/-- A path in written form: `..` segments, then plain ones without a separator of either kind. -/
def IsNormal (path : String) : Prop :=
  ∃ k names, path = joinFields '/' (List.replicate k ".." ++ names) ∧
    ∀ n ∈ names, IsSegment n ∧ '\\' ∉ n.toList

theorem isNormal_normalize (path : String) : IsNormal (normalize path) := by
  obtain ⟨k, names, hfold, hnames⟩ :=
    exists_foldSegments fun s (hs : s ∈ fields isSeparator path) => no_slash_of_mem_fields hs
  refine ⟨k, names, by rw [normalize, hfold], fun n hn => ⟨hnames n hn, ?_⟩⟩
  have hmem : n ∈ foldSegments (fields isSeparator path) :=
    hfold ▸ List.mem_append_right _ hn
  exact no_backslash_of_mem_fields (mem_of_mem_foldSegments hmem)

theorem IsNormal.normalize (h : IsNormal path) : normalize path = path := by
  obtain ⟨k, names, rfl, hnames⟩ := h
  by_cases hne : List.replicate k ".." ++ names = []
  · rw [hne]
    rfl
  · exact normalize_joinFields_parents k hne hnames

/-- The written form of a path is its own, and stands for the path in every joined path. -/
structure WritesOnce (path more : String) : Prop where
  isNormal : IsNormal (normalize path)
  again : normalize (normalize path) = normalize path
  joined : normalize (path ++ "/" ++ more) = normalize (normalize path ++ "/" ++ normalize more)
  /-- Nothing else is left as it is. -/
  eq_self_iff : normalize path = path ↔ IsNormal path
  /-- Paths have the same written form exactly if they lead to the same place from everywhere. -/
  eq_iff : normalize path = normalize more ↔ ∀ stack, follow stack path = follow stack more

theorem writesOnce (path more : String) : WritesOnce path more where
  isNormal := isNormal_normalize path
  again := normalize_congr (follow_normalize [] path)
  joined := by
    apply normalize_congr
    rw [follow_append, follow_append, follow_normalize, follow_normalize]
  eq_self_iff := by
    constructor
    · intro h
      exact h ▸ isNormal_normalize path
    · exact IsNormal.normalize
  eq_iff := by
    constructor
    · intro h stack
      rw [← follow_normalize stack path, h, follow_normalize]
    · intro h
      exact normalize_congr (h [])

end ImportAtlas.Path
