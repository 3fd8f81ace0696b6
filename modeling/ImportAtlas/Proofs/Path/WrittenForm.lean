import ImportAtlas.Proofs.Path

/-!
# Written forms

The stack of segments holds plain segments above the `..` segments that nothing precedes. A `..`
that is left over stays at the bottom, so as long as none is left over, the segments never look at
what lies under the stack they start from, and `..` segments take away as many as they are. A path
made of such segments alone is its own written form.
-/

namespace ImportAtlas.Path

open Text Host

variable {stack below segs names : List String} {path s t : String}

/-! ## One segment -/

/-- What one segment does to a stack. -/
inductive Pushes : List String → String → List String → Prop
  | skip {stack : List String} {s : String} (h : s = "" ∨ s = ".") : Pushes stack s stack
  | escape {stack : List String} (h : ∀ top ∈ stack.head?, top = "..") :
      Pushes stack ".." (".." :: stack)
  | pop {top : String} {stack : List String} (h : top ≠ "..") : Pushes (top :: stack) ".." stack
  | plain {stack : List String} {s : String} (h₀ : s ≠ "") (h₁ : s ≠ ".") (h₂ : s ≠ "..") :
      Pushes stack s (s :: stack)

theorem push_parent_cons {top : String} (h : top ≠ "..") (stack : List String) :
    push (top :: stack) ".." = stack := by simp [push, h]

theorem pushes_push (stack : List String) (s : String) : Pushes stack s (push stack s) := by
  by_cases hempty : s = ""
  · rw [hempty, push_empty]
    exact .skip (Or.inl rfl)
  by_cases hcurrent : s = "."
  · rw [hcurrent, push_dot]
    exact .skip (Or.inr rfl)
  by_cases hparent : s = ".."
  · subst hparent
    cases stack with
    | nil => exact .escape (by simp)
    | cons top rest =>
        by_cases htop : top = ".."
        · subst htop
          exact .escape (by simp)
        · rw [push_parent_cons htop]
          exact .pop htop
  · rw [push_plain stack hempty hcurrent hparent]
    exact .plain hempty hcurrent hparent

/-- Plain segments above the `..` segments that nothing precedes. -/
def IsStack (stack : List String) : Prop :=
  ∃ plain k, stack = plain ++ List.replicate k ".." ∧ ∀ s ∈ plain, IsSegment s

theorem isStack_push (h : IsStack stack) (hslash : '/' ∉ s.toList) : IsStack (push stack s) := by
  have hpush := pushes_push stack s
  generalize push stack s = stack' at hpush ⊢
  obtain ⟨plain, k, hstack, hplain⟩ := h
  cases hpush with
  | skip => exact ⟨plain, k, hstack, hplain⟩
  | escape htop =>
      cases plain with
      | nil => exact ⟨[], k + 1, congrArg (".." :: ·) hstack, by simp⟩
      | cons top rest =>
          -- a plain segment on top would have been taken away
          exact absurd (htop top (by simp [hstack])) (hplain top List.mem_cons_self).ne_parent
  | pop htop =>
      cases plain with
      | nil =>
          rw [List.nil_append] at hstack
          exact absurd (List.eq_of_mem_replicate (hstack ▸ List.mem_cons_self)) htop
      | cons top rest =>
          obtain ⟨-, hrest⟩ := List.cons.inj hstack
          exact ⟨rest, k, hrest, (List.forall_mem_cons.mp hplain).2⟩
  | plain h₀ h₁ h₂ =>
      exact ⟨s :: plain, k, congrArg (s :: ·) hstack,
        List.forall_mem_cons.mpr ⟨⟨h₀, h₁, h₂, hslash⟩, hplain⟩⟩

theorem mem_of_mem_push (h : t ∈ push stack s) : t = s ∨ t ∈ stack := by
  have hpush := pushes_push stack s
  generalize push stack s = stack' at h hpush
  cases hpush with
  | skip => exact Or.inr h
  | escape => exact List.mem_cons.mp h
  | pop => exact Or.inr (List.mem_cons_of_mem _ h)
  | plain => exact List.mem_cons.mp h

theorem mem_parent_push (h : ".." ∈ stack) (s : String) : ".." ∈ push stack s := by
  have hpush := pushes_push stack s
  generalize push stack s = stack' at hpush
  cases hpush with
  | skip => exact h
  | escape => exact List.mem_cons_self
  | pop htop => exact (List.mem_cons.mp h).resolve_left (Ne.symm htop)
  | plain => exact List.mem_cons_of_mem _ h

theorem push_append (h : ".." ∉ push stack s) (below : List String) :
    push (stack ++ below) s = push stack s ++ below := by
  have hpush := pushes_push stack s
  generalize push stack s = stack' at h hpush ⊢
  cases hpush with
  | skip hs => rcases hs with rfl | rfl <;> simp
  | escape => exact absurd List.mem_cons_self h
  | pop htop => exact push_parent_cons htop _
  | plain h₀ h₁ h₂ => exact push_plain _ h₀ h₁ h₂

/-! ## All segments -/

theorem isStack_foldl (h : IsStack stack) (hslash : ∀ s ∈ segs, '/' ∉ s.toList) :
    IsStack (segs.foldl push stack) := by
  induction segs generalizing stack with
  | nil => exact h
  | cons s rest ih =>
      obtain ⟨hs, hrest⟩ := List.forall_mem_cons.mp hslash
      exact ih (isStack_push h hs) hrest

theorem mem_of_mem_foldl (h : t ∈ segs.foldl push stack) : t ∈ segs ∨ t ∈ stack := by
  induction segs generalizing stack with
  | nil => exact Or.inr h
  | cons s rest ih =>
      rcases ih h with hrest | hpush
      · exact Or.inl (List.mem_cons_of_mem s hrest)
      · rcases mem_of_mem_push hpush with rfl | hstack
        · exact Or.inl List.mem_cons_self
        · exact Or.inr hstack

theorem mem_parent_foldl (h : ".." ∈ stack) (segs : List String) :
    ".." ∈ segs.foldl push stack := by
  induction segs generalizing stack with
  | nil => exact h
  | cons s rest ih => exact ih (mem_parent_push h s)

/-- What lies under a stack is not touched if no `..` is left over. -/
theorem foldl_push_append (h : ".." ∉ segs.foldl push stack) (below : List String) :
    segs.foldl push (stack ++ below) = segs.foldl push stack ++ below := by
  induction segs generalizing stack with
  | nil => rfl
  | cons s rest ih =>
      -- a `..` that is left over once is there to the end
      have hs : ".." ∉ push stack s := fun hmem => h (mem_parent_foldl hmem rest)
      rw [List.foldl_cons, push_append hs, ih h, List.foldl_cons]

theorem foldl_push_segments (hnames : ∀ n ∈ names, IsSegment n) (stack : List String) :
    names.foldl push stack = names.reverse ++ stack := by
  induction names generalizing stack with
  | nil => rfl
  | cons n rest ih =>
      obtain ⟨hn, hrest⟩ := List.forall_mem_cons.mp hnames
      rw [List.foldl_cons, push_plain _ hn.ne_empty hn.ne_current hn.ne_parent, ih hrest]
      simp

theorem foldl_push_parents (k j : Nat) :
    (List.replicate k "..").foldl push (List.replicate j "..") = List.replicate (k + j) ".." := by
  induction k generalizing j with
  | zero => simp
  | succ k ih =>
      have hpush : push (List.replicate j "..") ".." = List.replicate (j + 1) ".." := by
        cases j <;> rfl
      rw [List.replicate_succ, List.foldl_cons, hpush, ih]
      congr 1
      omega

/-- Segments that name no folder take away as many as there are `..` among them. -/
theorem foldl_push_dots (hdots : ∀ s ∈ segs, s = "" ∨ s = "." ∨ s = "..") (htop : ".." ∉ names)
    (hcount : segs.count ".." = names.length) : segs.foldl push (names ++ below) = below := by
  induction segs generalizing names with
  | nil =>
      have hnil : names = [] := List.length_eq_zero_iff.mp hcount.symm
      rw [hnil, List.nil_append, List.foldl_nil]
  | cons s rest ih =>
      obtain ⟨hs, hrest⟩ := List.forall_mem_cons.mp hdots
      rw [List.foldl_cons]
      rcases hs with rfl | rfl | rfl
      · rw [push_empty]
        exact ih hrest htop (by simpa using hcount)
      · rw [push_dot]
        exact ih hrest htop (by simpa using hcount)
      · cases names with
        | nil => simp at hcount
        | cons top names =>
            rw [List.mem_cons, not_or] at htop
            rw [List.cons_append, push_parent_cons (Ne.symm htop.1)]
            exact ih hrest htop.2 (by simpa using hcount)

/-! ## What is left in the end -/

theorem mem_of_mem_foldSegments (h : s ∈ foldSegments segs) : s ∈ segs :=
  (mem_of_mem_foldl (List.mem_reverse.mp h)).resolve_right List.not_mem_nil

theorem exists_foldSegments (hslash : ∀ s ∈ segs, '/' ∉ s.toList) :
    ∃ k plain, foldSegments segs = List.replicate k ".." ++ plain ∧ ∀ s ∈ plain, IsSegment s := by
  have hempty : IsStack [] := ⟨[], 0, rfl, by simp⟩
  obtain ⟨plain, k, hstack, hplain⟩ := isStack_foldl hempty hslash
  refine ⟨k, plain.reverse, ?_, by simpa using hplain⟩
  rw [foldSegments, hstack, List.reverse_append, List.reverse_replicate]

theorem foldSegments_parents_append (k : Nat) (hnames : ∀ n ∈ names, IsSegment n) :
    foldSegments (List.replicate k ".." ++ names) = List.replicate k ".." ++ names := by
  have hparents : (List.replicate k "..").foldl push [] = List.replicate k ".." :=
    foldl_push_parents k 0
  rw [foldSegments, List.foldl_append, hparents, foldl_push_segments hnames, List.reverse_append,
    List.reverse_reverse, List.reverse_replicate]

theorem foldSegments_segments (hnames : ∀ n ∈ names, IsSegment n) : foldSegments names = names :=
  foldSegments_parents_append 0 hnames

/-- What stays inside its own root goes on behind any folder. -/
theorem foldSegments_append (hnames : ∀ n ∈ names, IsSegment n) (h : ".." ∉ foldSegments segs) :
    foldSegments (names ++ segs) = names ++ foldSegments segs := by
  have hfold : ".." ∉ segs.foldl push [] := fun hmem => h (List.mem_reverse.mpr hmem)
  have hunder := foldl_push_append hfold names.reverse
  rw [List.nil_append] at hunder
  rw [foldSegments, List.foldl_append, foldl_push_segments hnames, List.append_nil, hunder,
    List.reverse_append, List.reverse_reverse, foldSegments]

theorem leavesRoot_joinFields (rest : List String) :
    leavesRoot (joinFields '/' (".." :: rest)) = true := by
  cases rest with
  | nil => decide
  | cons s rest =>
      have hjoin := joinFields_append '/' (List.cons_ne_nil ".." []) (List.cons_ne_nil s rest)
      rw [List.singleton_append] at hjoin
      rw [hjoin, leavesRoot, String.toList_append, String.toList_append]
      simp [joinFields]

theorem leavesRoot_eq_false (hne : names ≠ []) (hnames : ∀ n ∈ names, IsSegment n) :
    leavesRoot (joinFields '/' names) = false := by
  have hfields : fields Location.isSlash (joinFields '/' names) = names :=
    Location.fields_joinFields_segments hne hnames
  have hparent : ".." ∉ names := fun h => (hnames _ h).ne_parent rfl
  rw [leavesRoot, Bool.or_eq_false_iff, beq_eq_false_iff_ne]
  constructor
  · intro h
    rw [h] at hfields
    exact hparent (hfields ▸ by decide)
  · rw [Bool.eq_false_iff]
    intro h
    obtain ⟨below, hbelow⟩ := liesIn_iff.mp (show liesIn ".." (joinFields '/' names) = true from h)
    rw [hbelow, show "/" = String.singleton '/' from rfl,
      fields_append_sep _ Location.isSlash_slash] at hfields
    exact hparent (hfields ▸ List.mem_append_left _ (by decide))

theorem no_slash_of_mem_fields (h : s ∈ fields isSeparator path) : '/' ∉ s.toList := by
  intro hmem
  have hplain := plain_of_mem_fields h '/' hmem
  simp [isSeparator] at hplain

theorem no_backslash_of_mem_fields (h : s ∈ fields isSeparator path) : '\\' ∉ s.toList := by
  intro hmem
  have hplain := plain_of_mem_fields h '\\' hmem
  simp [isSeparator] at hplain

theorem isSegment_of_mem_foldSegments (hslash : ∀ s ∈ segs, '/' ∉ s.toList)
    (h : ".." ∉ foldSegments segs) : ∀ s ∈ foldSegments segs, IsSegment s := by
  obtain ⟨k, plain, hfold, hplain⟩ := exists_foldSegments hslash
  rw [hfold] at h ⊢
  cases k with
  | zero => exact hplain
  | succ k => exact absurd (List.mem_append_left plain (by simp)) h

theorem parent_notMem_foldSegments (hslash : ∀ s ∈ segs, '/' ∉ s.toList)
    (h : leavesRoot (joinFields '/' (foldSegments segs)) = false) : ".." ∉ foldSegments segs := by
  obtain ⟨k, plain, hfold, hplain⟩ := exists_foldSegments hslash
  rw [hfold] at h ⊢
  cases k with
  | zero => exact fun hmem => (hplain _ hmem).ne_parent rfl
  | succ k =>
      rw [List.replicate_succ, List.cons_append, leavesRoot_joinFields] at h
      cases h

/-- A written form that stays inside the folder it starts from is made of plain segments. -/
theorem exists_segments_of_normalize (hne : normalize path ≠ "")
    (hinside : leavesRoot (normalize path) = false) :
    ∃ segs, segs ≠ [] ∧ (∀ s ∈ segs, IsSegment s) ∧ normalize path = joinFields '/' segs := by
  have hslash : ∀ s ∈ fields isSeparator path, '/' ∉ s.toList := fun _ => no_slash_of_mem_fields
  refine ⟨foldSegments (fields isSeparator path), ?_, ?_, rfl⟩
  · intro hnil
    rw [normalize, hnil] at hne
    exact hne rfl
  · exact isSegment_of_mem_foldSegments hslash (parent_notMem_foldSegments hslash hinside)

theorem isSeparator_eq_false (hslash : '/' ∉ path.toList) (hback : '\\' ∉ path.toList) :
    ∀ c ∈ path.toList, isSeparator c = false := by
  intro c hc
  rw [isSeparator, Bool.or_eq_false_iff, beq_eq_false_iff_ne, beq_eq_false_iff_ne]
  exact ⟨fun he => hslash (he ▸ hc), fun he => hback (he ▸ hc)⟩

theorem fields_isSeparator_joinFields (hne : names ≠ [])
    (hnames : ∀ n ∈ names, '/' ∉ n.toList ∧ '\\' ∉ n.toList) :
    fields isSeparator (joinFields '/' names) = names := by
  refine fields_joinFields (by decide) hne fun n hn => ?_
  exact isSeparator_eq_false (hnames n hn).1 (hnames n hn).2

/-- Plain segments without a separator of either kind are their own written form, also behind `..`
segments. -/
theorem normalize_joinFields_parents (k : Nat) (hne : List.replicate k ".." ++ names ≠ [])
    (hnames : ∀ n ∈ names, IsSegment n ∧ '\\' ∉ n.toList) :
    normalize (joinFields '/' (List.replicate k ".." ++ names)) =
      joinFields '/' (List.replicate k ".." ++ names) := by
  have hplain : ∀ n ∈ List.replicate k ".." ++ names, '/' ∉ n.toList ∧ '\\' ∉ n.toList := by
    intro n hn
    rcases List.mem_append.mp hn with hparent | hname
    · rw [List.eq_of_mem_replicate hparent]
      decide
    · exact ⟨(hnames n hname).1.no_slash, (hnames n hname).2⟩
  rw [normalize, fields_isSeparator_joinFields hne hplain,
    foldSegments_parents_append k fun n hn => (hnames n hn).1]

theorem splitBy_slashed (s : List Char) :
    splitBy isSeparator (s.map fun c => if c == '\\' then '/' else c) = splitBy isSeparator s := by
  induction s with
  | nil => rfl
  | cons c cs ih =>
      rw [List.map_cons]
      by_cases hc : c = '\\'
      · subst hc
        rw [if_pos (by decide), splitBy_cons_sep (by decide), splitBy_cons_sep (by decide), ih]
      · rw [if_neg (by simpa using hc), splitBy, splitBy, ih]

theorem fields_slashed (path : String) :
    fields isSeparator (slashed path) = fields isSeparator path := by
  rw [fields, slashed, replaceChar, String.toList_ofList, splitBy_slashed, fields]

/-- A path has the same written form with the one separator as with the other. -/
theorem normalize_slashed (path : String) : normalize (slashed path) = normalize path := by
  rw [normalize, fields_slashed, normalize]

theorem backslash_notMem_slashed (path : String) : '\\' ∉ (slashed path).toList := by
  intro hmem
  rw [slashed, replaceChar, String.toList_ofList, List.mem_map] at hmem
  obtain ⟨c, -, hc⟩ := hmem
  by_cases hback : c = '\\' <;> simp_all

/-- A path is that of its folder and a name, or a name alone. -/
theorem directory?_cases (hback : '\\' ∉ path.toList) :
    (directory? path = none ∧ fields isSeparator path = [path]) ∨
      ∃ dir name, directory? path = some dir ∧
        fields isSeparator path = fields isSeparator dir ++ [name] := by
  by_cases hslash : '/' ∈ path.toList
  · obtain ⟨dir, name, rfl, hname⟩ := exists_append_name hslash
    have hplain : '\\' ∉ name.toList := by
      intro hmem
      apply hback
      rw [String.toList_append]
      exact List.mem_append_right _ hmem
    refine Or.inr ⟨dir, name, directory?_append_name hname, ?_⟩
    rw [show "/" = String.singleton '/' from rfl, fields_append_sep _ (by decide),
      fields_of_plain (isSeparator_eq_false hname hplain)]
  · exact Or.inl ⟨directory?_of_no_slash hslash,
      fields_of_plain (isSeparator_eq_false hslash hback)⟩

/-! ## Paths of files -/

/-- A path as a discovery lists it: names that stand for themselves, with slashes between them. -/
structure IsListed (path : String) : Prop where
  ne_empty : path ≠ ""
  plain : ∀ s ∈ segments path, IsSegment s

/-- A path that is its own written form under any reading of its separators. -/
structure IsCanonical (path : String) : Prop extends IsListed path where
  no_backslash : '\\' ∉ path.toList

instance (path : String) : Decidable (IsListed path) :=
  decidable_of_iff (path ≠ "" ∧ ∀ s ∈ segments path, IsSegment s)
    ⟨fun ⟨h₀, h₁⟩ => ⟨h₀, h₁⟩, fun h => ⟨h.1, h.2⟩⟩

instance (path : String) : Decidable (IsCanonical path) :=
  decidable_of_iff (IsListed path ∧ '\\' ∉ path.toList)
    ⟨fun ⟨h₀, h₁⟩ => ⟨h₀, h₁⟩, fun h => ⟨h.1, h.2⟩⟩

theorem isListed_joinFields (hne : names ≠ []) (hnames : ∀ n ∈ names, IsSegment n) :
    IsListed (joinFields '/' names) where
  ne_empty := Location.joinFields_ne_empty hne hnames
  plain := by rwa [segments_joinFields hne hnames]

theorem IsListed.ne_nil (h : IsListed path) : segments path ≠ [] := by
  intro hnil
  apply h.ne_empty
  rw [← joinFields_segments path, hnil]
  rfl

theorem IsListed.leavesRoot_eq_false (h : IsListed path) : leavesRoot path = false := by
  rw [← joinFields_segments path]
  exact Path.leavesRoot_eq_false h.ne_nil h.plain

theorem IsCanonical.slashed (h : IsCanonical path) : slashed path = path :=
  slashed_eq_self h.no_backslash

theorem IsCanonical.no_backslash_of_mem (h : IsCanonical path) (hs : s ∈ segments path) :
    '\\' ∉ s.toList := by
  intro hc
  apply h.no_backslash
  rw [← joinFields_segments path, mem_joinFields (by decide)]
  exact ⟨s, hs, hc⟩

theorem IsCanonical.fields (h : IsCanonical path) : fields isSeparator path = segments path := by
  have hplain : ∀ s ∈ segments path, '/' ∉ s.toList ∧ '\\' ∉ s.toList :=
    fun s hs => ⟨(h.plain s hs).no_slash, h.no_backslash_of_mem hs⟩
  conv_lhs => rw [← joinFields_segments path]
  exact fields_isSeparator_joinFields h.ne_nil hplain

theorem IsCanonical.normalize (h : IsCanonical path) : normalize path = path := by
  rw [Path.normalize, h.fields, foldSegments_segments h.plain, joinFields_segments]

end ImportAtlas.Path
