import ImportAtlas.Text.Fields
import Mathlib

/-!
# Cutting and joining texts

Pieces without separators that are joined and cut again come back as they were, so a joined text
determines its pieces. A text is what stands before its last separator and what follows it, and a
front of characters of one kind ends where the next character is of another kind.
-/

namespace ImportAtlas.Text

variable {p : Char → Bool}

theorem splitBy_cons_sep {c : Char} (hc : p c = true) (s : List Char) :
    splitBy p (c :: s) = [] :: splitBy p s := by simp [splitBy, hc]

theorem splitBy_cons_plain {c : Char} (hc : p c = false) {s f : List Char} {fs : List (List Char)}
    (hs : splitBy p s = f :: fs) : splitBy p (c :: s) = (c :: f) :: fs := by
  simp [splitBy, hc, hs]

theorem splitBy_of_plain {s : List Char} (hs : ∀ c ∈ s, p c = false) : splitBy p s = [s] := by
  induction s with
  | nil => rfl
  | cons c s ih =>
      exact splitBy_cons_plain (hs c List.mem_cons_self)
        (ih fun d hd => hs d (List.mem_cons_of_mem c hd))

theorem splitBy_append_sep (s : List Char) {c : Char} (hc : p c = true) (t : List Char) :
    splitBy p (s ++ c :: t) = splitBy p s ++ splitBy p t := by
  induction s with
  | nil => simp [splitBy_cons_sep hc, splitBy]
  | cons d s ih =>
      cases hd : p d with
      | true =>
          rw [List.cons_append, splitBy_cons_sep hd, splitBy_cons_sep hd, ih, List.cons_append]
      | false =>
          obtain ⟨f, fs, hf⟩ := List.exists_cons_of_ne_nil (splitBy_ne_nil p s)
          rw [hf, List.cons_append] at ih
          rw [List.cons_append, splitBy_cons_plain hd ih, splitBy_cons_plain hd hf,
            List.cons_append]

theorem plain_of_mem_splitBy {s f : List Char} (hf : f ∈ splitBy p s) : ∀ c ∈ f, p c = false := by
  induction s generalizing f with
  | nil =>
      rw [splitBy, List.mem_singleton] at hf
      simp [hf]
  | cons d s ih =>
      cases hd : p d with
      | true =>
          rw [splitBy_cons_sep hd, List.mem_cons] at hf
          rcases hf with rfl | hf
          · simp
          · exact ih hf
      | false =>
          obtain ⟨g, gs, hg⟩ := List.exists_cons_of_ne_nil (splitBy_ne_nil p s)
          rw [splitBy_cons_plain hd hg, List.mem_cons] at hf
          rcases hf with rfl | hf
          · intro c hc
            rcases List.mem_cons.mp hc with rfl | hc
            · exact hd
            · exact ih (hg ▸ List.mem_cons_self) c hc
          · exact ih (hg ▸ List.mem_cons_of_mem g hf)

theorem mem_of_mem_splitBy {s f : List Char} (hf : f ∈ splitBy p s) : ∀ c ∈ f, c ∈ s := by
  induction s generalizing f with
  | nil =>
      rw [splitBy, List.mem_singleton] at hf
      simp [hf]
  | cons d s ih =>
      cases hd : p d with
      | true =>
          rw [splitBy_cons_sep hd, List.mem_cons] at hf
          rcases hf with rfl | hf
          · simp
          · exact fun c hc => List.mem_cons_of_mem d (ih hf c hc)
      | false =>
          obtain ⟨g, gs, hg⟩ := List.exists_cons_of_ne_nil (splitBy_ne_nil p s)
          rw [splitBy_cons_plain hd hg, List.mem_cons] at hf
          rcases hf with rfl | hf
          · exact List.forall_mem_cons.mpr ⟨List.mem_cons_self,
              fun c hc => List.mem_cons_of_mem d (ih (hg ▸ List.mem_cons_self) c hc)⟩
          · exact fun c hc => List.mem_cons_of_mem d (ih (hg ▸ List.mem_cons_of_mem g hf) c hc)

@[simp] theorem joinBy_nil (sep : Char) : joinBy sep [] = [] := rfl

@[simp] theorem joinBy_singleton (sep : Char) (f : List Char) : joinBy sep [f] = f := rfl

theorem joinBy_cons (sep : Char) (f : List Char) {fs : List (List Char)} (hfs : fs ≠ []) :
    joinBy sep (f :: fs) = f ++ sep :: joinBy sep fs := by
  obtain ⟨g, gs, rfl⟩ := List.exists_cons_of_ne_nil hfs
  rfl

theorem joinBy_append (sep : Char) {fs gs : List (List Char)} (hfs : fs ≠ []) (hgs : gs ≠ []) :
    joinBy sep (fs ++ gs) = joinBy sep fs ++ sep :: joinBy sep gs := by
  induction fs with
  | nil => exact absurd rfl hfs
  | cons f fs ih =>
      by_cases hnil : fs = []
      · rw [hnil, List.singleton_append, joinBy_cons sep f hgs, joinBy_singleton]
      · rw [List.cons_append, joinBy_cons sep f (by simp [hnil]), joinBy_cons sep f hnil, ih hnil,
          List.append_assoc, List.cons_append]

theorem joinBy_splitBy (sep : Char) (s : List Char) : joinBy sep (splitBy (· == sep) s) = s := by
  induction s with
  | nil => rfl
  | cons c s ih =>
      obtain ⟨f, fs, hf⟩ := List.exists_cons_of_ne_nil (splitBy_ne_nil (· == sep) s)
      cases hc : c == sep with
      | true =>
          rw [splitBy_cons_sep (p := (· == sep)) hc, joinBy_cons sep [] (splitBy_ne_nil _ s), ih,
            List.nil_append, eq_of_beq hc]
      | false =>
          rw [splitBy_cons_plain (p := (· == sep)) hc hf]
          rw [hf] at ih
          cases fs with
          | nil => rw [joinBy_singleton] at ih ⊢; rw [ih]
          | cons g gs =>
              rw [joinBy_cons sep _ (List.cons_ne_nil g gs)] at ih ⊢
              rw [List.cons_append, ih]

theorem length_joinBy (sep : Char) {fs : List (List Char)} (hfs : fs ≠ []) :
    (joinBy sep fs).length + 1 = (fs.map fun f => f.length + 1).sum := by
  induction fs with
  | nil => exact absurd rfl hfs
  | cons f fs ih =>
      by_cases hnil : fs = []
      · simp [hnil]
      · have hlen := ih hnil
        rw [joinBy_cons sep f hnil, List.length_append, List.length_cons, List.map_cons,
          List.sum_cons]
        omega

/-- Pieces that are left out make a text no longer. -/
theorem length_joinBy_le (sep : Char) {fs gs : List (List Char)} (h : fs.Sublist gs) :
    (joinBy sep fs).length ≤ (joinBy sep gs).length := by
  by_cases hfs : fs = []
  · simp [hfs]
  · have hgs : gs ≠ [] := fun hnil => hfs (List.sublist_nil.mp (hnil ▸ h))
    have hf := length_joinBy sep hfs
    have hg := length_joinBy sep hgs
    have hsum := (h.map fun f => f.length + 1).sum_le_sum fun n _ => Nat.zero_le n
    omega

theorem splitBy_joinBy {sep : Char} (hsep : p sep = true) {fs : List (List Char)} (hfs : fs ≠ [])
    (hplain : ∀ f ∈ fs, ∀ c ∈ f, p c = false) : splitBy p (joinBy sep fs) = fs := by
  induction fs with
  | nil => exact absurd rfl hfs
  | cons f fs ih =>
      have hf : splitBy p f = [f] := splitBy_of_plain (hplain f List.mem_cons_self)
      by_cases hnil : fs = []
      · rw [hnil, joinBy_singleton, hf]
      · rw [joinBy_cons sep f hnil, splitBy_append_sep f hsep, hf,
          ih hnil fun g hg => hplain g (List.mem_cons_of_mem f hg), List.singleton_append]

theorem fields_ne_nil (p : Char → Bool) (s : String) : fields p s ≠ [] := by
  simp [fields, splitBy_ne_nil]

theorem fields_of_plain {s : String} (hs : ∀ c ∈ s.toList, p c = false) : fields p s = [s] := by
  rw [fields, splitBy_of_plain hs]
  simp

theorem fields_append_sep (s : String) {c : Char} (hc : p c = true) (t : String) :
    fields p (s ++ String.singleton c ++ t) = fields p s ++ fields p t := by
  simp [fields, splitBy_append_sep s.toList hc]

theorem plain_of_mem_fields {s f : String} (hf : f ∈ fields p s) : ∀ c ∈ f.toList, p c = false := by
  obtain ⟨g, hg, rfl⟩ := List.mem_map.mp hf
  simpa using plain_of_mem_splitBy hg

theorem fields_joinFields {sep : Char} (hsep : p sep = true) {fs : List String} (hfs : fs ≠ [])
    (hplain : ∀ f ∈ fs, ∀ c ∈ f.toList, p c = false) : fields p (joinFields sep fs) = fs := by
  have hcut : splitBy p (joinBy sep (fs.map String.toList)) = fs.map String.toList := by
    apply splitBy_joinBy hsep (by simpa using hfs)
    intro f hf
    obtain ⟨g, hg, rfl⟩ := List.mem_map.mp hf
    exact hplain g hg
  simp [fields, joinFields, hcut]

theorem mem_joinFields {sep c : Char} (hc : c ≠ sep) (fs : List String) :
    c ∈ (joinFields sep fs).toList ↔ ∃ f ∈ fs, c ∈ f.toList := by
  rw [joinFields, String.toList_ofList]
  induction fs with
  | nil => simp
  | cons f fs ih =>
      by_cases hnil : fs = []
      · simp [hnil]
      · rw [List.map_cons, joinBy_cons sep _ (by simpa using hnil)]
        simp [hc, ih]

theorem joinFields_append (sep : Char) {fs gs : List String} (hfs : fs ≠ []) (hgs : gs ≠ []) :
    joinFields sep (fs ++ gs) = joinFields sep fs ++ String.singleton sep ++ joinFields sep gs := by
  have hfs' : fs.map String.toList ≠ [] := by simpa using hfs
  have hgs' : gs.map String.toList ≠ [] := by simpa using hgs
  apply String.toList_injective
  simp [joinFields, joinBy_append sep hfs' hgs']

theorem joinFields_injOn {sep : Char} {fs gs : List String} (hfs : fs ≠ []) (hgs : gs ≠ [])
    (hf : ∀ f ∈ fs, sep ∉ f.toList) (hg : ∀ g ∈ gs, sep ∉ g.toList)
    (h : joinFields sep fs = joinFields sep gs) : fs = gs := by
  have hplain {xs : List String} (hx : ∀ x ∈ xs, sep ∉ x.toList) :
      ∀ x ∈ xs, ∀ c ∈ x.toList, (c == sep) = false := by
    intro x hxs c hc
    exact beq_eq_false_iff_ne.mpr fun he => hx x hxs (he ▸ hc)
  rw [← fields_joinFields (p := (· == sep)) (beq_self_eq_true sep) hfs (hplain hf), h,
    fields_joinFields (p := (· == sep)) (beq_self_eq_true sep) hgs (hplain hg)]

/-! ## A front of one kind -/

theorem takeWhile_append_of_head {s t : List Char} (hs : ∀ c ∈ s, p c = true)
    (ht : ∀ c ∈ t.head?, p c = false) : (s ++ t).takeWhile p = s := by
  rw [List.takeWhile_append_of_pos hs]
  cases t with
  | nil => simp
  | cons c t => simp [ht c rfl]

theorem dropWhile_append_of_head {s t : List Char} (hs : ∀ c ∈ s, p c = true)
    (ht : ∀ c ∈ t.head?, p c = false) : (s ++ t).dropWhile p = t := by
  rw [List.dropWhile_append_of_pos hs]
  cases t with
  | nil => rfl
  | cons c t => simp [ht c rfl]

/-! ## Around the last separator -/

theorem afterLast_append_plain (s : List Char) {t : List Char} (ht : ∀ c ∈ t, p c = false) :
    afterLast p (s ++ t) = afterLast p s ++ t := by
  have hplain : ∀ c ∈ t.reverse, (!p c) = true := by
    intro c hc
    simp [ht c (List.mem_reverse.mp hc)]
  rw [afterLast, afterLast, List.reverse_append, List.takeWhile_append_of_pos hplain,
    List.reverse_append, List.reverse_reverse]

theorem afterLast_append_sep (s : List Char) {c : Char} (hc : p c = true) {t : List Char}
    (ht : ∀ d ∈ t, p d = false) : afterLast p (s ++ c :: t) = t := by
  have hend : afterLast p (s ++ [c]) = [] := by simp [afterLast, hc]
  rw [List.append_cons, afterLast_append_plain _ ht, hend, List.nil_append]

theorem beforeLast?_append_sep (s : List Char) {c : Char} (hc : p c = true) {t : List Char}
    (ht : ∀ d ∈ t, p d = false) : beforeLast? p (s ++ c :: t) = some s := by
  have hplain : ∀ d ∈ t.reverse, (!p d) = true := by
    intro d hd
    simp [ht d (List.mem_reverse.mp hd)]
  rw [beforeLast?, List.append_cons, List.reverse_append, List.dropWhile_append_of_pos hplain,
    List.reverse_append]
  simp [hc]

theorem beforeLast?_of_plain {s : List Char} (hs : ∀ c ∈ s, p c = false) :
    beforeLast? p s = none := by
  have hnil : s.reverse.dropWhile (!p ·) = [] := by
    rw [List.dropWhile_eq_nil_iff]
    intro c hc
    simp [hs c (List.mem_reverse.mp hc)]
  rw [beforeLast?, hnil]

theorem plain_of_mem_afterLast {s : List Char} : ∀ c ∈ afterLast p s, p c = false := by
  intro c hc
  simpa using List.mem_takeWhile_imp (List.mem_reverse.mp hc)

theorem exists_append_afterLast (p : Char → Bool) (s : List Char) :
    ∃ front, s = front ++ afterLast p s := by
  refine ⟨(s.reverse.dropWhile (!p ·)).reverse, ?_⟩
  rw [afterLast, ← List.reverse_append, List.takeWhile_append_dropWhile, List.reverse_reverse]

theorem exists_sep_afterLast {s : List Char} {c : Char} (hc : p c = true) (hs : c ∈ s) :
    ∃ front d, p d = true ∧ s = front ++ d :: afterLast p s := by
  have hback : s.reverse.dropWhile (!p ·) ≠ [] := by
    intro hnil
    rw [List.dropWhile_eq_nil_iff] at hnil
    have hplain := hnil c (List.mem_reverse.mpr hs)
    simp [hc] at hplain
  obtain ⟨d, front, hfront⟩ := List.exists_cons_of_ne_nil hback
  have hd : p d = true := by
    have hhead := List.head_dropWhile_not (fun c => !p c) hback
    simpa [hfront] using hhead
  refine ⟨front.reverse, d, hd, ?_⟩
  have hall : s.reverse = s.reverse.takeWhile (!p ·) ++ d :: front := by
    rw [← hfront, List.takeWhile_append_dropWhile]
  have hrev := congrArg List.reverse hall
  rw [List.reverse_reverse, List.reverse_append, List.reverse_cons] at hrev
  rw [afterLast, List.append_cons]
  exact hrev

end ImportAtlas.Text
