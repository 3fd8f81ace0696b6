import ImportAtlas.Proofs.Json.Scalar

/-!
# Values of JSON

A value is read back from its text in any layout that puts only blanks between its parts, if it is
not nested too deep and 64 bits hold its numbers.
-/

namespace ImportAtlas.Json

variable {layout : Layout} {depth limit fuel : Nat} {j : Json} {js : List Json}
  {m : String × Json} {ms : List (String × Json)} {c : Char} {blanks cs tail rest : List Char}
  {item : List Char → Option (Json × List Char)}

/-! ## Blanks -/

theorem skipSpace_append (h : ∀ c ∈ blanks, isSpace c = true) (rest : List Char) :
    skipSpace (blanks ++ rest) = skipSpace rest := List.dropWhile_append_of_pos h

theorem skipSpace_cons (hc : isSpace c = false) (rest : List Char) :
    skipSpace (c :: rest) = c :: rest := by
  rw [skipSpace, List.dropWhile_cons_of_neg (by simp [hc])]

theorem continuesNumber_of_isSpace (h : isSpace c = true) : continuesNumber c = false := by
  simp only [isSpace, Bool.or_eq_true, beq_iff_eq] at h
  rcases h with ((rfl | rfl) | rfl) | rfl <;> decide

theorem endsNumber_append (h : ∀ c ∈ blanks, isSpace c = true) (hrest : EndsNumber rest) :
    EndsNumber (blanks ++ rest) := by
  cases blanks with
  | nil => exact hrest
  | cons c blanks => exact endsNumber_cons (continuesNumber_of_isSpace (h c List.mem_cons_self))

/-- A layout that puts only blanks between the parts of a value. -/
structure Layout.IsBlank (layout : Layout) : Prop where
  lineBreak : ∀ depth, ∀ c ∈ layout.lineBreak depth, isSpace c = true
  colon : ∃ blanks, layout.colon = ':' :: blanks ∧ ∀ c ∈ blanks, isSpace c = true

theorem Layout.isBlank_ofPretty (isPretty : Bool) : (ofPretty isPretty).IsBlank := by
  cases isPretty with
  | false => exact ⟨fun _ _ hc => absurd hc List.not_mem_nil, [], rfl, by simp⟩
  | true =>
      refine ⟨fun depth c hc => ?_, [' '], rfl, by simp [isSpace]⟩
      rcases List.mem_cons.mp hc with rfl | hc
      · decide
      · rw [List.eq_of_mem_replicate hc]
        decide

/-! ## Values that are read back -/

/-- A value that is nested at most so deep and holds no numbers but integers of 64 bits. -/
inductive Readable : Nat → Json → Prop
  | null (limit : Nat) : Readable limit null
  | bool (limit : Nat) (b : Bool) : Readable limit (bool b)
  | int (limit : Nat) {i : Int} (hi : IsBounded i) : Readable limit (int i)
  | str (limit : Nat) (s : String) : Readable limit (str s)
  | arr {limit : Nat} {items : List Json} (h : ∀ j ∈ items, Readable limit j) :
      Readable (limit + 1) (arr items)
  | obj {limit : Nat} {members : List (String × Json)} (h : ∀ m ∈ members, Readable limit m.2) :
      Readable (limit + 1) (obj members)

theorem isSpace_eq_false_of_isDigit (h : isDigit c = true) : isSpace c = false ∧ c ≠ ']' := by
  have hne {d : Char} (hd : isDigit d = false) : c ≠ d := fun he => by
    rw [he, hd] at h
    cases h
  refine ⟨?_, hne rfl⟩
  simp only [isSpace, Bool.or_eq_false_iff, beq_eq_false_iff_ne]
  exact ⟨⟨⟨hne rfl, hne rfl⟩, hne rfl⟩, hne rfl⟩

/-- The text of a value starts neither with a blank nor as an array ends. -/
theorem Readable.exists_cons (h : Readable limit j) (layout : Layout) (depth : Nat) :
    ∃ c cs, renderAt layout depth j = c :: cs ∧ isSpace c = false ∧ c ≠ ']' := by
  cases h with
  | null => exact ⟨_, _, rfl, by decide, by decide⟩
  | bool _ b =>
      cases b with
      | true => exact ⟨_, _, rfl, by decide, by decide⟩
      | false => exact ⟨_, _, rfl, by decide, by decide⟩
  | @int _ i hi =>
      obtain ⟨d, ds, hds, hd⟩ := exists_renderInt_eq_cons i
      refine ⟨d, ds, hds, ?_⟩
      rcases hd with rfl | hd
      · exact ⟨by decide, by decide⟩
      · exact isSpace_eq_false_of_isDigit hd
  | str => exact ⟨_, _, rfl, by decide, by decide⟩
  | @arr _ items =>
      cases items <;> exact ⟨_, _, rfl, by decide, by decide⟩
  | @obj _ members =>
      cases members <;> exact ⟨_, _, rfl, by decide, by decide⟩

theorem Readable.skipSpace_render (h : Readable limit j) (layout : Layout) (depth : Nat)
    (rest : List Char) :
    skipSpace (renderAt layout depth j ++ rest) = renderAt layout depth j ++ rest := by
  obtain ⟨c, cs, hcs, hc, _⟩ := h.exists_cons layout depth
  rw [hcs, List.cons_append, skipSpace_cons hc]

/-- A reader that gives values back as they were written. -/
def Recovers (layout : Layout) (item : List Char → Option (Json × List Char)) (j : Json) : Prop :=
  ∀ depth rest, EndsNumber rest → item (renderAt layout depth j ++ rest) = some (j, rest)

/-! ## Items -/

theorem length_le_length_renderItems (layout : Layout) (depth : Nat) (js : List Json) :
    js.length ≤ (renderItems layout depth js).length := by
  induction js with
  | nil => simp
  | cons j js ih =>
      rw [renderItems]
      simp only [List.length_cons, List.cons_append, List.length_append]
      omega

/-- What follows the last part of a container: blanks, and the bracket that closes it. -/
structure Closes (close : Char) (tail rest : List Char) : Prop where
  bracket : skipSpace tail = close :: rest
  endsNumber : EndsNumber tail

theorem closes_append (hblanks : ∀ c ∈ blanks, isSpace c = true) (hspace : isSpace c = false)
    (hnumber : continuesNumber c = false) : Closes c (blanks ++ c :: rest) rest where
  bracket := by rw [skipSpace_append hblanks, skipSpace_cons hspace]
  endsNumber := endsNumber_append hblanks (endsNumber_cons hnumber)

theorem endsNumber_renderItems (layout : Layout) (depth : Nat) (js : List Json)
    (htail : EndsNumber tail) : EndsNumber (renderItems layout depth js ++ tail) := by
  cases js with
  | nil => exact htail
  | cons j js =>
      rw [renderItems]
      exact endsNumber_cons (by decide)

theorem readItems?_render (hlayout : layout.IsBlank) (htail : Closes ']' tail rest)
    (hread : ∀ i ∈ j :: js, Readable limit i ∧ Recovers layout item i) (hfuel : js.length < fuel)
    (hcs : skipSpace cs = renderAt layout depth j ++ (renderItems layout depth js ++ tail)) :
    readItems? item fuel cs = some (j :: js, rest) := by
  induction js generalizing j fuel cs with
  | nil =>
      obtain ⟨fuel, rfl⟩ := Nat.exists_eq_succ_of_ne_zero (Nat.ne_zero_of_lt hfuel)
      have hj := (hread j List.mem_cons_self).2 depth tail htail.endsNumber
      rw [renderItems, List.nil_append] at hcs
      simp [readItems?, hcs, hj, htail.bracket]
  | cons i js ih =>
      obtain ⟨fuel, rfl⟩ := Nat.exists_eq_succ_of_ne_zero (Nat.ne_zero_of_lt hfuel)
      obtain ⟨hj, hothers⟩ := List.forall_mem_cons.mp hread
      have hj' := hj.2 depth _ (endsNumber_renderItems layout depth (i :: js) htail.endsNumber)
      have hcomma : skipSpace (renderItems layout depth (i :: js) ++ tail) =
          ',' :: (layout.lineBreak depth ++
            (renderAt layout depth i ++ (renderItems layout depth js ++ tail))) := by
        rw [renderItems, List.cons_append, List.cons_append, List.cons_append,
          skipSpace_cons (by decide), List.append_assoc, List.append_assoc]
      have hnext : skipSpace (layout.lineBreak depth ++
            (renderAt layout depth i ++ (renderItems layout depth js ++ tail))) =
          renderAt layout depth i ++ (renderItems layout depth js ++ tail) := by
        rw [skipSpace_append (hlayout.lineBreak depth),
          (hothers i List.mem_cons_self).1.skipSpace_render]
      have hothers' := ih hothers (Nat.lt_of_succ_lt_succ hfuel) hnext
      simp [readItems?, hcs, hj', hcomma, hothers']

/-! ## Members -/

theorem length_le_length_renderMembers (layout : Layout) (depth : Nat)
    (ms : List (String × Json)) : ms.length ≤ (renderMembers layout depth ms).length := by
  induction ms with
  | nil => simp
  | cons m ms ih =>
      rw [renderMembers]
      simp only [List.length_cons, List.cons_append, List.length_append]
      omega

theorem endsNumber_renderMembers (layout : Layout) (depth : Nat) (ms : List (String × Json))
    (htail : EndsNumber tail) : EndsNumber (renderMembers layout depth ms ++ tail) := by
  cases ms with
  | nil => exact htail
  | cons m ms =>
      rw [renderMembers]
      exact endsNumber_cons (by decide)

theorem skipSpace_renderString (name : String) (rest : List Char) :
    skipSpace (renderString name ++ rest) = renderString name ++ rest := by
  rw [renderString, List.cons_append, List.cons_append, skipSpace_cons (by decide)]

theorem readMember?_render (hlayout : layout.IsBlank) (hm : Readable limit m.2)
    (hread : Recovers layout item m.2) (htail : EndsNumber tail)
    (hcs : skipSpace cs = renderMember layout depth m ++ tail) :
    readMember? item cs = some (m, tail) := by
  obtain ⟨name, j⟩ := m
  obtain ⟨blanks, hcolon, hblanks⟩ := hlayout.colon
  have hname := readString?_renderString name (layout.colon ++ (renderAt layout depth j ++ tail))
  have hbehind : skipSpace (layout.colon ++ (renderAt layout depth j ++ tail)) =
      ':' :: (blanks ++ (renderAt layout depth j ++ tail)) := by
    rw [hcolon]
    exact skipSpace_cons (by decide) _
  have hvalue : skipSpace (blanks ++ (renderAt layout depth j ++ tail)) =
      renderAt layout depth j ++ tail := by
    rw [skipSpace_append hblanks, hm.skipSpace_render]
  rw [renderMember, List.append_assoc, List.append_assoc] at hcs
  simp [readMember?, hcs, hname, hbehind, hvalue, hread depth tail htail]

theorem readMembers?_render (hlayout : layout.IsBlank) (htail : Closes '}' tail rest)
    (hread : ∀ x ∈ m :: ms, Readable limit x.2 ∧ Recovers layout item x.2)
    (hfuel : ms.length < fuel)
    (hcs : skipSpace cs = renderMember layout depth m ++ (renderMembers layout depth ms ++ tail)) :
    readMembers? item fuel cs = some (m :: ms, rest) := by
  induction ms generalizing m fuel cs with
  | nil =>
      obtain ⟨fuel, rfl⟩ := Nat.exists_eq_succ_of_ne_zero (Nat.ne_zero_of_lt hfuel)
      obtain ⟨hm, hrecovers⟩ := hread m List.mem_cons_self
      rw [renderMembers, List.nil_append] at hcs
      have hm' := readMember?_render hlayout hm hrecovers htail.endsNumber hcs
      simp [readMembers?, hm', htail.bracket]
  | cons x ms ih =>
      obtain ⟨fuel, rfl⟩ := Nat.exists_eq_succ_of_ne_zero (Nat.ne_zero_of_lt hfuel)
      obtain ⟨⟨hm, hrecovers⟩, hothers⟩ := List.forall_mem_cons.mp hread
      have hm' := readMember?_render hlayout hm hrecovers
        (endsNumber_renderMembers layout depth (x :: ms) htail.endsNumber) hcs
      have hcomma : skipSpace (renderMembers layout depth (x :: ms) ++ tail) =
          ',' :: (layout.lineBreak depth ++
            (renderMember layout depth x ++ (renderMembers layout depth ms ++ tail))) := by
        rw [renderMembers, List.cons_append, List.cons_append, List.cons_append,
          skipSpace_cons (by decide), List.append_assoc, List.append_assoc]
      have hnext : skipSpace (layout.lineBreak depth ++
            (renderMember layout depth x ++ (renderMembers layout depth ms ++ tail))) =
          renderMember layout depth x ++ (renderMembers layout depth ms ++ tail) := by
        rw [skipSpace_append (hlayout.lineBreak depth), renderMember, List.append_assoc,
          List.append_assoc, skipSpace_renderString]
      have hothers' := ih hothers (Nat.lt_of_succ_lt_succ hfuel) hnext
      simp [readMembers?, hm', hcomma, hothers']

/-! ## Values -/

theorem recovers_arr (hlayout : layout.IsBlank)
    (hread : ∀ i ∈ js, Readable limit i ∧ Recovers layout (readValue? limit) i) :
    Recovers layout (readValue? (limit + 1)) (arr js) := by
  intro depth rest _
  cases js with
  | nil => simp [renderAt, readValue?, skipSpace_cons, isSpace]
  | cons j js =>
      have htail : Closes ']' (layout.lineBreak depth ++ ']' :: rest) rest :=
        closes_append (hlayout.lineBreak depth) (by decide) (by decide)
      obtain ⟨c, cs, hcs, hspace, hc⟩ :=
        (hread j List.mem_cons_self).1.exists_cons layout (depth + 1)
      have htext : renderAt layout (depth + 1) j ++ (renderItems layout (depth + 1) js ++
            (layout.lineBreak depth ++ ']' :: rest)) =
          c :: (cs ++ (renderItems layout (depth + 1) js ++
            (layout.lineBreak depth ++ ']' :: rest))) := by
        rw [hcs, List.cons_append]
      have hitems := length_le_length_renderItems layout (depth + 1) js
      simp only [renderAt, List.cons_append, List.append_assoc, List.nil_append]
      rw [htext, readValue?_arr limit
        ((skipSpace_append (hlayout.lineBreak _) _).trans (skipSpace_cons hspace _)) hc,
        readItems?_render hlayout htail hread _ ((skipSpace_cons hspace _).trans htext.symm)]
      · rfl
      · simp only [List.length_cons, List.length_append]
        omega

theorem exists_renderMember_eq_cons (layout : Layout) (depth : Nat) (m : String × Json) :
    ∃ cs, renderMember layout depth m = '"' :: cs := by
  obtain ⟨name, j⟩ := m
  exact ⟨_, rfl⟩

theorem recovers_obj (hlayout : layout.IsBlank)
    (hread : ∀ m ∈ ms, Readable limit m.2 ∧ Recovers layout (readValue? limit) m.2) :
    Recovers layout (readValue? (limit + 1)) (obj ms) := by
  intro depth rest _
  cases ms with
  | nil => simp [renderAt, readValue?, skipSpace_cons, isSpace]
  | cons m ms =>
      have htail : Closes '}' (layout.lineBreak depth ++ '}' :: rest) rest :=
        closes_append (hlayout.lineBreak depth) (by decide) (by decide)
      obtain ⟨cs, hcs⟩ := exists_renderMember_eq_cons layout (depth + 1) m
      have hspace : isSpace '"' = false := by decide
      have htext : renderMember layout (depth + 1) m ++ (renderMembers layout (depth + 1) ms ++
            (layout.lineBreak depth ++ '}' :: rest)) =
          '"' :: (cs ++ (renderMembers layout (depth + 1) ms ++
            (layout.lineBreak depth ++ '}' :: rest))) := by
        rw [hcs, List.cons_append]
      have hmembers := length_le_length_renderMembers layout (depth + 1) ms
      simp only [renderAt, List.cons_append, List.append_assoc, List.nil_append]
      rw [htext, readValue?_obj limit
        ((skipSpace_append (hlayout.lineBreak _) _).trans (skipSpace_cons hspace _)) (by decide),
        readMembers?_render hlayout htail hread _ ((skipSpace_cons hspace _).trans htext.symm)]
      · rfl
      · simp only [List.length_cons, List.length_append]
        omega

theorem readValue?_number (limit : Nat) {i : Int} (rest : List Char) :
    readValue? limit (renderInt i ++ rest) = readNumber? (renderInt i ++ rest) := by
  obtain ⟨d, ds, hds, hd⟩ := exists_renderInt_eq_cons i
  have hne {e : Char} (he : e ≠ '-') (he' : isDigit e = false) : d ≠ e := by
    rintro rfl
    rcases hd with rfl | hd
    · exact he rfl
    · rw [he'] at hd
      cases hd
  rw [hds, List.cons_append, readValue?]
  all_goals exact fun _ hcs => hne (by decide) (by decide) (List.cons.inj hcs).1

theorem recovers_of_readable (hlayout : layout.IsBlank) (h : Readable limit j) :
    Recovers layout (readValue? limit) j := by
  induction h with
  | null limit =>
      intro depth rest _
      simp [renderAt, readValue?]
  | bool limit b =>
      intro depth rest _
      cases b <;> simp [renderAt, readValue?]
  | int limit hi =>
      intro depth rest hrest
      rw [renderAt, readValue?_number, readNumber?_renderInt hi hrest]
  | str limit s =>
      intro depth rest _
      have hs := readString?_renderString s rest
      rw [renderString, List.cons_append, List.cons_append] at hs
      rw [renderAt, renderString, List.cons_append, List.cons_append, readValue?, hs]
      rfl
  | arr h ih => exact recovers_arr hlayout fun i hi => ⟨h i hi, ih i hi⟩
  | obj h ih => exact recovers_obj hlayout fun m hm => ⟨h m hm, ih m hm⟩

/-- A value is read back from its text, however it is laid out. -/
theorem parse?_render (hlayout : layout.IsBlank) (h : Readable maxDepth j) :
    parse? (j.render layout) = some j := by
  have hvalue := recovers_of_readable hlayout h 0 [] endsNumber_nil
  have hstart := h.skipSpace_render layout 0 []
  rw [List.append_nil] at hvalue hstart
  rw [parse?, render, String.toList_ofList, hstart, hvalue]
  rfl

end ImportAtlas.Json
