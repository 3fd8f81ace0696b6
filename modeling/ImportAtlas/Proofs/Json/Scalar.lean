import ImportAtlas.Json.Printer
import ImportAtlas.Json.Reader
import ImportAtlas.Proofs.Text.Fields

/-!
# Strings and numbers of JSON

A string and an integer of 64 bits are read back as they were written, whatever stands behind them,
unless it goes on with the number.
-/

namespace ImportAtlas.Json

variable {n : Nat} {c : Char} {rest : List Char}

/-! ## Digits -/

theorem isDigit_of_mem_toDigits (h : c ∈ Nat.toDigits 10 n) : isDigit c = true := by
  have hdigit : c.isDigit = true := Nat.isDigit_of_mem_toDigits (by omega) le_rfl h
  rw [Char.isDigit, Bool.and_eq_true, decide_eq_true_eq, decide_eq_true_eq] at hdigit
  rw [isDigit, Bool.and_eq_true, decide_eq_true_eq, decide_eq_true_eq]
  exact hdigit

theorem natOfDigits_eq_ofDigitChars (ds : List Char) :
    natOfDigits ds = Nat.ofDigitChars 10 ds 0 := by
  simp only [natOfDigits, Nat.ofDigitChars_eq_foldl, Nat.mul_comm]

theorem natOfDigits_toDigits (n : Nat) : natOfDigits (Nat.toDigits 10 n) = n := by
  rw [natOfDigits_eq_ofDigitChars, Nat.ofDigitChars_ten_toDigits]

/-- No number but zero is written with a zero in front. -/
theorem exists_toDigits_eq_cons (hn : n ≠ 0) : ∃ d ds, Nat.toDigits 10 n = d :: ds ∧ d ≠ '0' := by
  induction n using Nat.strong_induction_on with
  | _ n ih =>
      by_cases hlt : n < 10
      · refine ⟨n.digitChar, [], Nat.toDigits_of_lt_base hlt, ?_⟩
        interval_cases n <;> first | exact absurd rfl hn | decide
      · obtain ⟨d, ds, hds, hd⟩ := ih (n / 10) (by omega) (by omega)
        refine ⟨d, ds ++ [(n % 10).digitChar], ?_, hd⟩
        rw [Nat.toDigits_of_base_le (by omega) (by omega), hds, List.cons_append]

def continuesNumber (c : Char) : Bool := isDigit c || c == '.' || c == 'e' || c == 'E'

/-- A text that does not go on with a number written before it. -/
def EndsNumber (rest : List Char) : Prop := ∀ c ∈ rest.head?, continuesNumber c = false

theorem endsNumber_nil : EndsNumber [] := by
  rintro _ ⟨⟩

theorem endsNumber_cons (hc : continuesNumber c = false) : EndsNumber (c :: rest) := by
  rintro _ ⟨⟩
  exact hc

theorem EndsNumber.head (h : EndsNumber (c :: rest)) :
    isDigit c = false ∧ c ≠ '.' ∧ c ≠ 'e' ∧ c ≠ 'E' := by
  have hc := h c rfl
  simpa only [continuesNumber, Bool.or_eq_false_iff, beq_eq_false_iff_ne, and_assoc] using hc

theorem EndsNumber.no_digit (h : EndsNumber rest) : ∀ c ∈ rest.head?, isDigit c = false := by
  cases rest with
  | nil => rintro _ ⟨⟩
  | cons c rest =>
      rintro _ ⟨⟩
      exact h.head.1

theorem wholeDigits?_toDigits (n : Nat) (hrest : ∀ c ∈ rest.head?, isDigit c = false) :
    wholeDigits? (Nat.toDigits 10 n ++ rest) = some (Nat.toDigits 10 n, rest) := by
  by_cases hn : n = 0
  · subst hn
    have hhead : (rest.head?.map isDigit).getD false = false := by
      cases rest with
      | nil => rfl
      | cons c rest => exact hrest c rfl
    rw [Nat.toDigits_zero, List.singleton_append, wholeDigits?, hhead]
    rfl
  · obtain ⟨d, ds, hds, hd⟩ := exists_toDigits_eq_cons hn
    have hdigits : ∀ c ∈ Nat.toDigits 10 n, isDigit c = true := fun _ => isDigit_of_mem_toDigits
    have htake := Text.takeWhile_append_of_head hdigits hrest
    have hdrop := Text.dropWhile_append_of_head hdigits hrest
    rw [hds, List.cons_append] at htake hdrop
    rw [hds, List.cons_append, wholeDigits?, htake, hdrop]
    · rfl
    · rintro _ ⟨⟩
      exact hd rfl

theorem fraction?_of_endsNumber (h : EndsNumber rest) : fraction? rest = some ([], rest) := by
  cases rest with
  | nil => rfl
  | cons c rest =>
      rw [fraction?]
      rintro _ ⟨⟩
      exact h.head.2.1 rfl

theorem exponent?_of_endsNumber (h : EndsNumber rest) : exponent? rest = some ([], rest) := by
  cases rest with
  | nil => rfl
  | cons c rest =>
      have hc : (c == 'e' || c == 'E') = false := by
        rw [Bool.or_eq_false_iff, beq_eq_false_iff_ne, beq_eq_false_iff_ne]
        exact h.head.2.2
      simp only [exponent?, hc, Bool.false_eq_true, if_false]

/-- The integers that are read as such. -/
def IsBounded (i : Int) : Prop := -0x8000000000000000 ≤ i ∧ i < 0x10000000000000000

theorem integer?_natAbs {i : Int} (hi : IsBounded i) : integer? (i < 0) i.natAbs = some i := by
  obtain ⟨hlow, hhigh⟩ := hi
  by_cases hneg : i < 0
  · have hlimit : (i.natAbs == 0 || decide (i.natAbs > 0x8000000000000000)) = false := by
      rw [Bool.or_eq_false_iff, beq_eq_false_iff_ne, decide_eq_false_iff_not]
      omega
    rw [integer?, decide_eq_true hneg, if_pos rfl, hlimit, if_neg Bool.false_ne_true,
      Option.some.injEq]
    omega
  · rw [integer?, decide_eq_false hneg, if_neg Bool.false_ne_true, if_neg (by omega),
      Option.some.injEq]
    omega

theorem toList_toString (n : Nat) : (toString n).toList = Nat.toDigits 10 n := by
  rw [Nat.toString_eq_ofList_toDigits, String.toList_ofList]

/-- The first character of a number that is written down. -/
theorem exists_renderInt_eq_cons (i : Int) :
    ∃ d ds, renderInt i = d :: ds ∧ (d = '-' ∨ isDigit d = true) := by
  rw [renderInt, toList_toString]
  split
  · exact ⟨'-', _, rfl, Or.inl rfl⟩
  · obtain ⟨d, ds, hds⟩ := List.exists_cons_of_ne_nil
      (show Nat.toDigits 10 i.natAbs ≠ [] from Nat.toDigits_ne_nil)
    exact ⟨d, ds, hds, Or.inr (isDigit_of_mem_toDigits (hds ▸ List.mem_cons_self))⟩

theorem readNumber?_renderInt {i : Int} (hi : IsBounded i) (hrest : EndsNumber rest) :
    readNumber? (renderInt i ++ rest) = some (int i, rest) := by
  have hwhole := wholeDigits?_toDigits i.natAbs hrest.no_digit
  have hvalue := integer?_natAbs hi
  rw [renderInt, toList_toString]
  by_cases hneg : i < 0
  · rw [decide_eq_true hneg] at hvalue
    simp [readNumber?, hneg, hwhole, fraction?_of_endsNumber hrest,
      exponent?_of_endsNumber hrest, natOfDigits_toDigits, hvalue]
  · rw [decide_eq_false hneg] at hvalue
    have hsign : ∀ r, Nat.toDigits 10 i.natAbs ++ rest ≠ '-' :: r := by
      intro r hr
      obtain ⟨d, ds, hds⟩ :=
        List.exists_cons_of_ne_nil (Nat.toDigits_ne_nil (b := 10) (n := i.natAbs))
      have hd : isDigit d = true := isDigit_of_mem_toDigits (hds ▸ List.mem_cons_self)
      rw [hds, List.cons_append, List.cons.injEq] at hr
      rw [hr.1] at hd
      exact absurd hd (by decide)
    rw [if_neg hneg, readNumber?]
    · simp [hwhole, fraction?_of_endsNumber hrest, exponent?_of_endsNumber hrest,
        natOfDigits_toDigits, hvalue]
    · exact hsign

/-! ## Strings -/

theorem hexValue?_digitChar {k : Nat} (hk : k < 16) : hexValue? k.digitChar = some k := by
  interval_cases k <;> decide

/-- A control character is read back from its number. -/
theorem stringBody_code (hc : c.toNat < 32) (rest : List Char) :
    stringBody ('\\' :: 'u' :: '0' :: '0' :: Nat.digitChar (c.toNat / 16) ::
      Nat.digitChar (c.toNat % 16) :: rest) =
        (stringBody rest).map fun (s, r) => (c :: s, r) := by
  have hcode : hex4? '0' '0' (Nat.digitChar (c.toNat / 16)) (Nat.digitChar (c.toNat % 16)) =
      some c.toNat := by
    have hzero : hexValue? '0' = some 0 := by decide
    simp only [hex4?, hzero, hexValue?_digitChar (show c.toNat / 16 < 16 by omega),
      hexValue?_digitChar (show c.toNat % 16 < 16 by omega), Option.bind_eq_bind, Option.bind_some,
      Option.pure_def, Option.some.injEq]
    omega
  have hhigh : isHighSurrogate c.toNat = false := by
    rw [isHighSurrogate, Bool.and_eq_false_iff, decide_eq_false_iff_not]
    omega
  have hlow : isLowSurrogate c.toNat = false := by
    rw [isLowSurrogate, Bool.and_eq_false_iff, decide_eq_false_iff_not]
    omega
  rw [stringBody]
  simp only [hcode, hhigh, hlow, Option.bind_eq_bind, Option.bind_some, Bool.false_eq_true,
    if_false, Char.ofNat_toNat]
  cases stringBody rest <;> rfl

theorem stringBody_letter {e : Char} (he : e ≠ 'u') (hc : simpleEscape? e = some c)
    (rest : List Char) :
    stringBody ('\\' :: e :: rest) = (stringBody rest).map fun (s, r) => (c :: s, r) := by
  rw [stringBody, hc]
  · cases stringBody rest <;> rfl
  · exact fun _ _ _ _ _ hu => absurd hu he

theorem stringBody_plain (hquote : c ≠ '"') (hbackslash : c ≠ '\\') (hcode : ¬ c.toNat < 32)
    (rest : List Char) :
    stringBody (c :: rest) = (stringBody rest).map fun (s, r) => (c :: s, r) := by
  rw [stringBody, if_neg hcode]
  · cases stringBody rest <;> rfl
  · exact hquote
  · exact fun _ _ _ _ _ hc => absurd hc hbackslash
  · exact fun _ _ hc => absurd hc hbackslash

theorem stringBody_escapeChar (c : Char) (rest : List Char) :
    stringBody (escapeChar c ++ rest) = (stringBody rest).map fun (s, r) => (c :: s, r) := by
  unfold escapeChar
  simp only [beq_iff_eq]
  split_ifs with hquote hbackslash hline hreturn htab hback hfeed hcode
  · subst hquote
    exact stringBody_letter (by decide) rfl rest
  · subst hbackslash
    exact stringBody_letter (by decide) rfl rest
  · subst hline
    exact stringBody_letter (by decide) rfl rest
  · subst hreturn
    exact stringBody_letter (by decide) rfl rest
  · subst htab
    exact stringBody_letter (by decide) rfl rest
  · subst hback
    exact stringBody_letter (by decide) rfl rest
  · subst hfeed
    exact stringBody_letter (by decide) rfl rest
  · exact stringBody_code hcode rest
  · exact stringBody_plain hquote hbackslash hcode rest

theorem stringBody_render (cs rest : List Char) :
    stringBody (cs.flatMap escapeChar ++ '"' :: rest) = some (cs, rest) := by
  induction cs with
  | nil => simp [stringBody]
  | cons c cs ih =>
      rw [List.flatMap_cons, List.append_assoc, stringBody_escapeChar, ih, Option.map_some]

theorem readString?_renderString (s : String) (rest : List Char) :
    readString? (renderString s ++ rest) = some (s, rest) := by
  have hbody := stringBody_render s.toList rest
  simp only [renderString, List.cons_append, List.append_assoc, List.nil_append, readString?, hbody,
    Option.bind_eq_bind, Option.bind_some, Option.pure_def, String.ofList_toList]

end ImportAtlas.Json
