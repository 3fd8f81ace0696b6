import ImportAtlas.Proofs.Toml.String

/-!
# Values of TOML

Numbers that 63 bits hold, truth values, strings and lists of strings are read back from their
texts, the words among them where a line ends behind them.
-/

namespace ImportAtlas.Toml

open Json (isDigit isDigit_of_mem_toDigits exists_toDigits_eq_cons toList_toString hexValue?)

variable {n limit fuel : Nat} {c : Char} {cs rest word : List Char} {s : String} {ss : List String}
  {t : Toml}

/-! ## Words -/

theorem digit?_of_isDigit (hc : isDigit c = true) :
    readDigits?.digit? 10 c = some (c.toNat - '0'.toNat) := by
  have hrange := hc
  rw [isDigit, Bool.and_eq_true, decide_eq_true_eq, decide_eq_true_eq] at hrange
  have hsmall : c.toNat ≤ '9'.toNat := hrange.2
  have hvalue : hexValue? c = some (c.toNat - '0'.toNat) := by
    rw [hexValue?, if_pos (by simpa [isDigit] using hc)]
  have hnine : '9'.toNat = 57 := rfl
  have hzero : '0'.toNat = 48 := rfl
  simp only [readDigits?.digit?, hvalue, Option.bind_eq_bind, Option.bind_some]
  exact if_pos (by omega)

theorem readDigits?_go (hcs : ∀ c ∈ cs, isDigit c = true) (n : Nat) :
    readDigits?.go 10 n cs = some (Nat.ofDigitChars 10 cs n) := by
  induction cs generalizing n with
  | nil => rw [readDigits?.go, Nat.ofDigitChars_nil]
  | cons c cs ih =>
      obtain ⟨hc, hothers⟩ := List.forall_mem_cons.mp hcs
      have hnext := ih hothers (n * 10 + (c.toNat - '0'.toNat))
      rw [readDigits?.go, digit?_of_isDigit hc, Nat.ofDigitChars_cons, Nat.mul_comm 10 n]
      · exact hnext
      · rintro d ds rfl
        exact absurd hc (by decide)

theorem readDigits?_cons (hc : isDigit c = true) (hcs : ∀ c ∈ cs, isDigit c = true) :
    readDigits? 10 (c :: cs) = some (Nat.ofDigitChars 10 (c :: cs) 0) := by
  rw [readDigits?, digit?_of_isDigit hc, Nat.ofDigitChars_cons, Nat.mul_zero, Nat.zero_add]
  exact readDigits?_go hcs _

theorem readDecimal?_toDigits (n : Nat) : readDecimal? (Nat.toDigits 10 n) = some n := by
  by_cases hn : n = 0
  · rw [hn, Nat.toDigits_zero, readDecimal?]
  · obtain ⟨d, ds, hds, hd⟩ := exists_toDigits_eq_cons hn
    have hdigits : ∀ c ∈ d :: ds, isDigit c = true := fun c hc => isDigit_of_mem_toDigits (hds ▸ hc)
    obtain ⟨hfirst, hothers⟩ := List.forall_mem_cons.mp hdigits
    rw [hds, readDecimal?, readDigits?_cons hfirst hothers, ← hds, Nat.ofDigitChars_ten_toDigits]
    · exact fun hzero => hd (List.cons.inj hzero).1
    · exact fun _ hzero => hd (List.cons.inj hzero).1

theorem readInteger?_toDigits (hn : n < 0x8000000000000000) :
    readInteger? (Nat.toDigits 10 n) = some (n : Int) := by
  have hbounded : bounded? (n : Int) = some (n : Int) := by
    rw [bounded?, if_pos]
    simp only [Bool.and_eq_true, decide_eq_true_eq]
    omega
  have hdecimal := readDecimal?_toDigits n
  by_cases hzero : n = 0
  · subst hzero
    rfl
  · obtain ⟨d, ds, hds, hd⟩ := exists_toDigits_eq_cons hzero
    have hdigit : isDigit d = true := isDigit_of_mem_toDigits (hds ▸ List.mem_cons_self)
    rw [hds] at hdecimal ⊢
    rw [readInteger?, hdecimal]
    · rw [Option.bind_eq_bind, Option.bind_some, hbounded]
    all_goals
      rintro _ ⟨⟩
      first | exact hd rfl | exact absurd hdigit (by decide)

theorem ofWord?_toDigits (hn : n < 0x8000000000000000) :
    ofWord? (Nat.toDigits 10 n) = some (int n) := by
  have hletters : ∀ cs, (∃ c ∈ cs, isDigit c = false) → (Nat.toDigits 10 n == cs) = false := by
    rintro cs ⟨c, hc, hletter⟩
    refine beq_eq_false_iff_ne.mpr fun he => ?_
    have hdigit : isDigit c = true := isDigit_of_mem_toDigits (he ▸ hc)
    rw [hletter] at hdigit
    cases hdigit
  rw [ofWord?, hletters _ ⟨'t', by decide, by decide⟩, hletters _ ⟨'f', by decide, by decide⟩,
    readInteger?_toDigits hn]
  rfl

theorem takeWord_newline (hword : ∀ c ∈ word, isWordChar c = true) (rest : List Char) :
    takeWord (word ++ '\n' :: rest) = (word, '\n' :: rest) := by
  have hline : ∀ c ∈ ('\n' :: rest).head?, isWordChar c = false := by
    rintro _ ⟨⟩
    decide
  have htake := Text.takeWhile_append_of_head hword hline
  have hdrop := Text.dropWhile_append_of_head hword hline
  simp [takeWord, htake, hdrop]

theorem isWordChar_of_isDigit (hc : isDigit c = true) : isWordChar c = true := by
  have hdigit : c.isDigit = true := hc
  simp [isWordChar, Char.isAlphanum, hdigit]

/-- A word is read as the value it stands for, up to the end of its line. -/
theorem readValue?_word (hne : word ≠ []) (hword : ∀ c ∈ word, isWordChar c = true)
    (hvalue : ofWord? word = some t) (limit : Nat) (rest : List Char) :
    readValue? limit (word ++ '\n' :: rest) = some (t, '\n' :: rest) := by
  obtain ⟨c, cs, rfl⟩ := List.exists_cons_of_ne_nil hne
  have hc := hword c List.mem_cons_self
  have htake := takeWord_newline hword rest
  rw [List.cons_append] at htake ⊢
  rw [readValue?, htake]
  · simp only [hvalue, Option.bind_eq_bind, Option.bind_some]
    rfl
  all_goals
    rintro _ ⟨⟩
    exact absurd hc (by decide)

/-! ## Strings and lists of strings -/

theorem exists_renderString_eq_cons (s : String) :
    ∃ q cs, renderString s = q :: cs ∧ (q = '"' ∨ q = '\'') := by
  rw [renderString]
  cases formOf s.toList
  · exact ⟨_, _, rfl, .inl rfl⟩
  · exact ⟨_, _, rfl, .inr rfl⟩
  · exact ⟨_, _, rfl, .inl rfl⟩
  · exact ⟨_, _, rfl, .inr rfl⟩

theorem readValue?_string (limit : Nat) (s : String) (hrest : EndsString rest) :
    readValue? limit (renderString s ++ rest) = some (str s, rest) := by
  have hs := readString?_renderString s hrest
  obtain ⟨q, cs, hcs, rfl | rfl⟩ := exists_renderString_eq_cons s
  · rw [hcs, List.cons_append] at hs ⊢
    rw [readValue?, hs, Option.map_some]
  · rw [hcs, List.cons_append] at hs ⊢
    rw [readValue?, hs, Option.map_some]

/-- A character that neither blanks nor comments nor line ends start with. -/
structure IsSolid (c : Char) : Prop where
  space : isSpace c = false
  comment : c ≠ '#'
  line : c ≠ '\n'
  carriage : c ≠ '\r'

instance (c : Char) : Decidable (IsSolid c) :=
  decidable_of_iff (isSpace c = false ∧ c ≠ '#' ∧ c ≠ '\n' ∧ c ≠ '\r')
    ⟨fun h => ⟨h.1, h.2.1, h.2.2.1, h.2.2.2⟩, fun h => ⟨h.1, h.2, h.3, h.4⟩⟩

theorem skipComment_cons (hc : c ≠ '#') (rest : List Char) :
    skipComment (c :: rest) = c :: rest := by
  rw [skipComment]
  exact fun _ h => hc (List.cons.inj h).1

theorem skipLines_blanks {blanks : List Char} (hblanks : ∀ c ∈ blanks, isSpace c = true)
    (hc : IsSolid c) (fuel : Nat) (rest : List Char) :
    skipLines (fuel + 1) (blanks ++ c :: rest) = c :: rest := by
  have hspace : skipSpace (blanks ++ c :: rest) = c :: rest := by
    rw [skipSpace, List.dropWhile_append_of_pos hblanks, ← skipSpace, skipSpace_cons hc.space]
  simp only [skipLines, hspace, skipComment_cons hc.comment, newline?_cons hc.line hc.carriage]

theorem skipLines_cons (hc : IsSolid c) (fuel : Nat) (rest : List Char) :
    skipLines (fuel + 1) (c :: rest) = c :: rest :=
  skipLines_blanks (List.forall_mem_nil _) hc fuel rest

theorem skipLines_newline (fuel : Nat) (cs : List Char) :
    skipLines (fuel + 1) ('\n' :: cs) = skipLines fuel cs := by
  have hspace : skipComment (skipSpace ('\n' :: cs)) = '\n' :: cs := by
    rw [skipSpace_cons (by decide), skipComment_cons (by decide)]
  simp only [skipLines, hspace, newline?]

theorem isSolid_quote {q : Char} (hq : q = '"' ∨ q = '\'') : IsSolid q := by
  rcases hq with rfl | rfl <;> decide

theorem skipLines_renderString (s : String) (rest : List Char) :
    skipLines (('\n' :: ("    ".toList ++ (renderString s ++ rest))).length + 1)
      ('\n' :: ("    ".toList ++ (renderString s ++ rest))) = renderString s ++ rest := by
  obtain ⟨q, cs, hcs, hq⟩ := exists_renderString_eq_cons s
  rw [List.length_cons, hcs, List.cons_append, skipLines_newline,
    skipLines_blanks (by simp [isSpace]) (isSolid_quote hq)]

/-- A string in a list, with a comma behind it. -/
theorem readItems?_comma (hcs : skipLines (cs.length + 1) cs = renderString s ++ ',' :: rest) :
    readItems? (readValue? limit) (fuel + 1) cs =
      (readItems? (readValue? limit) fuel rest).map fun (ts, r) => (str s :: ts, r) := by
  have hvalue := readValue?_string limit s (endsString_cons (c := ',') (by decide) rest)
  have hcomma : skipLines ((',' :: rest).length + 1) (',' :: rest) = ',' :: rest :=
    skipLines_cons (by decide) _ _
  obtain ⟨q, tail, htail, hq⟩ := exists_renderString_eq_cons s
  rw [htail, List.cons_append] at hcs hvalue
  rw [readItems?, hcs]
  split
  next hend =>
    rw [(List.cons.inj hend).1] at hq
    exact absurd hq (by decide)
  next =>
    simp only [hvalue, Option.bind_eq_bind, Option.bind_some, hcomma]
    cases readItems? (readValue? limit) fuel rest <;> rfl

/-- A string in a list that ends behind it. -/
theorem readItems?_last (hcs : skipLines (cs.length + 1) cs = renderString s ++ ']' :: rest) :
    readItems? (readValue? limit) (fuel + 1) cs = some ([str s], rest) := by
  have hvalue := readValue?_string limit s (endsString_cons (c := ']') (by decide) rest)
  have hbracket : skipLines ((']' :: rest).length + 1) (']' :: rest) = ']' :: rest :=
    skipLines_cons (by decide) _ _
  obtain ⟨q, tail, htail, hq⟩ := exists_renderString_eq_cons s
  rw [htail, List.cons_append] at hcs hvalue
  rw [readItems?, hcs]
  split
  next hend =>
    rw [(List.cons.inj hend).1] at hq
    exact absurd hq (by decide)
  next =>
    simp only [hvalue, Option.bind_eq_bind, Option.bind_some, hbracket]
    rfl

/-- A list of strings with a line for each of them. -/
theorem readItems?_lines (limit : Nat) (hfuel : ss.length < fuel) (rest : List Char) :
    readItems? (readValue? limit) fuel
      ((ss.flatMap fun s => "\n    ".toList ++ renderString s ++ [',']) ++ '\n' :: ']' :: rest) =
        some (ss.map str, rest) := by
  induction ss generalizing fuel with
  | nil =>
      obtain ⟨fuel, rfl⟩ := Nat.exists_eq_succ_of_ne_zero (Nat.ne_zero_of_lt hfuel)
      have hskip : skipLines (('\n' :: ']' :: rest).length + 1) ('\n' :: ']' :: rest) =
          ']' :: rest := by
        rw [skipLines_newline, List.length_cons, skipLines_cons (by decide)]
      simp only [List.flatMap_nil, List.nil_append, readItems?, hskip, List.map_nil]
  | cons s ss ih =>
      obtain ⟨fuel, rfl⟩ := Nat.exists_eq_succ_of_ne_zero (Nat.ne_zero_of_lt hfuel)
      have hnext := ih (Nat.lt_of_succ_lt_succ hfuel)
      generalize hmore : (ss.flatMap fun s => "\n    ".toList ++ renderString s ++ [',']) ++
        '\n' :: ']' :: rest = more at hnext
      have htext : ((s :: ss).flatMap fun s => "\n    ".toList ++ renderString s ++ [',']) ++
            '\n' :: ']' :: rest =
          '\n' :: ("    ".toList ++ (renderString s ++ ',' :: more)) := by
        rw [List.flatMap_cons, List.append_assoc, hmore]
        simp
      rw [htext, readItems?_comma (skipLines_renderString s (',' :: more)), hnext,
        Option.map_some, List.map_cons]

theorem length_le_length_lines (ss : List String) :
    ss.length ≤ (ss.flatMap fun s => "\n    ".toList ++ renderString s ++ [',']).length := by
  induction ss with
  | nil => exact Nat.zero_le _
  | cons s ss ih =>
      rw [List.flatMap_cons]
      simp only [List.length_append, List.length_cons]
      omega

theorem readValue?_strings (limit : Nat) (ss : List String) (rest : List Char) :
    readValue? (limit + 1) (renderStrings ss ++ rest) = some (array (ss.map str), rest) := by
  match ss with
  | [] =>
      have hskip : skipLines ((']' :: rest).length + 1) (']' :: rest) = ']' :: rest :=
        skipLines_cons (by decide) _ _
      simp only [renderStrings, List.cons_append, List.nil_append, readValue?, readItems?, hskip,
        Option.map_some, List.map_nil]
  | [s] =>
      obtain ⟨q, cs, hcs, hq⟩ := exists_renderString_eq_cons s
      have hskip (fuel : Nat) : skipLines (fuel + 1) (renderString s ++ ']' :: rest) =
          renderString s ++ ']' :: rest := by
        rw [hcs, List.cons_append, skipLines_cons (isSolid_quote hq)]
      simp only [renderStrings, List.cons_append, List.append_assoc, List.nil_append, readValue?,
        readItems?_last (hskip _), Option.map_some, List.map_cons, List.map_nil]
  | s :: s' :: ss =>
      have hlength := length_le_length_lines (s :: s' :: ss)
      rw [renderStrings, List.cons_append, List.cons_append, List.append_assoc, readValue?,
        show ['\n', ']'] ++ rest = '\n' :: ']' :: rest from rfl, readItems?_lines]
      · rfl
      · simp only [List.length_append]
        omega
      · simp
      · simp

end ImportAtlas.Toml
