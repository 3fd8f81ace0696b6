import ImportAtlas.Proofs.Json.Scalar
import ImportAtlas.Toml.Printer
import ImportAtlas.Toml.Reader

/-!
# Strings of TOML

A string is read back from whichever of the four forms it is written in. Over several lines up to
two quotes may stand in a row, also right before the three that close the string.
-/

namespace ImportAtlas.Toml

open Json (hexValue? hexValue?_digitChar)

variable {c q : Char} {cs rest tail : List Char} {run k fuel : Nat} {overLines hasEscapes : Bool}

/-- A text that goes on with no quote of either kind. -/
def EndsString (rest : List Char) : Prop := ∀ c ∈ rest.head?, c ≠ '"' ∧ c ≠ '\''

theorem endsString_cons (hc : c ≠ '"' ∧ c ≠ '\'') (rest : List Char) : EndsString (c :: rest) := by
  rintro _ ⟨⟩
  exact hc

/-! ## Escapes -/

theorem hexValue?_hexDigit (hk : k < 16) : hexValue? (hexDigit k) = some k := by
  interval_cases k <;> decide

theorem skipSpace_cons (hc : isSpace c = false) (rest : List Char) :
    skipSpace (c :: rest) = c :: rest := by
  rw [skipSpace, List.dropWhile_cons_of_neg (by simp [hc])]

theorem newline?_cons (hline : c ≠ '\n') (hreturn : c ≠ '\r') (rest : List Char) :
    newline? (c :: rest) = none := by
  rw [newline?]
  · exact fun _ hcs => hline (List.cons.inj hcs).1
  · exact fun _ hcs => hreturn (List.cons.inj hcs).1

theorem continuation?_cons (hspace : isSpace c = false) (hline : c ≠ '\n') (hreturn : c ≠ '\r')
    (rest : List Char) : continuation? (c :: rest) = none := by
  rw [continuation?, skipSpace_cons hspace, newline?_cons hline hreturn, Option.map_none]

/-- How a character of a string in quotes is written, and how many unescaped quotes stand in a row
behind it. -/
inductive Piece (overLines : Bool) (run : Nat) : Char → List Char → Nat → Prop
  | quote (hlines : overLines = true) (hrun : run < 2) : Piece overLines run '"' ['"'] (run + 1)
  | escape {c : Char} {code : List Char} (hread : ∀ rest, escape? (code ++ rest) = some (c, rest))
      (hplain : ∀ rest, continuation? (code ++ rest) = none) :
      Piece overLines run c ('\\' :: code) 0
  | newline (hlines : overLines = true) : Piece overLines run '\n' ['\n'] 0
  | plain {c : Char} (hquote : c ≠ '"') (hbackslash : c ≠ '\\') (hcontrol : isControl c = false) :
      Piece overLines run c [c] 0

theorem piece_code (hc : needsCode c = true) :
    Piece overLines run c
      ['\\', 'u', '0', '0', hexDigit (c.toNat / 16), hexDigit (c.toNat % 16)] 0 := by
  have hsmall : c.toNat < 128 := by
    simp only [needsCode, Bool.or_eq_true, Bool.and_eq_true, decide_eq_true_eq, beq_iff_eq] at hc
    rcases hc with ⟨⟨hc, _⟩, _⟩ | rfl
    · omega
    · decide
  have hzero : hexValue? '0' = some 0 := by decide
  have hcode :
      charOfHex? ['0', '0', hexDigit (c.toNat / 16), hexDigit (c.toNat % 16)] = some c := by
    have hvalue : c.toNat / 16 * 16 + c.toNat % 16 = c.toNat := Nat.div_add_mod' _ _
    simp [charOfHex?, hzero, hexValue?_hexDigit (show c.toNat / 16 < 16 by omega),
      hexValue?_hexDigit (show c.toNat % 16 < 16 by omega), hvalue]
    omega
  refine .escape (fun rest => ?_) fun rest =>
    continuation?_cons (by decide) (by decide) (by decide) _
  simp [escape?, hcode]

theorem piece_letter {e : Char} (hread : ∀ rest, escape? (e :: rest) = some (c, rest))
    (he : e ∉ [' ', '\t', '\n', '\r']) : Piece overLines run c ['\\', e] 0 := by
  simp only [List.mem_cons, List.not_mem_nil, or_false, not_or] at he
  obtain ⟨hspace, htab, hline, hreturn⟩ := he
  exact .escape hread (continuation?_cons (by simp [isSpace, hspace, htab]) hline hreturn)

theorem isControl_eq_false (hline : c ≠ '\n') (hcode : needsCode c = false) :
    isControl c = false := by
  simpa [needsCode, isControl, hline] using hcode

theorem ne_of_isControl_eq_false (h : isControl c = false) : c ≠ '\n' ∧ c ≠ '\r' := by
  constructor
  · rintro rfl
    exact absurd h (by decide)
  · rintro rfl
    exact absurd h (by decide)

theorem exists_piece (overLines : Bool) (run : Nat) (c : Char) (cs : List Char) :
    ∃ piece run', Piece overLines run c piece run' ∧
      escapeString overLines run (c :: cs) = piece ++ escapeString overLines run' cs := by
  rw [escapeString]
  simp only [beq_iff_eq, Bool.and_eq_true]
  split_ifs with hquote hlines hrun hrun hbackslash htab hlines hline hreturn hback hfeed hcode
  · subst hquote
    exact ⟨_, _, .quote hlines hrun, rfl⟩
  · subst hquote
    exact ⟨_, _, piece_letter (fun _ => rfl) (by decide), rfl⟩
  · exact absurd hrun (Nat.not_lt_zero run)
  · subst hquote
    exact ⟨_, _, piece_letter (fun _ => rfl) (by decide), rfl⟩
  · subst hbackslash
    exact ⟨_, _, piece_letter (fun _ => rfl) (by decide), rfl⟩
  · subst htab
    exact ⟨_, _, piece_letter (fun _ => rfl) (by decide), rfl⟩
  · obtain ⟨rfl, hlines⟩ := hlines
    exact ⟨_, _, .newline hlines, rfl⟩
  · subst hline
    exact ⟨_, _, piece_letter (fun _ => rfl) (by decide), rfl⟩
  · subst hreturn
    exact ⟨_, _, piece_letter (fun _ => rfl) (by decide), rfl⟩
  · subst hback
    exact ⟨_, _, piece_letter (fun _ => rfl) (by decide), rfl⟩
  · subst hfeed
    exact ⟨_, _, piece_letter (fun _ => rfl) (by decide), rfl⟩
  · exact ⟨_, _, piece_code hcode, rfl⟩
  · have hcontrol := isControl_eq_false hline (by simpa using hcode)
    exact ⟨_, _, .plain hquote hbackslash hcontrol, rfl⟩

theorem length_le_length_escapeString (overLines : Bool) (run : Nat) (cs : List Char) :
    cs.length ≤ (escapeString overLines run cs).length := by
  induction cs generalizing run with
  | nil => exact Nat.zero_le _
  | cons c cs ih =>
      obtain ⟨piece, run', hpiece, htext⟩ := exists_piece overLines run c cs
      have hne : 0 < piece.length := by cases hpiece <;> exact Nat.succ_pos _
      have hrest := ih run'
      rw [htext, List.length_append, List.length_cons]
      omega

/-! ## On one line -/

theorem basicBody_escapeString (hfuel : cs.length < fuel) (run : Nat) (rest : List Char) :
    basicBody fuel (escapeString false run cs ++ '"' :: rest) = some (cs, rest) := by
  induction cs generalizing fuel run with
  | nil =>
      obtain ⟨fuel, rfl⟩ := Nat.exists_eq_succ_of_ne_zero (Nat.ne_zero_of_lt hfuel)
      rw [escapeString, List.nil_append, basicBody]
  | cons c cs ih =>
      obtain ⟨fuel, rfl⟩ := Nat.exists_eq_succ_of_ne_zero (Nat.ne_zero_of_lt hfuel)
      obtain ⟨piece, run', hpiece, htext⟩ := exists_piece false run c cs
      have hrest := ih (Nat.lt_of_succ_lt_succ hfuel) run'
      rw [htext, List.append_assoc]
      cases hpiece with
      | quote hlines => cases hlines
      | newline hlines => cases hlines
      | escape hread _ => simp [basicBody, hread, hrest]
      | plain hquote hbackslash hcontrol => simp [basicBody, hcontrol, hrest]

theorem literalBody_append (hcs : ∀ c ∈ cs, c ≠ '\'' ∧ isControl c = false) (rest : List Char) :
    literalBody (cs ++ '\'' :: rest) = some (cs, rest) := by
  induction cs with
  | nil => rfl
  | cons c cs ih =>
      obtain ⟨⟨hquote, hcontrol⟩, hothers⟩ := List.forall_mem_cons.mp hcs
      simp [literalBody, hcontrol, ih hothers]

/-! ## Over several lines -/

theorem length_takeWhile_replicate (k : Nat) (htail : ∀ c ∈ tail.head?, c ≠ q) :
    ((List.replicate k q ++ tail).takeWhile (· == q)).length = k := by
  rw [Text.takeWhile_append_of_head (by simp) (by simpa using htail), List.length_replicate]

theorem closing?_replicate (hk : k ≤ 2) (hrest : ∀ c ∈ rest.head?, c ≠ q) :
    closing? q (List.replicate k q ++ q :: q :: q :: rest) = some (List.replicate k q, rest) := by
  have htext : List.replicate k q ++ q :: q :: q :: rest = List.replicate (k + 3) q ++ rest := by
    rw [List.replicate_add, List.append_assoc]
    rfl
  have hextra : min (k + 3 - 3) 2 = k := by omega
  simp only [closing?, htext, length_takeWhile_replicate (k + 3) hrest, hextra]
  rw [if_neg (by omega), List.drop_left' (by rw [List.length_replicate]; omega)]

theorem closing?_eq_none (hk : k ≤ 2) (hc : c ≠ q) (tail : List Char) :
    closing? q (List.replicate k q ++ c :: tail) = none := by
  have hhead : ∀ d ∈ (c :: tail).head?, d ≠ q := by
    rintro _ ⟨⟩
    exact hc
  simp only [closing?, length_takeWhile_replicate k hhead]
  rw [if_pos (by omega)]

/-- A written string is a short run of quotes, or has such a run in front of something else. -/
theorem escapeString_leads (hrun : run ≤ 2) (cs : List Char) :
    (∃ k, k + run ≤ 2 ∧ cs = List.replicate k '"' ∧ escapeString true run cs = cs) ∨
      ∃ k c tail, k + run ≤ 2 ∧ c ≠ '"' ∧
        escapeString true run cs = List.replicate k '"' ++ c :: tail := by
  induction cs generalizing run with
  | nil => exact .inl ⟨0, by omega, rfl, rfl⟩
  | cons c cs ih =>
      obtain ⟨piece, run', hpiece, htext⟩ := exists_piece true run c cs
      rw [htext]
      cases hpiece with
      | quote _ hshort =>
          have hrun' : run + 1 ≤ 2 := by omega
          rcases ih hrun' with
            ⟨k, hk, hcs, hsame⟩ | ⟨k, d, tail, hk, hd, hleads⟩
          · refine .inl ⟨k + 1, by omega, by rw [hcs]; rfl, by rw [hsame]; rfl⟩
          · exact .inr ⟨k + 1, d, tail, by omega, hd, by rw [hleads]; rfl⟩
      | escape => exact .inr ⟨0, '\\', _, by omega, by decide, rfl⟩
      | newline => exact .inr ⟨0, '\n', _, by omega, by decide, rfl⟩
      | plain hquote => exact .inr ⟨0, c, _, by omega, hquote, rfl⟩

theorem linesBody_of_closing {r : List Char × List Char} (h : closing? q cs = some r) (fuel : Nat) :
    linesBody q hasEscapes (fuel + 1) cs = some r := by
  simp only [linesBody, h]

theorem linesBody_newline (h : closing? q ('\n' :: cs) = none) (fuel : Nat) :
    linesBody q hasEscapes (fuel + 1) ('\n' :: cs) =
      (linesBody q hasEscapes fuel cs).map fun (s, r) => ('\n' :: s, r) := by
  rw [linesBody, h]
  simp only [newline?]
  cases linesBody q hasEscapes fuel cs <;> rfl

theorem linesBody_plain (h : closing? q (c :: cs) = none)
    (hbackslash : hasEscapes = true → c ≠ '\\') (hcontrol : isControl c = false) (fuel : Nat) :
    linesBody q hasEscapes (fuel + 1) (c :: cs) =
      (linesBody q hasEscapes fuel cs).map fun (s, r) => (c :: s, r) := by
  obtain ⟨hline, hreturn⟩ := ne_of_isControl_eq_false hcontrol
  have hescape : (c == '\\' && hasEscapes) = false := by
    cases hasEscapes with
    | false => exact Bool.and_false _
    | true => simp [hbackslash rfl]
  rw [linesBody, h]
  simp only [hescape, newline?_cons hline hreturn, hcontrol, Bool.false_eq_true, if_false]
  cases linesBody q hasEscapes fuel cs <;> rfl

theorem linesBody_escape {code : List Char} (h : closing? q ('\\' :: (code ++ cs)) = none)
    (hread : ∀ rest, escape? (code ++ rest) = some (c, rest))
    (hplain : ∀ rest, continuation? (code ++ rest) = none) (fuel : Nat) :
    linesBody q true (fuel + 1) ('\\' :: (code ++ cs)) =
      (linesBody q true fuel cs).map fun (s, r) => (c :: s, r) := by
  rw [linesBody, h]
  simp only [beq_self_eq_true, Bool.and_self, if_true, hplain, hread, Option.bind_eq_bind,
    Option.bind_some]
  cases linesBody q true fuel cs <;> rfl

theorem linesBody_escapeString (hfuel : cs.length < fuel) (hrun : run ≤ 2)
    (hrest : ∀ c ∈ rest.head?, c ≠ '"') :
    linesBody '"' true fuel (escapeString true run cs ++ '"' :: '"' :: '"' :: rest) =
      some (cs, rest) := by
  induction cs generalizing fuel run with
  | nil =>
      obtain ⟨fuel, rfl⟩ := Nat.exists_eq_succ_of_ne_zero (Nat.ne_zero_of_lt hfuel)
      exact linesBody_of_closing (closing?_replicate (k := 0) (by omega) hrest) fuel
  | cons c cs ih =>
      obtain ⟨fuel, rfl⟩ := Nat.exists_eq_succ_of_ne_zero (Nat.ne_zero_of_lt hfuel)
      -- A run of quotes that ends the text is taken together with the three that close it.
      rcases escapeString_leads hrun (c :: cs) with
        ⟨k, hk, hcs, hsame⟩ | ⟨k, d, tail, hk, hd, hleads⟩
      · rw [hsame, hcs]
        exact linesBody_of_closing (closing?_replicate (by omega) hrest) fuel
      · have hopen : closing? '"'
            (escapeString true run (c :: cs) ++ '"' :: '"' :: '"' :: rest) = none := by
          rw [hleads, List.append_assoc, List.cons_append]
          exact closing?_eq_none (by omega) hd _
        obtain ⟨piece, run', hpiece, htext⟩ := exists_piece true run c cs
        have hrun' : run' ≤ 2 := by cases hpiece <;> omega
        have hnext := ih (Nat.lt_of_succ_lt_succ hfuel) hrun'
        rw [htext, List.append_assoc] at hopen ⊢
        cases hpiece with
        | quote _ hshort =>
            rw [List.singleton_append] at hopen ⊢
            rw [linesBody_plain hopen (fun _ => by decide) (by decide), hnext, Option.map_some]
        | escape hread hplain =>
            rw [List.cons_append, linesBody_escape hopen hread hplain, hnext, Option.map_some]
        | newline =>
            rw [List.singleton_append] at hopen ⊢
            rw [linesBody_newline hopen, hnext, Option.map_some]
        | plain hquote hbackslash hcontrol =>
            rw [List.singleton_append] at hopen ⊢
            rw [linesBody_plain hopen (fun _ => hbackslash) hcontrol, hnext, Option.map_some]

/-- A text without three quotes in a row is a short run of quotes, or has such a run in front of
something else. -/
theorem exists_short_run (hcs : ¬ List.replicate 3 q <:+: cs) :
    (∃ k ≤ 2, cs = List.replicate k q) ∨
      ∃ k c tail, k ≤ 2 ∧ c ≠ q ∧ cs = List.replicate k q ++ c :: tail := by
  have hrun : cs.takeWhile (· == q) = List.replicate (cs.takeWhile (· == q)).length q :=
    List.eq_replicate_of_mem fun c hc =>
      eq_of_beq (List.mem_takeWhile_imp (p := (· == q)) hc)
  have hshort : (cs.takeWhile (· == q)).length ≤ 2 := by
    by_contra hlong
    have hthree : List.replicate 3 q <+: cs.takeWhile (· == q) := by
      rw [hrun, ← Nat.add_sub_of_le (show 3 ≤ (cs.takeWhile (· == q)).length by omega),
        List.replicate_add]
      exact List.prefix_append _ _
    exact hcs (hthree.trans (List.takeWhile_prefix _)).isInfix
  have hsplit := List.takeWhile_append_dropWhile (p := (· == q)) (l := cs)
  cases hrest : cs.dropWhile (· == q) with
  | nil =>
      refine .inl ⟨_, hshort, ?_⟩
      rw [hrest, List.append_nil] at hsplit
      rw [← hrun, hsplit]
  | cons c tail =>
      refine .inr ⟨_, c, tail, hshort, ?_, ?_⟩
      · have hhead := List.head_dropWhile_not (· == q) (l := cs) (by rw [hrest]; simp)
        simpa [hrest] using hhead
      · rw [← hrun, ← hrest, hsplit]

theorem linesBody_append (hfuel : cs.length < fuel) (hrest : ∀ c ∈ rest.head?, c ≠ q)
    (hcodes : ∀ c ∈ cs, needsCode c = false) (hruns : ¬ List.replicate 3 q <:+: cs) :
    linesBody q false fuel (cs ++ q :: q :: q :: rest) = some (cs, rest) := by
  induction cs generalizing fuel with
  | nil =>
      obtain ⟨fuel, rfl⟩ := Nat.exists_eq_succ_of_ne_zero (Nat.ne_zero_of_lt hfuel)
      exact linesBody_of_closing (closing?_replicate (k := 0) (by omega) hrest) fuel
  | cons c cs ih =>
      obtain ⟨fuel, rfl⟩ := Nat.exists_eq_succ_of_ne_zero (Nat.ne_zero_of_lt hfuel)
      rcases exists_short_run hruns with ⟨k, hk, hcs⟩ | ⟨k, d, tail, hk, hd, hleads⟩
      · rw [hcs]
        exact linesBody_of_closing (closing?_replicate hk hrest) fuel
      · have hopen : closing? q (c :: (cs ++ q :: q :: q :: rest)) = none := by
          rw [← List.cons_append, hleads, List.append_assoc, List.cons_append]
          exact closing?_eq_none hk hd _
        obtain ⟨hcode, hothers⟩ := List.forall_mem_cons.mp hcodes
        have hnext := ih (Nat.lt_of_succ_lt_succ hfuel) hothers
          fun h => hruns (h.trans (List.suffix_cons c cs).isInfix)
        rw [List.cons_append]
        by_cases hline : c = '\n'
        · subst hline
          rw [linesBody_newline hopen, hnext, Option.map_some]
        · have hcontrol : isControl c = false := isControl_eq_false hline hcode
          rw [linesBody_plain hopen (fun h => by cases h) hcontrol, hnext, Option.map_some]

/-! ## The form of a string -/

theorem longestRun_go_cons_self (q : Char) (best run : Nat) (cs : List Char) :
    longestRun.go q best run (q :: cs) = longestRun.go q (max best (run + 1)) (run + 1) cs := by
  simp [longestRun.go]

theorem le_longestRun_go (q : Char) (best run : Nat) (cs : List Char) :
    best ≤ longestRun.go q best run cs := by
  induction cs generalizing best run with
  | nil => exact le_rfl
  | cons c cs ih =>
      rw [longestRun.go]
      split
      · exact (le_max_left _ _).trans (ih _ _)
      · exact ih _ _

theorem add_le_longestRun_go (q : Char) (best run : Nat) {k : Nat} (hk : 0 < k) (cs : List Char) :
    run + k ≤ longestRun.go q best run (List.replicate k q ++ cs) := by
  induction k generalizing best run with
  | zero => cases hk
  | succ k ih =>
      rw [List.replicate_succ, List.cons_append, longestRun_go_cons_self]
      rcases Nat.eq_zero_or_pos k with rfl | hpos
      · exact (le_max_right _ _).trans (le_longestRun_go _ _ _ _)
      · have hrest := ih (max best (run + 1)) (run + 1) hpos
        omega

theorem le_longestRun (h : List.replicate k q <:+: cs) : k ≤ longestRun q cs := by
  obtain ⟨front, back, rfl⟩ := h
  rcases Nat.eq_zero_or_pos k with rfl | hpos
  · exact Nat.zero_le _
  have hgo (best run : Nat) :
      k ≤ longestRun.go q best run (front ++ (List.replicate k q ++ back)) := by
    induction front generalizing best run with
    | nil => exact (Nat.le_add_left k run).trans (add_le_longestRun_go q best run hpos back)
    | cons c front ih =>
        rw [List.cons_append, longestRun.go]
        split
        · exact ih _ _
        · exact ih _ _
  rw [List.append_assoc]
  exact hgo 0 0

theorem not_mem_of_longestRun (h : longestRun q cs = 0) : q ∉ cs := by
  intro hq
  obtain ⟨front, back, rfl⟩ := List.append_of_mem hq
  have hrun : 1 ≤ longestRun q (front ++ q :: back) :=
    le_longestRun ⟨front, back, by simp⟩
  omega

/-- What a form needs to hold of a text for the text to be read back from it. -/
def StringForm.Holds (cs : List Char) : StringForm → Prop
  | .basic | .basicLines => True
  | .literal => ∀ c ∈ cs, c ≠ '\'' ∧ isControl c = false
  | .literalLines => (∀ c ∈ cs, needsCode c = false) ∧ ¬ List.replicate 3 '\'' <:+: cs

theorem holds_formOf (cs : List Char) : (formOf cs).Holds cs := by
  have hplain (hcodes : cs.any needsCode = false) : ∀ c ∈ cs, needsCode c = false := by
    simpa using hcodes
  unfold formOf
  simp only [Bool.and_eq_true, Bool.not_eq_true', beq_iff_eq, decide_eq_true_eq]
  split_ifs with hbasic hliteral hlines hliteralLines hnewline
  · trivial
  · obtain ⟨⟨hcodes, hruns⟩, hnewline⟩ := hliteral
    intro c hc
    refine ⟨fun hquote => not_mem_of_longestRun hruns (hquote ▸ hc), ?_⟩
    have hline : '\n' ∉ cs := by simpa using hnewline
    exact isControl_eq_false (fun he => hline (he ▸ hc)) (hplain hcodes c hc)
  · trivial
  · obtain ⟨hcodes, hruns⟩ := hliteralLines
    refine ⟨hplain hcodes, fun hthree => ?_⟩
    have hlong := le_longestRun hthree
    omega
  · trivial
  · trivial

/-! ## Strings -/

theorem dropFirstNewline_append {body : List Char} (h : '\n' ∉ cs → newline? body = none) :
    dropFirstNewline ((if cs.contains '\n' then ['\n'] else []) ++ body) = body := by
  by_cases hline : '\n' ∈ cs
  · rw [if_pos (by simpa using hline)]
    rfl
  · rw [if_neg (by simpa using hline), List.nil_append, dropFirstNewline, h hline, Option.getD_none]

theorem newline?_escapeString (hcs : '\n' ∉ cs) (run : Nat) (rest : List Char) :
    newline? (escapeString true run cs ++ '"' :: rest) = none := by
  cases cs with
  | nil => rfl
  | cons c cs =>
      obtain ⟨piece, run', hpiece, htext⟩ := exists_piece true run c cs
      rw [htext]
      cases hpiece with
      | quote => rfl
      | escape => rfl
      | newline => exact absurd List.mem_cons_self hcs
      | plain _ _ hcontrol =>
          obtain ⟨hline, hreturn⟩ := ne_of_isControl_eq_false hcontrol
          exact newline?_cons hline hreturn _

theorem newline?_append (hcs : '\n' ∉ cs) (hcodes : ∀ c ∈ cs, needsCode c = false)
    (rest : List Char) : newline? (cs ++ '\'' :: rest) = none := by
  cases cs with
  | nil => rfl
  | cons c cs =>
      have hline : c ≠ '\n' := fun hc => hcs (hc ▸ List.mem_cons_self)
      have hcontrol := isControl_eq_false hline (hcodes c List.mem_cons_self)
      exact newline?_cons hline (ne_of_isControl_eq_false hcontrol).2 _

/-- A string on one line does not start as one of several lines does. -/
theorem escapeString_append_ne (run : Nat) (hrest : ∀ c ∈ rest.head?, c ≠ '"') (tail : List Char) :
    escapeString false run cs ++ '"' :: rest ≠ '"' :: '"' :: tail := by
  cases cs with
  | nil =>
      rintro ⟨⟩
      exact hrest '"' rfl rfl
  | cons c cs =>
      obtain ⟨piece, run', hpiece, htext⟩ := exists_piece false run c cs
      rw [htext]
      cases hpiece with
      | quote hlines => cases hlines
      | newline hlines => cases hlines
      | escape => rintro ⟨⟩
      | plain hquote => exact fun h => hquote (List.cons.inj h).1

theorem readString?_renderStringAs {form : StringForm} (h : form.Holds cs)
    (hrest : EndsString rest) :
    readString? (renderStringAs form cs ++ rest) = some (String.ofList cs, rest) := by
  have hquote : ∀ c ∈ rest.head?, c ≠ '"' := fun c hc => (hrest c hc).1
  have hapostrophe : ∀ c ∈ rest.head?, c ≠ '\'' := fun c hc => (hrest c hc).2
  cases form with
  | basic =>
      have hlength := length_le_length_escapeString false 0 cs
      have hfuel : cs.length < (escapeString false 0 cs ++ '"' :: rest).length + 1 := by
        rw [List.length_append]
        omega
      have hbody := basicBody_escapeString hfuel 0 rest
      simp only [renderStringAs, List.cons_append, List.append_assoc, List.nil_append]
      rw [readString?, hbody, Option.map_some]
      exact escapeString_append_ne 0 hquote
  | literal =>
      have hbody := literalBody_append h rest
      simp only [renderStringAs, List.cons_append, List.append_assoc, List.nil_append]
      rw [readString?, hbody, Option.map_some]
      intro tail htail
      cases cs with
      | nil => exact hapostrophe '\'' (by rw [(List.cons.inj htail).2]; rfl) rfl
      | cons c cs => exact (h c List.mem_cons_self).1 (List.cons.inj htail).1
  | basicLines =>
      have hlength := length_le_length_escapeString true 0 cs
      have hfirst := dropFirstNewline_append fun hline : '\n' ∉ cs =>
        newline?_escapeString hline 0 ('"' :: '"' :: rest)
      simp only [renderStringAs, List.cons_append, List.append_assoc, List.nil_append]
      rw [readString?, hfirst, linesBody_escapeString _ (by omega) hquote, Option.map_some]
      simp only [List.length_append, List.length_cons]
      omega
  | literalLines =>
      have hfirst := dropFirstNewline_append fun hline : '\n' ∉ cs =>
        newline?_append hline h.1 ('\'' :: '\'' :: rest)
      simp only [renderStringAs, List.cons_append, List.append_assoc, List.nil_append]
      rw [readString?, hfirst, linesBody_append _ hapostrophe h.1 h.2, Option.map_some]
      simp only [List.length_append, List.length_cons]
      omega

theorem readString?_renderString (s : String) (hrest : EndsString rest) :
    readString? (renderString s ++ rest) = some (s, rest) := by
  rw [renderString, readString?_renderStringAs (holds_formOf s.toList) hrest, String.ofList_toList]

end ImportAtlas.Toml
