import ImportAtlas.Proofs.Toml.Value

/-!
# Documents of TOML

A document is written line by line, each with a key and its value or with the header of a table.
Reading it does with the tables so far what each line says.
-/

namespace ImportAtlas.Toml

open Json (isDigit_of_mem_toDigits toList_toString)

variable {key : String} {cs rest body : List Char} {t : Toml}

/-! ## Keys -/

/-- A key that needs no quotes. -/
def IsBareKey (key : String) : Prop := key ≠ "" ∧ ∀ c ∈ key.toList, isKeyChar c = true

theorem isSolid_of_isKeyChar {c : Char} (hc : isKeyChar c = true) :
    IsSolid c ∧ c ≠ '"' ∧ c ≠ '\'' ∧ c ≠ '[' := by
  have hne {d : Char} (hd : isKeyChar d = false) : c ≠ d := by
    rintro rfl
    rw [hd] at hc
    cases hc
  have hspace : isSpace c = false := by
    rw [isSpace, Bool.or_eq_false_iff, beq_eq_false_iff_ne, beq_eq_false_iff_ne]
    exact ⟨hne (by decide), hne (by decide)⟩
  exact ⟨⟨hspace, hne (by decide), hne (by decide), hne (by decide)⟩, hne (by decide),
    hne (by decide), hne (by decide)⟩

theorem IsBareKey.exists_cons (h : IsBareKey key) :
    ∃ c cs, key.toList = c :: cs ∧ isKeyChar c = true := by
  obtain ⟨c, cs, hcs⟩ := List.exists_cons_of_ne_nil
    (show key.toList ≠ [] from fun hnil => h.1 (String.toList_eq_nil_iff.mp hnil))
  exact ⟨c, cs, hcs, h.2 c (hcs ▸ List.mem_cons_self)⟩

theorem readKey?_bare (h : IsBareKey key) (hrest : ∀ c ∈ rest.head?, isKeyChar c = false) :
    readKey? (key.toList ++ rest) = some (key, rest) := by
  obtain ⟨c, cs, hcs, hc⟩ := h.exists_cons
  obtain ⟨_, hquote, hapostrophe, _⟩ := isSolid_of_isKeyChar hc
  have htake := Text.takeWhile_append_of_head h.2 hrest
  have hdrop := Text.dropWhile_append_of_head h.2 hrest
  have hkey : (key.toList.isEmpty) = false := by rw [hcs]; rfl
  have hne {q : Char} (hq : c ≠ q) (tail : List Char) : key.toList ++ rest ≠ q :: tail := by
    rw [hcs, List.cons_append]
    exact fun he => hq (List.cons.inj he).1
  rw [readKey?]
  · simp only [htake, hdrop, hkey, String.ofList_toList]
    rfl
  · exact hne hquote
  · exact hne hapostrophe

theorem skipSpace_bare (h : IsBareKey key) (rest : List Char) :
    skipSpace (key.toList ++ rest) = key.toList ++ rest := by
  obtain ⟨c, cs, hcs, hc⟩ := h.exists_cons
  rw [hcs, List.cons_append, skipSpace_cons (isSolid_of_isKeyChar hc).1.space]

/-- A single key, up to what stands behind it and the blanks. -/
theorem readKeys?_bare (h : IsBareKey key) (hrest : ∀ c ∈ rest.head?, isKeyChar c = false)
    (hdot : (skipSpace rest).head? ≠ some '.') (fuel : Nat) :
    readKeys? (fuel + 1) (key.toList ++ rest) = some ([key], skipSpace rest) := by
  simp only [readKeys?, skipSpace_bare h, readKey?_bare h hrest, Option.bind_eq_bind,
    Option.bind_some]
  split
  next hsplit => exact absurd (by rw [hsplit]; rfl) hdot
  next => rfl

/-! ## Lines -/

/-- A line of a document: a key with the text and the meaning of its value, or the header of a
table. -/
inductive Line where
  | pair (key : String) (text : List Char) (value : Toml)
  | header (key : String)

namespace Line

def render : Line → List Char
  | pair key text _ => renderPair key text
  | header key => renderHeader key

/-- What a line does with the tables so far. -/
def apply (d : Document) : Line → Option Document
  | pair key _ value =>
    (d.root.alterAt false (insertPair? · ([key], value)) d.path).map fun root => ⟨root, d.path⟩
  | header key => (d.root.openTable [] key).map fun root => ⟨root, [key]⟩

/-- A line whose key needs no quotes and whose value is read from its text. -/
def IsReadable : Line → Prop
  | pair key text value => IsBareKey key ∧ (∃ c cs, text = c :: cs ∧ isSpace c = false) ∧
      ∀ rest, readValue? maxDepth (text ++ '\n' :: rest) = some (value, '\n' :: rest)
  | header key => IsBareKey key

end Line

namespace Line

theorem isReadable_word (hkey : IsBareKey key) (hne : body ≠ [])
    (hword : ∀ c ∈ body, isWordChar c = true) (hvalue : ofWord? body = some t) :
    (pair key body t).IsReadable := by
  refine ⟨hkey, ?_, readValue?_word hne hword hvalue _⟩
  obtain ⟨c, cs, rfl⟩ := List.exists_cons_of_ne_nil hne
  have hc := hword c List.mem_cons_self
  refine ⟨c, cs, rfl, ?_⟩
  rw [isSpace, Bool.or_eq_false_iff, beq_eq_false_iff_ne, beq_eq_false_iff_ne]
  constructor
  all_goals
    rintro rfl
    exact absurd hc (by decide)

theorem isReadable_nat (hkey : IsBareKey key) {n : Nat} (hn : n < 0x8000000000000000) :
    (pair key (renderNat n) (int n)).IsReadable := by
  rw [renderNat, toList_toString]
  exact isReadable_word hkey Nat.toDigits_ne_nil
    (fun c hc => isWordChar_of_isDigit (isDigit_of_mem_toDigits hc)) (ofWord?_toDigits hn)

theorem isReadable_bool (hkey : IsBareKey key) (b : Bool) :
    (pair key (renderBool b) (bool b)).IsReadable := by
  cases b with
  | false =>
      rw [show renderBool false = ['f', 'a', 'l', 's', 'e'] from by simp [renderBool]]
      exact isReadable_word hkey (by decide) (List.all_eq_true.mp rfl) rfl
  | true =>
      rw [show renderBool true = ['t', 'r', 'u', 'e'] from by simp [renderBool]]
      exact isReadable_word hkey (by decide) (List.all_eq_true.mp rfl) rfl

theorem isReadable_str (hkey : IsBareKey key) (s : String) :
    (pair key (renderString s) (str s)).IsReadable := by
  refine ⟨hkey, ?_, fun rest => readValue?_string _ s (endsString_cons (by decide) _)⟩
  obtain ⟨q, cs, hcs, hq⟩ := exists_renderString_eq_cons s
  exact ⟨q, cs, hcs, (isSolid_quote hq).space⟩

theorem isReadable_strings (hkey : IsBareKey key) (ss : List String) :
    (pair key (renderStrings ss) (array (ss.map str))).IsReadable := by
  refine ⟨hkey, ?_, fun rest => readValue?_strings _ ss _⟩
  match ss with
  | [] => exact ⟨'[', _, rfl, by decide⟩
  | [_] => exact ⟨'[', _, rfl, by decide⟩
  | _ :: _ :: _ => exact ⟨'[', _, rfl, by decide⟩

end Line

theorem lineEnd?_newline (rest : List Char) : lineEnd? ('\n' :: rest) = some rest := by
  have hline : skipComment (skipSpace ('\n' :: rest)) = '\n' :: rest := by
    rw [skipSpace_cons (by decide), skipComment_cons (by decide)]
  simp only [lineEnd?, hline, newline?]

theorem readLine?_pair {text : List Char} (h : (Line.pair key text t).IsReadable) (doc : Document)
    (rest : List Char) :
    readLine? doc (renderPair key text ++ rest) =
      ((Line.pair key text t).apply doc).map fun doc => (doc, rest) := by
  obtain ⟨hkey, ⟨d, ds, hds, hd⟩, hvalue⟩ := h
  obtain ⟨c, cs, hcs, hc⟩ := hkey.exists_cons
  obtain ⟨_, _, _, hbracket⟩ := isSolid_of_isKeyChar hc
  have hequals : skipSpace (" = ".toList ++ (text ++ '\n' :: rest)) =
      '=' :: ' ' :: (text ++ '\n' :: rest) := rfl
  have hspace : skipSpace (' ' :: (text ++ '\n' :: rest)) = text ++ '\n' :: rest := by
    rw [skipSpace, List.dropWhile_cons_of_pos (by decide), ← skipSpace, hds, List.cons_append,
      skipSpace_cons hd]
  have hbound : ∀ c ∈ (" = ".toList ++ (text ++ '\n' :: rest)).head?, isKeyChar c = false := by
    rintro _ ⟨⟩
    decide
  have hkeys := readKeys?_bare hkey hbound (by rw [hequals]; simp)
  have hpair : readPair? (readValue? maxDepth)
      (key.toList ++ (" = ".toList ++ (text ++ '\n' :: rest))) =
        some (([key], t), '\n' :: rest) := by
    simp only [readPair?, hkeys, hequals, Option.bind_eq_bind, Option.bind_some, hspace, hvalue]
    rfl
  have hline : renderPair key text ++ rest =
      key.toList ++ (" = ".toList ++ (text ++ '\n' :: rest)) := by
    simp [renderPair]
  have hne (tail : List Char) :
      key.toList ++ (" = ".toList ++ (text ++ '\n' :: rest)) ≠ '[' :: tail := by
    rw [hcs, List.cons_append]
    exact fun he => hbracket (List.cons.inj he).1
  rw [hline, readLine?]
  · simp only [hpair, lineEnd?_newline, Option.bind_eq_bind, Option.bind_some, Line.apply]
    cases doc.root.alterAt false (insertPair? · ([key], t)) doc.path <;> rfl
  · exact fun _ => hne _
  · exact hne

theorem readLine?_header (hkey : IsBareKey key) (d : Document) (rest : List Char) :
    readLine? d ('[' :: (key.toList ++ ']' :: '\n' :: rest)) =
      ((Line.header key).apply d).map fun d => (d, rest) := by
  obtain ⟨c, cs, hcs, hc⟩ := hkey.exists_cons
  obtain ⟨_, _, _, hbracket⟩ := isSolid_of_isKeyChar hc
  have hbound : ∀ c ∈ (']' :: '\n' :: rest).head?, isKeyChar c = false := by
    rintro _ ⟨⟩
    decide
  have hkeys := readKeys?_bare hkey hbound (by rw [skipSpace_cons (by decide)]; simp)
  rw [skipSpace_cons (by decide)] at hkeys
  rw [readLine?]
  · simp only [readHeader?, hkeys, Option.bind_eq_bind, Option.bind_some, Line.apply,
      List.getLast?_singleton, List.dropLast_singleton]
    cases d.root.openTable [] key with
    | none => rfl
    | some root =>
        simp only [lineEnd?_newline, Option.bind_some, Option.map_some, Option.pure_def]
  · rw [hcs, List.cons_append]
    exact fun _ he => hbracket (List.cons.inj he).1

/-! ## Documents -/

theorem readDocument?_cons {fuel : Nat} (hcs : skipLines (cs.length + 1) cs = body)
    (hne : body ≠ []) :
    readDocument? (fuel + 1) d cs =
      (readLine? d body).bind fun (d, rest) => readDocument? fuel d rest := by
  subst hcs
  rw [readDocument?]
  split
  next hnil => exact absurd hnil hne
  next => rfl

theorem readDocument?_line {line : Line} (h : line.IsReadable) (d : Document) (fuel : Nat)
    (rest : List Char) :
    readDocument? (fuel + 1) d (line.render ++ rest) =
      (line.apply d).bind fun d => readDocument? fuel d rest := by
  cases line with
  | pair key text t =>
      obtain ⟨c, cs, hcs, hc⟩ := h.1.exists_cons
      have hskip (fuel : Nat) : skipLines (fuel + 1) (renderPair key text ++ rest) =
          renderPair key text ++ rest := by
        rw [renderPair, hcs]
        exact skipLines_cons (isSolid_of_isKeyChar hc).1 _ _
      rw [Line.render, readDocument?_cons (hskip _) (by simp [renderPair]), readLine?_pair h]
      cases (Line.pair key text t).apply d <;> rfl
  | header key =>
      have htext : renderHeader key ++ rest =
          '\n' :: '[' :: (key.toList ++ ']' :: '\n' :: rest) := by
        simp [renderHeader]
      have hskip (fuel : Nat) : skipLines (fuel + 2) (renderHeader key ++ rest) =
          '[' :: (key.toList ++ ']' :: '\n' :: rest) := by
        rw [htext, skipLines_newline, skipLines_cons (by decide)]
      have hlength : (renderHeader key ++ rest).length + 1 =
          ('[' :: (key.toList ++ ']' :: '\n' :: rest)).length + 2 := by
        rw [htext, List.length_cons]
      rw [Line.render, readDocument?_cons (by rw [hlength, hskip]) (by simp), readLine?_header h]
      cases (Line.header key).apply d <;> rfl

/-- A document of readable lines does what its lines say, one after the other. -/
theorem readDocument?_lines {lines : List Line} (hlines : ∀ line ∈ lines, line.IsReadable)
    (d : Document) {fuel : Nat} (hfuel : lines.length < fuel) :
    readDocument? fuel d (lines.flatMap Line.render) =
      (lines.foldlM Line.apply d).map Document.root := by
  induction lines generalizing d fuel with
  | nil =>
      obtain ⟨fuel, rfl⟩ := Nat.exists_eq_succ_of_ne_zero (Nat.ne_zero_of_lt hfuel)
      rfl
  | cons line lines ih =>
      obtain ⟨fuel, rfl⟩ := Nat.exists_eq_succ_of_ne_zero (Nat.ne_zero_of_lt hfuel)
      obtain ⟨hline, hothers⟩ := List.forall_mem_cons.mp hlines
      rw [List.flatMap_cons, readDocument?_line hline, List.foldlM_cons]
      cases line.apply d with
      | none => rfl
      | some d => exact ih hothers d (by simpa using hfuel)

theorem length_le_length_render (lines : List Line) :
    lines.length ≤ (lines.flatMap Line.render).length := by
  induction lines with
  | nil => exact Nat.zero_le _
  | cons line lines ih =>
      have hline : 0 < line.render.length := by
        cases line <;> simp [Line.render, renderPair, renderHeader]
      rw [List.flatMap_cons, List.length_cons, List.length_append]
      omega

theorem Line.IsReadable.exists_cons {line : Line} (h : line.IsReadable) :
    ∃ c cs, line.render = c :: cs ∧ c ≠ '\ufeff' := by
  cases line with
  | pair key text t =>
      obtain ⟨c, cs, hcs, hc⟩ := h.1.exists_cons
      refine ⟨c, _, by rw [Line.render, renderPair, hcs]; rfl, ?_⟩
      rintro rfl
      exact absurd hc (by decide)
  | header key => exact ⟨'\n', _, rfl, by decide⟩

/-- The text of readable lines is read as what they say. -/
theorem parse?_lines {lines : List Line} (hlines : ∀ line ∈ lines, line.IsReadable) :
    parse? (String.ofList (lines.flatMap Line.render)) =
      (lines.foldlM Line.apply ⟨table false false [], []⟩).map Document.root := by
  have hmark (rest : List Char) : lines.flatMap Line.render ≠ '\ufeff' :: rest := by
    cases lines with
    | nil => simp
    | cons line lines =>
        obtain ⟨c, cs, hcs, hc⟩ := (hlines line List.mem_cons_self).exists_cons
        rw [List.flatMap_cons, hcs, List.cons_append]
        exact fun he => hc (List.cons.inj he).1
  rw [parse?, String.toList_ofList]
  split
  next hcs => exact absurd hcs (hmark _)
  next => exact readDocument?_lines hlines _ (Nat.lt_succ_of_le (length_le_length_render lines))

end ImportAtlas.Toml
