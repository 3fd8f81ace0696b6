import ImportAtlas.Proofs.Syntax.Traversal
import ImportAtlas.Proofs.Text.Blank

/-!
# What a string is taken to name

A node imports a file by a string, and the file is named by the text of that string. Not one quote
is cut off at either end but all quotes that stand there, of either kind: so what was written
between the quotes is kept exactly if it neither starts nor ends with a quote itself.
-/

namespace ImportAtlas.Syntax

open Text

variable {root node literal : Tree} {kind : ImportKind} {body : String} {q : Char}

/-- The node imports the file that the string names, in one of the ways there are. -/
inductive ImportsBy : Tree → Tree → ImportKind → Prop
  | statement {node literal : Tree} (shape : node.kind = .importStatement)
      (source : node.part? .source = some literal) (string : literal.kind = .string) :
      ImportsBy node literal .importFrom
  | clause {node literal : Tree} (shape : node.kind = .importRequireClause)
      (source : node.part? .source = some literal) (string : literal.kind = .string) :
      ImportsBy node literal .require
  | call {node function arguments literal : Tree} {kind : ImportKind}
      (shape : node.kind = .callExpression) (callee : node.part? .function = some function)
      (named : callKind? function = some kind) (given : node.part? .arguments = some arguments)
      (first : firstArgument? arguments = some literal) (string : literal.kind = .string) :
      ImportsBy node literal kind

/-- The text without the quotes at its ends. -/
def unquoted (text : String) : String := String.ofList (stripEnds isQuote text.toList)

theorem stringValue?_eq_some_iff {t : Tree} {value : String} :
    stringValue? t = some value ↔ t.kind = .string ∧ value = unquoted t.text := by
  rw [stringValue?]
  by_cases h : t.kind = .string
  · simp [h, unquoted, eq_comm]
  · simp [h]

/-- A node makes an import exactly if a string names a file for it. -/
theorem importAt?_eq_some_iff {i : ImportStatement} :
    importAt? node = some i ↔ ∃ literal kind, ImportsBy node literal kind ∧
      i = ⟨unquoted literal.text, lineOf node, kind⟩ := by
  constructor
  · intro h
    rw [importAt?] at h
    split at h
    case h_4 => cases h
    all_goals
      simp only [bind, pure, Option.bind_eq_some_iff, Option.some.injEq,
        stringValue?_eq_some_iff] at h
    case h_1 shape =>
      obtain ⟨_, ⟨literal, source, string, rfl⟩, rfl⟩ := h
      exact ⟨literal, _, .statement shape source string, rfl⟩
    case h_2 shape =>
      obtain ⟨_, ⟨literal, source, string, rfl⟩, rfl⟩ := h
      exact ⟨literal, _, .clause shape source string, rfl⟩
    case h_3 shape =>
      obtain ⟨kind, ⟨function, callee, named⟩, _,
        ⟨literal, ⟨arguments, given, first⟩, string, rfl⟩, rfl⟩ := h
      exact ⟨literal, kind, .call shape callee named given first string, rfl⟩
  · rintro ⟨literal, kind, himports, rfl⟩
    have hvalue (hstring : literal.kind = .string) :
        stringValue? literal = some (unquoted literal.text) :=
      stringValue?_eq_some_iff.mpr ⟨hstring, rfl⟩
    cases himports with
    | statement shape source string => simp [importAt?, shape, source, hvalue string]
    | clause shape source string => simp [importAt?, shape, source, hvalue string]
    | call shape callee named given first string =>
        simp [importAt?, shape, callee, named, given, first, hvalue string]

/-! ## Quotes -/

def startsQuote (s : String) : Bool := s.toList.head?.any isQuote

def endsQuote (s : String) : Bool := s.toList.getLast?.any isQuote

theorem isQuote_of_eq (hq : q = '\'' ∨ q = '"') : isQuote q = true := by
  rcases hq with rfl | rfl <;> decide

/-- The quotes around a text are cut off like those at its own ends. -/
theorem unquoted_surround (hq : isQuote q = true) (body : String) :
    unquoted (String.singleton q ++ body ++ String.singleton q) = unquoted body := by
  have htext : (String.singleton q ++ body ++ String.singleton q).toList =
      q :: (body.toList ++ [q]) := by simp
  rw [unquoted, htext, stripEnds_surround hq hq, unquoted]

theorem unquoted_eq_self_iff {s : String} :
    unquoted s = s ↔ startsQuote s = false ∧ endsQuote s = false := by
  rw [unquoted, ← String.toList_inj, String.toList_ofList, stripEnds_eq_self_iff, startsQuote,
    endsQuote]

/-- What is left between the quotes at the ends of a text. -/
structure StripsQuotes (body specifier : String) : Prop where
  cut : ∃ front back, body = front ++ specifier ++ back ∧ (∀ c ∈ front.toList, isQuote c = true) ∧
    ∀ c ∈ back.toList, isQuote c = true
  ends : startsQuote specifier = false ∧ endsQuote specifier = false
  eq_iff : specifier = body ↔ startsQuote body = false ∧ endsQuote body = false

theorem stripsQuotes_unquoted (body : String) : StripsQuotes body (unquoted body) where
  cut := by
    obtain ⟨front, back, hcut, hfront, hback⟩ := exists_stripEnds isQuote body.toList
    refine ⟨String.ofList front, String.ofList back, ?_, by simpa using hfront, by simpa using hback⟩
    apply String.toList_injective
    simpa [unquoted] using hcut
  ends := by
    rw [← unquoted_eq_self_iff, unquoted, unquoted, String.toList_ofList, stripEnds_stripEnds]
  eq_iff := unquoted_eq_self_iff

/-- The file that a string with `body` between its quotes names, at any node of a tree. -/
structure NamesFile (root node : Tree) (kind : ImportKind) (body specifier : String) : Prop where
  made : importAt? node = some ⟨specifier, lineOf node, kind⟩
  listed : ⟨specifier, lineOf node, kind⟩ ∈ extractImports root
  strips : StripsQuotes body specifier

/-- In each way of importing a file, the specifier is what was written between the quotes, without
the quotes of either kind at the ends of that. -/
theorem namesFile_of_importsBy (hnode : node ∈ root.preorder) (h : ImportsBy node literal kind)
    (hq : q = '\'' ∨ q = '"')
    (htext : literal.text = String.singleton q ++ body ++ String.singleton q) :
    ∃ specifier, NamesFile root node kind body specifier := by
  have hmade : importAt? node = some ⟨unquoted body, lineOf node, kind⟩ := by
    rw [importAt?_eq_some_iff]
    refine ⟨literal, kind, h, ?_⟩
    rw [htext, unquoted_surround (isQuote_of_eq hq)]
  exact ⟨unquoted body, hmade, mem_extractImports_iff.mpr ⟨node, hnode, hmade⟩,
    stripsQuotes_unquoted body⟩

/-! ### Single quotes between double ones -/

def innerLiteral : Tree := .node .string (some .source) ⟨0, 0⟩ "\"'./a'\"" []

def innerStatement : Tree :=
  .node .importStatement none ⟨0, 0⟩ "import x from \"'./a'\"" [innerLiteral]

theorem namesFile_inner :
    (innerStatement ∈ innerStatement.preorder ∧
        ImportsBy innerStatement innerLiteral .importFrom ∧
        innerLiteral.text = String.singleton '"' ++ "'./a'" ++ String.singleton '"') ∧
      (∃ specifier, NamesFile innerStatement innerStatement .importFrom "'./a'" specifier) ∧
      ¬ NamesFile innerStatement innerStatement .importFrom "'./a'" "'./a'" ∧
      extractImports innerStatement = [⟨"./a", 1, .importFrom⟩] := by
  have hnode := Tree.mem_preorder_self innerStatement
  have himports : ImportsBy innerStatement innerLiteral .importFrom := .statement rfl rfl rfl
  have htext : innerLiteral.text = String.singleton '"' ++ "'./a'" ++ String.singleton '"' := rfl
  refine ⟨⟨hnode, himports, htext⟩, namesFile_of_importsBy hnode himports (.inr rfl) htext, ?_,
    by cbv⟩
  intro hexact
  exact absurd (hexact.strips.eq_iff.mp rfl).1 (by decide)

end ImportAtlas.Syntax
