import ImportAtlas.Proofs.Syntax.Traversal

/-!
# The line an import is reported on

The line of an import is the one that the node making it starts on. For an import statement and for
a call that is where they start themselves. The `require` clause of a statement makes the import in
place of the statement, so what is reported is the line of the statement exactly if no line ends
between the two; else it is a later one.
-/

namespace ImportAtlas.Syntax

variable {t s n : Tree} {a : List Nat} {i : ImportStatement}

namespace Tree

/-! ## Nodes below nodes -/

theorem mem_preorder_of_mem_children {c : Tree} (hc : c ∈ t.children) (hn : n ∈ c.preorder) :
    n ∈ t.preorder := by
  rw [preorder_eq]
  exact List.mem_cons_of_mem t (List.mem_flatMap_of_mem hc hn)

theorem mem_preorder_trans (hs : s ∈ t.preorder) (hn : n ∈ s.preorder) : n ∈ t.preorder := by
  induction t using induction_on with
  | node t ih =>
      rw [preorder_eq, List.mem_cons, List.mem_flatMap] at hs
      rcases hs with rfl | ⟨c, hc, hs⟩
      · exact hn
      · exact mem_preorder_of_mem_children hc (ih c hc hs)

theorem mem_preorder_of_at? (hn : t.at? a = some n) : n ∈ t.preorder := by
  rw [← filterMap_at?_addresses]
  exact List.mem_filterMap.mpr ⟨a, mem_addresses_iff.mpr ⟨n, hn⟩, hn⟩

theorem IsLaidOut.of_mem_preorder (ht : t.IsLaidOut) (hs : s ∈ t.preorder) : s.IsLaidOut :=
  fun _ hm => ht _ (mem_preorder_trans hs hm)

/-! ## The statement around a node -/

/-- The innermost import statement above an address. -/
def statementAbove? (t : Tree) : List Nat → Option Tree
  | [] => none
  | i :: rest =>
    (t.children[i]?.bind fun c => c.statementAbove? rest) <|>
      if t.kind = .importStatement then some t else none

theorem of_statementAbove? (hs : t.statementAbove? a = some s) (hn : t.at? a = some n) :
    s.kind = .importStatement ∧ s ∈ t.preorder ∧ n ∈ s.preorder := by
  induction a generalizing t with
  | nil => cases hs
  | cons i rest ih =>
      obtain ⟨c, hc, hat⟩ := Option.bind_eq_some_iff.mp hn
      rw [statementAbove?, hc, Option.bind_some] at hs
      cases hinner : c.statementAbove? rest with
      | some s' =>
          rw [hinner] at hs
          obtain ⟨hkind, hbelow, hmem⟩ := ih (hinner.trans hs) hat
          exact ⟨hkind, mem_preorder_of_mem_children (List.mem_of_getElem? hc) hbelow, hmem⟩
      | none =>
          rw [hinner] at hs
          by_cases hkind : t.kind = .importStatement
          · obtain rfl : t = s := by simpa [hkind] using hs
            exact ⟨hkind, mem_preorder_self t, mem_preorder_of_at? hn⟩
          · simp [hkind] at hs

/-- The statement or call that an import made at an address is part of. A clause belongs to the
statement around it. -/
def importer (t : Tree) (a : List Nat) (n : Tree) : Tree :=
  if n.kind = .importRequireClause then (t.statementAbove? a).getD n else n

theorem importer_of_ne (hn : n.kind ≠ .importRequireClause) : t.importer a n = n := if_neg hn

theorem importer_mem_preorder (hn : t.at? a = some n) :
    t.importer a n ∈ t.preorder ∧ n ∈ (t.importer a n).preorder := by
  have hself : n ∈ t.preorder ∧ n ∈ n.preorder := ⟨mem_preorder_of_at? hn, mem_preorder_self n⟩
  rw [importer]
  split
  · cases hs : t.statementAbove? a with
    | none => exact hself
    | some s => exact (of_statementAbove? hs hn).2
  · exact hself

end Tree

/-! ## Reported lines -/

theorem kind_of_importAt? (h : importAt? n = some i) :
    n.kind = .importStatement ∨ n.kind = .callExpression ∨ n.kind = .importRequireClause := by
  rw [importAt?] at h
  split at h
  case h_1 shape => exact .inl shape
  case h_2 shape => exact .inr (.inr shape)
  case h_3 shape => exact .inr (.inl shape)
  case h_4 => cases h

/-- The nodes of a tree that make an import, with their addresses. -/
def sources (t : Tree) : List (List Nat × Tree) :=
  t.addresses.filterMap fun a => (t.at? a).bind fun n =>
    if (importAt? n).isSome then some (a, n) else none

/-- What is reported for the import that the node at an address makes. -/
structure ReportsLine (t : Tree) (a : List Nat) (n : Tree) (i : ImportStatement) : Prop where
  there : t.at? a = some n
  made : importAt? n = some i
  shape : n.kind = .importStatement ∨ n.kind = .callExpression ∨ n.kind = .importRequireClause
  /-- Statements and calls are reported by the line they start on themselves. -/
  own : n.kind ≠ .importRequireClause → t.importer a n = n ∧ i.line = n.rows.first + 1
  /-- The `require` clause of a statement is reported by the line of the statement exactly if both
  start on one row. -/
  clause : ∀ s, n.kind = .importRequireClause → t.statementAbove? a = some s →
    t.importer a n = s ∧ (i.line = s.rows.first + 1 ↔ n.rows.first = s.rows.first)
  /-- No import is reported before its statement or call, nor behind the end of it. -/
  within : t.IsLaidOut → (t.importer a n).rows.first + 1 ≤ i.line ∧
    i.line ≤ (t.importer a n).rows.last + 1

theorem reportsLine_of_at? (hn : t.at? a = some n) (hi : importAt? n = some i) :
    ReportsLine t a n i where
  there := hn
  made := hi
  shape := kind_of_importAt? hi
  own hkind := ⟨Tree.importer_of_ne hkind, line_of_importAt? hi⟩
  clause s hkind hs := by
    refine ⟨by rw [Tree.importer, if_pos hkind, hs, Option.getD_some], ?_⟩
    rw [line_of_importAt? hi, Nat.add_right_cancel_iff]
  within ht := by
    obtain ⟨habove, hbelow⟩ := Tree.importer_mem_preorder hn
    obtain ⟨hfirst, hlast⟩ := Tree.rows_of_mem_preorder (ht.of_mem_preorder habove) hbelow
    rw [line_of_importAt? hi]
    exact ⟨Nat.succ_le_succ hfirst, Nat.succ_le_succ hlast⟩

/-- Each import of a tree, one after the other, is reported for the node that makes it. -/
theorem reportsLine_extractImports (t : Tree) :
    List.Forall₂ (fun source i => ReportsLine t source.1 source.2 i) (sources t)
      (extractImports t) := by
  have haddressed : extractImports t = t.addresses.filterMap fun a => (t.at? a).bind importAt? := by
    rw [extractImports_eq, ← List.filterMap_eq_flatMap_toList, ← Tree.filterMap_at?_addresses,
      List.filterMap_filterMap]
  rw [haddressed, sources]
  refine List.rel_filterMap (R := Eq) ?_ (List.forall₂_same.mpr fun _ _ => rfl)
  rintro a _ rfl
  cases hn : t.at? a with
  | none =>
      simp only [hn, Option.bind_none]
      exact .none
  | some n =>
      simp only [hn, Option.bind_some]
      cases hi : importAt? n with
      | none => exact .none
      | some i => exact .some (reportsLine_of_at? hn hi)

/-! ### A line end behind the keyword of the statement -/

def splitClause : Tree :=
  .node .importRequireClause none ⟨1, 1⟩ "x = require('./a')"
    [.node .identifier none ⟨1, 1⟩ "x" [],
      .node .string (some .source) ⟨1, 1⟩ "'./a'" []]

def splitStatement : Tree :=
  .node .importStatement none ⟨0, 1⟩ "import\nx = require('./a');" [splitClause]

theorem reportsLine_splitStatement : splitStatement.IsLaidOut ∧
    splitStatement.importer [0] splitClause = splitStatement ∧
    extractImports splitStatement = [⟨"./a", 2, .require⟩] ∧
    ReportsLine splitStatement [0] splitClause ⟨"./a", 2, .require⟩ ∧
    (2 : Nat) ≠ lineOf splitStatement := by
  have himports : extractImports splitStatement = [⟨"./a", 2, .require⟩] := by cbv
  have hsources : sources splitStatement = [([0], splitClause)] := by cbv
  have hreports := reportsLine_extractImports splitStatement
  rw [himports, hsources, List.forall₂_cons] at hreports
  exact ⟨by decide, rfl, himports, hreports.1, by decide⟩

end ImportAtlas.Syntax
