import ImportAtlas.Syntax.Extract
import Mathlib

/-!
# The order in which the nodes of a tree are visited

The trees that are still to be visited hold what is left of the pre-order: so the imports of a tree
are those of its nodes in pre-order, which is the order of the nodes' addresses. Each node stands at
one address and is asked once. Where spans are nested and siblings follow each other, the nodes come
by the rows they start on, and so do the imports.
-/

namespace ImportAtlas.Syntax

namespace Tree

/-- Induction over a tree, with one hypothesis for all children of a node. -/
@[elab_as_elim]
theorem induction_on {motive : Tree → Prop} (t : Tree)
    (node : ∀ t : Tree, (∀ c ∈ t.children, motive c) → motive t) : motive t :=
  Tree.rec (motive_1 := motive) (motive_2 := fun ts => ∀ c ∈ ts, motive c)
    (fun kind field rows text children h => node (.node kind field rows text children) h)
    (fun _ hc => absurd hc List.not_mem_nil)
    (fun _ _ ht hts _ hc => (List.mem_cons.mp hc).elim (fun h => h ▸ ht) (hts _)) t

mutual

/-- The nodes of a tree, parents before children and children from left to right. -/
def preorder : Tree → List Tree
  | node kind field rows text children =>
    node kind field rows text children :: preorderAll children

def preorderAll : List Tree → List Tree
  | [] => []
  | t :: ts => preorder t ++ preorderAll ts

end

theorem preorderAll_eq (ts : List Tree) : preorderAll ts = ts.flatMap preorder := by
  induction ts with
  | nil => rw [preorderAll, List.flatMap_nil]
  | cons t ts ih => rw [preorderAll, ih, List.flatMap_cons]

theorem preorder_eq (t : Tree) : t.preorder = t :: t.children.flatMap preorder := by
  cases t
  rw [preorder, preorderAll_eq, children]

theorem mem_preorder_self (t : Tree) : t ∈ t.preorder := by
  rw [preorder_eq]
  exact List.mem_cons_self

/-! ## Addresses -/

/-- The node at an address: the positions among their siblings of the nodes on the way to it. -/
def at? (t : Tree) : List Nat → Option Tree
  | [] => some t
  | i :: rest => t.children[i]?.bind fun c => c.at? rest

@[simp] theorem at?_nil (t : Tree) : t.at? [] = some t := rfl

theorem at?_cons (t : Tree) (i : Nat) (rest : List Nat) :
    t.at? (i :: rest) = t.children[i]?.bind fun c => c.at? rest := rfl

mutual

/-- The addresses of a tree's nodes, in the order of the nodes. -/
def addresses : Tree → List (List Nat)
  | node _ _ _ _ children => [] :: addressesFrom 0 children

def addressesFrom : Nat → List Tree → List (List Nat)
  | _, [] => []
  | i, t :: ts => t.addresses.map (i :: ·) ++ addressesFrom (i + 1) ts

end

theorem addresses_eq (t : Tree) : t.addresses = [] :: addressesFrom 0 t.children := by
  cases t
  rw [addresses, children]

theorem mem_addressesFrom {i : Nat} {ts : List Tree} {a : List Nat} :
    a ∈ addressesFrom i ts ↔
      ∃ j rest t, a = (i + j) :: rest ∧ ts[j]? = some t ∧ rest ∈ t.addresses := by
  induction ts generalizing i with
  | nil => simp [addressesFrom]
  | cons t ts ih =>
      rw [addressesFrom, List.mem_append, List.mem_map, ih]
      constructor
      · rintro (⟨rest, hrest, rfl⟩ | ⟨j, rest, c, rfl, hc, hrest⟩)
        · exact ⟨0, rest, t, rfl, rfl, hrest⟩
        · exact ⟨j + 1, rest, c, by rw [Nat.add_right_comm, Nat.add_assoc], hc, hrest⟩
      · rintro ⟨j, rest, c, rfl, hc, hrest⟩
        cases j with
        | zero => exact .inl ⟨rest, Option.some.inj hc ▸ hrest, rfl⟩
        | succ j =>
            exact .inr ⟨j, rest, c, by rw [Nat.add_right_comm, Nat.add_assoc], hc, hrest⟩

/-- Exactly the addresses that lead to a node are listed. -/
theorem mem_addresses_iff {t : Tree} {a : List Nat} :
    a ∈ t.addresses ↔ ∃ n, t.at? a = some n := by
  induction t using induction_on generalizing a with
  | node t ih =>
      rw [addresses_eq, List.mem_cons, mem_addressesFrom]
      cases a with
      | nil => simp
      | cons i rest =>
          simp only [at?_cons, Option.bind_eq_some_iff, reduceCtorEq, false_or, Nat.zero_add,
            List.cons.injEq]
          constructor
          · rintro ⟨j, more, c, ⟨rfl, rfl⟩, hc, hrest⟩
            obtain ⟨n, hn⟩ := (ih c (List.mem_of_getElem? hc)).mp hrest
            exact ⟨n, c, hc, hn⟩
          · rintro ⟨n, c, hc, hn⟩
            exact ⟨i, rest, c, ⟨rfl, rfl⟩, hc, (ih c (List.mem_of_getElem? hc)).mpr ⟨n, hn⟩⟩

theorem pairwise_addressesFrom {ts : List Tree} (i : Nat)
    (h : ∀ t ∈ ts, t.addresses.Pairwise (· < ·)) : (addressesFrom i ts).Pairwise (· < ·) := by
  induction ts generalizing i with
  | nil =>
      rw [addressesFrom]
      exact List.Pairwise.nil
  | cons t ts ih =>
      rw [List.forall_mem_cons] at h
      rw [addressesFrom, List.pairwise_append]
      refine ⟨?_, ih (i + 1) h.2, ?_⟩
      · rw [List.pairwise_map]
        exact h.1.imp fun hab => List.cons_lt_cons_iff.mpr (.inr ⟨rfl, hab⟩)
      · intro a ha b hb
        obtain ⟨rest, -, rfl⟩ := List.mem_map.mp ha
        obtain ⟨j, more, -, rfl, -, -⟩ := mem_addressesFrom.mp hb
        exact List.cons_lt_cons_iff.mpr (.inl (by omega))

/-- A parent's address is the start of its children's, and a left sibling's is the smaller one. -/
theorem pairwise_addresses (t : Tree) : t.addresses.Pairwise (· < ·) := by
  induction t using induction_on with
  | node t ih =>
      rw [addresses_eq, List.pairwise_cons]
      refine ⟨fun a ha => ?_, pairwise_addressesFrom 0 ih⟩
      obtain ⟨j, rest, -, rfl, -, -⟩ := mem_addressesFrom.mp ha
      exact List.nil_lt_cons _ _

/-- The nodes at the addresses, one after another, are the pre-order. -/
theorem filterMap_at?_addressesFrom {ts : List Tree} {f : List Nat → Option Tree} {i : Nat}
    (ih : ∀ t ∈ ts, t.addresses.filterMap t.at? = t.preorder)
    (hf : ∀ j rest, f ((i + j) :: rest) = ts[j]?.bind fun t => t.at? rest) :
    (addressesFrom i ts).filterMap f = ts.flatMap preorder := by
  induction ts generalizing i with
  | nil => rw [addressesFrom, List.filterMap_nil, List.flatMap_nil]
  | cons t ts ihts =>
      rw [List.forall_mem_cons] at ih
      have hfirst : (t.addresses.map (i :: ·)).filterMap f = t.preorder := by
        rw [List.filterMap_map, ← ih.1]
        exact List.filterMap_congr fun rest _ => hf 0 rest
      have hrest : (addressesFrom (i + 1) ts).filterMap f = ts.flatMap preorder := by
        refine ihts ih.2 fun j rest => ?_
        rw [Nat.add_right_comm, Nat.add_assoc, hf (j + 1) rest, List.getElem?_cons_succ]
      rw [addressesFrom, List.filterMap_append, hfirst, hrest, List.flatMap_cons]

theorem filterMap_at?_addresses (t : Tree) : t.addresses.filterMap t.at? = t.preorder := by
  induction t using induction_on with
  | node t ih =>
      rw [addresses_eq, List.filterMap_cons_some (at?_nil t), preorder_eq,
        filterMap_at?_addressesFrom ih]
      intro j rest
      rw [Nat.zero_add, at?_cons]

/-! ## Rows -/

/-- The rows of a node enclose those of its children, which follow each other. -/
structure EnclosesInOrder (n : Tree) : Prop where
  span : n.rows.first ≤ n.rows.last
  nested : ∀ c ∈ n.children, n.rows.first ≤ c.rows.first ∧ c.rows.last ≤ n.rows.last
  ordered : n.children.Pairwise fun c d => c.rows.last ≤ d.rows.first

instance (n : Tree) : Decidable n.EnclosesInOrder :=
  decidable_of_iff (n.rows.first ≤ n.rows.last ∧
      (∀ c ∈ n.children, n.rows.first ≤ c.rows.first ∧ c.rows.last ≤ n.rows.last) ∧
      n.children.Pairwise fun c d => c.rows.last ≤ d.rows.first)
    ⟨fun ⟨h₀, h₁, h₂⟩ => ⟨h₀, h₁, h₂⟩, fun h => ⟨h.span, h.nested, h.ordered⟩⟩

/-- Spans are nested and siblings are in source order. -/
def IsLaidOut (t : Tree) : Prop := ∀ n ∈ t.preorder, n.EnclosesInOrder

instance (t : Tree) : Decidable t.IsLaidOut :=
  inferInstanceAs (Decidable (∀ n ∈ t.preorder, n.EnclosesInOrder))

theorem isLaidOut_iff {t : Tree} :
    t.IsLaidOut ↔ t.EnclosesInOrder ∧ ∀ c ∈ t.children, c.IsLaidOut := by
  rw [IsLaidOut, preorder_eq, List.forall_mem_cons]
  simp only [List.mem_flatMap, IsLaidOut]
  exact and_congr_right fun _ =>
    ⟨fun h c hc n hn => h n ⟨c, hc, hn⟩, fun h n ⟨c, hc, hn⟩ => h c hc n hn⟩

theorem rows_of_mem_preorder {t n : Tree} (ht : t.IsLaidOut) (hn : n ∈ t.preorder) :
    t.rows.first ≤ n.rows.first ∧ n.rows.first ≤ t.rows.last := by
  induction t using induction_on with
  | node t ih =>
      obtain ⟨hnode, hchildren⟩ := isLaidOut_iff.mp ht
      rw [preorder_eq, List.mem_cons, List.mem_flatMap] at hn
      rcases hn with rfl | ⟨c, hc, hn⟩
      · exact ⟨Nat.le_refl _, hnode.span⟩
      · obtain ⟨hfirst, hlast⟩ := ih c hc (hchildren c hc) hn
        obtain ⟨hfrom, hto⟩ := hnode.nested c hc
        exact ⟨hfrom.trans hfirst, hlast.trans hto⟩

/-- In pre-order the nodes of a tree come by the rows they start on. -/
theorem pairwise_rows_preorder {t : Tree} (ht : t.IsLaidOut) :
    t.preorder.Pairwise fun m n => m.rows.first ≤ n.rows.first := by
  induction t using induction_on with
  | node t ih =>
      obtain ⟨hnode, hchildren⟩ := isLaidOut_iff.mp ht
      have hafter : ∀ n ∈ t.children.flatMap preorder, t.rows.first ≤ n.rows.first := by
        intro n hn
        refine (rows_of_mem_preorder ht ?_).1
        rw [preorder_eq]
        exact List.mem_cons_of_mem t hn
      rw [preorder_eq, List.pairwise_cons, List.pairwise_flatMap]
      refine ⟨hafter, fun c hc => ih c hc (hchildren c hc), ?_⟩
      refine hnode.ordered.imp_of_mem ?_
      intro c d hc hd hcd m hm n hn
      calc m.rows.first ≤ c.rows.last := (rows_of_mem_preorder (hchildren c hc) hm).2
        _ ≤ d.rows.first := hcd
        _ ≤ n.rows.first := (rows_of_mem_preorder (hchildren d hd) hn).1

end Tree

/-! ## What is collected -/

theorem reverse_toList {α : Type} (o : Option α) : o.toList.reverse = o.toList := by
  cases o <;> rfl

/-- The trees that are still to be visited add the imports of their nodes in pre-order. -/
theorem collect_eq (found : List ImportStatement) (waiting : List Tree) :
    collect found waiting =
      found.reverse ++ (waiting.flatMap Tree.preorder).flatMap fun n => (importAt? n).toList := by
  fun_induction collect found waiting with
  | case1 found => simp
  | case2 found t waiting ih =>
      rw [ih, List.reverse_append, reverse_toList, List.flatMap_append, List.flatMap_cons,
        Tree.preorder_eq t]
      simp only [List.flatMap_append, List.flatMap_cons, List.append_assoc, List.cons_append]

theorem extractImports_eq (t : Tree) :
    extractImports t = t.preorder.flatMap fun n => (importAt? n).toList := by
  rw [extractImports, collect_eq, List.flatMap_singleton, List.reverse_nil, List.nil_append]

theorem mem_extractImports_iff {t : Tree} {i : ImportStatement} :
    i ∈ extractImports t ↔ ∃ n ∈ t.preorder, importAt? n = some i := by
  simp [extractImports_eq, List.mem_flatMap]

theorem line_of_importAt? {n : Tree} {i : ImportStatement} (h : importAt? n = some i) :
    i.line = n.rows.first + 1 := by
  rw [importAt?] at h
  split at h
  case h_4 => cases h
  all_goals
    simp only [bind, pure, Option.bind_eq_some_iff, Option.some.injEq] at h
  case h_1 | h_2 =>
    obtain ⟨_, _, rfl⟩ := h
    rfl
  case h_3 =>
    obtain ⟨_, _, _, _, rfl⟩ := h
    rfl

/-- A list of imports that holds those of a tree's nodes, node by node. -/
structure VisitsInOrder (t : Tree) (imports : List ImportStatement) : Prop where
  preorder : imports = t.preorder.flatMap fun n => (importAt? n).toList
  /-- All nodes are visited, each of them once, and in the order of their addresses. -/
  addressed : ∃ addresses : List (List Nat), addresses.Pairwise (· < ·) ∧
    (∀ a, a ∈ addresses ↔ ∃ n, t.at? a = some n) ∧
    imports = addresses.filterMap fun a => (t.at? a).bind importAt?
  lines : t.IsLaidOut → imports.Pairwise fun i j => i.line ≤ j.line

/-- The imports of a tree are those of its nodes in pre-order. -/
theorem visitsInOrder_extractImports (t : Tree) : VisitsInOrder t (extractImports t) := by
  have hpreorder : extractImports t = t.preorder.filterMap importAt? := by
    rw [extractImports_eq, List.filterMap_eq_flatMap_toList]
  refine ⟨extractImports_eq t, ⟨t.addresses, t.pairwise_addresses, ?_, ?_⟩, fun ht => ?_⟩
  · exact fun a => Tree.mem_addresses_iff
  · rw [hpreorder, ← Tree.filterMap_at?_addresses, List.filterMap_filterMap]
  · rw [hpreorder, List.pairwise_filterMap]
    refine (Tree.pairwise_rows_preorder ht).imp ?_
    intro m n hmn i hi j hj
    rw [line_of_importAt? hi, line_of_importAt? hj]
    exact Nat.succ_le_succ hmn

/-- A call of `require` in the arguments of another call, on the row below. -/
def nestedCall : Tree :=
  .node .callExpression none ⟨0, 1⟩ "require('./a',\nrequire('./b'))"
    [.node .identifier (some .function) ⟨0, 0⟩ "require" [],
      .node .arguments (some .arguments) ⟨0, 1⟩ "('./a',\nrequire('./b'))"
        [.node .string none ⟨0, 0⟩ "'./a'" [],
          .node .callExpression none ⟨1, 1⟩ "require('./b')"
            [.node .identifier (some .function) ⟨1, 1⟩ "require" [],
              .node .arguments (some .arguments) ⟨1, 1⟩ "('./b')"
                [.node .string none ⟨1, 1⟩ "'./b'" []]]]]

example : nestedCall.IsLaidOut := by decide

example : extractImports nestedCall = [⟨"./a", 1, .require⟩, ⟨"./b", 2, .require⟩] := by cbv

end ImportAtlas.Syntax
