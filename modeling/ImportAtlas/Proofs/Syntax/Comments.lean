import ImportAtlas.Proofs.Syntax.Specifier

/-!
# Comments among the nodes of a tree

A comment stands as a leaf among the children of a node, and is no part of that node. The parts of a
node are found by what they are to it, the first argument of a call passes comments over, and a
comment imports nothing itself: so trees that differ by such leaves only import the same files in
the same ways, one after the other.
-/

namespace ImportAtlas

/-- What an import asks for, wherever it stands. -/
def ImportStatement.request (i : ImportStatement) : String × ImportKind := (i.specifier, i.kind)

namespace Syntax

variable {t u c : Tree} {as bs : List Tree} {p : Tree → Bool}

namespace Tree

/-- A comment between other nodes: a leaf that is no part of its parent. -/
def isLooseComment (t : Tree) : Bool :=
  t.kind == .comment && t.field.isNone && t.children.isEmpty

theorem isLooseComment_iff :
    t.isLooseComment = true ↔ t.kind = .comment ∧ t.field = none ∧ t.children = [] := by
  simp [isLooseComment, and_assoc]

/-- The children of a node, loose comments left out. -/
def solidChildren (t : Tree) : List Tree := t.children.filter fun c => !c.isLooseComment

theorem find?_solidChildren (hp : ∀ c : Tree, c.isLooseComment = true → p c = false) (t : Tree) :
    t.solidChildren.find? p = t.children.find? p := by
  rw [solidChildren, List.find?_filter]
  congr 1
  funext c
  cases hc : c.isLooseComment with
  | true => simp [hp c hc]
  | false => simp

theorem flatMap_solidChildren {α : Type} {f : Tree → List α}
    (hf : ∀ c : Tree, c.isLooseComment = true → f c = []) (t : Tree) :
    t.solidChildren.flatMap f = t.children.flatMap f := by
  rw [solidChildren]
  induction t.children with
  | nil => rfl
  | cons c cs ih =>
      cases hc : c.isLooseComment with
      | true => simp [hc, ih, hf c hc]
      | false => simp [hc, ih]

end Tree

/-! ## Trees that differ by comments -/

/-- The texts of two nodes are read alike. That of a string is what it says, and that of a callee
may be a word to import by; any other text may take up the comments within it. -/
def ReadsAlike (t u : Tree) : Prop :=
  t.text = u.text ∨ t.kind ≠ .string ∧ callKind? t = none ∧ callKind? u = none

/-- Two trees are the same up to the loose comments in either of them, at any depth. The rows do not
matter, since a comment moves what comes after it. -/
inductive SameButComments : Tree → Tree → Prop
  | intro {t u : Tree} (kind : t.kind = u.kind) (field : t.field = u.field) (text : ReadsAlike t u)
      (children : List.Forall₂ SameButComments t.solidChildren u.solidChildren) :
      SameButComments t u

theorem SameButComments.refl (t : Tree) : SameButComments t t := by
  induction t using Tree.induction_on with
  | node t ih =>
      refine .intro rfl rfl (.inl rfl) (List.forall₂_same.mpr fun c hc => ih c ?_)
      exact (List.mem_filter.mp hc).1

namespace Tree

/-- The tree with one more child at a position among the children of the node at an address. -/
def insertAt (c : Tree) (i : Nat) : List Nat → Tree → Tree
  | [], node kind field rows text children => node kind field rows text (children.insertIdx i c)
  | j :: rest, node kind field rows text children =>
    node kind field rows text (children.modify j (insertAt c i rest))

theorem children_insertAt_nil (c : Tree) (i : Nat) (t : Tree) :
    (insertAt c i [] t).children = t.children.insertIdx i c := by
  cases t
  rfl

theorem children_insertAt_cons (c : Tree) (i j : Nat) (rest : List Nat) (t : Tree) :
    (insertAt c i (j :: rest) t).children = t.children.modify j (insertAt c i rest) := by
  cases t
  rfl

@[simp] theorem kind_insertAt (c : Tree) (i : Nat) (a : List Nat) (t : Tree) :
    (insertAt c i a t).kind = t.kind := by
  cases t
  cases a <;> rfl

@[simp] theorem field_insertAt (c : Tree) (i : Nat) (a : List Nat) (t : Tree) :
    (insertAt c i a t).field = t.field := by
  cases t
  cases a <;> rfl

@[simp] theorem text_insertAt (c : Tree) (i : Nat) (a : List Nat) (t : Tree) :
    (insertAt c i a t).text = t.text := by
  cases t
  cases a <;> rfl

theorem children_insertAt_ne_nil {a : List Nat} {i : Nat} (ht : t.children ≠ []) :
    (insertAt c i a t).children ≠ [] := by
  cases a with
  | nil =>
      rw [children_insertAt_nil]
      exact List.ne_nil_of_length_pos
        (Nat.lt_of_lt_of_le (List.length_pos_of_ne_nil ht) List.length_le_length_insertIdx)
  | cons j rest =>
      rw [children_insertAt_cons]
      exact fun hnil => ht (by simpa using congrArg List.length hnil)

theorem filter_insertIdx (hc : p c = false) (i : Nat) (cs : List Tree) :
    (cs.insertIdx i c).filter p = cs.filter p := by
  induction cs generalizing i with
  | nil => cases i <;> simp [hc]
  | cons d ds ih =>
      cases i with
      | zero => rw [List.insertIdx_zero, List.filter_cons_of_neg (by simp [hc])]
      | succ i => rw [List.insertIdx_succ_cons, List.filter_cons, List.filter_cons, ih]

theorem forall₂_filter_modify {R : Tree → Tree → Prop} {f : Tree → Tree} {j : Nat}
    {cs : List Tree} (hrefl : ∀ d, R d d)
    (hf : ∀ d, cs[j]? = some d → R d (f d) ∧ p d = true ∧ p (f d) = true) :
    List.Forall₂ R (cs.filter p) ((cs.modify j f).filter p) := by
  induction cs generalizing j with
  | nil => simp
  | cons d ds ih =>
      cases j with
      | zero =>
          obtain ⟨hd, hp, hfp⟩ := hf d rfl
          rw [List.modify_zero_cons, List.filter_cons_of_pos hp, List.filter_cons_of_pos hfp]
          exact .cons hd (List.forall₂_same.mpr fun e _ => hrefl e)
      | succ j =>
          have hds := ih (j := j) hf
          rw [List.modify_succ_cons, List.filter_cons, List.filter_cons]
          split
          · exact .cons (hrefl d) hds
          · exact hds

theorem children_ne_nil_of_at? {a : List Nat} {n : Tree} (ha : t.at? a = some n)
    (hn : n.children ≠ []) : t.children ≠ [] := by
  cases a with
  | nil => exact Option.some.inj ha ▸ hn
  | cons j rest =>
      intro hnil
      rw [at?_cons, hnil] at ha
      cases ha

/-- A loose comment may be put anywhere among the children of a node that has some. -/
theorem sameButComments_insertAt (hc : c.isLooseComment = true) (i : Nat) {a : List Nat} {n : Tree}
    (ha : t.at? a = some n) (hn : n.children ≠ []) :
    SameButComments t (insertAt c i a t) := by
  induction a generalizing t with
  | nil =>
      refine .intro (by simp) (by simp) (.inl (by simp)) ?_
      rw [solidChildren, solidChildren, children_insertAt_nil, filter_insertIdx (by simp [hc])]
      exact List.forall₂_same.mpr fun d _ => .refl d
  | cons j rest ih =>
      refine .intro (by simp) (by simp) (.inl (by simp)) ?_
      rw [solidChildren, solidChildren, children_insertAt_cons]
      refine forall₂_filter_modify .refl fun d hd => ?_
      -- What lies on the way to the comment has children, and so is no loose comment itself.
      have hrest : d.at? rest = some n := by
        rw [at?_cons, hd] at ha
        exact ha
      have hsolid {e : Tree} (he : e.children ≠ []) : (!e.isLooseComment) = true := by
        rw [Bool.not_eq_true', Bool.eq_false_iff]
        exact fun hloose => he (isLooseComment_iff.mp hloose).2.2
      have hbefore : d.children ≠ [] := children_ne_nil_of_at? hrest hn
      exact ⟨ih hrest, hsolid hbefore, hsolid (children_insertAt_ne_nil hbefore)⟩

end Tree

/-! ## What is read of such trees -/

theorem rel_find? {R : Tree → Tree → Prop} (h : List.Forall₂ R as bs)
    (hp : ∀ a b, R a b → p a = p b) : Option.Rel R (as.find? p) (bs.find? p) := by
  induction h with
  | nil => exact .none
  | @cons a b as bs hab _ ih =>
      cases hb : p b with
      | true =>
          rw [List.find?_cons_of_pos ((hp a b hab).trans hb), List.find?_cons_of_pos hb]
          exact .some hab
      | false =>
          rw [List.find?_cons_of_neg (by simp [hp a b hab, hb]),
            List.find?_cons_of_neg (by simp [hb])]
          exact ih

theorem bind_eq_of_rel {α : Type} {R : Tree → Tree → Prop} {x y : Option Tree}
    {f : Tree → Option α} (h : Option.Rel R x y) (hf : ∀ a b, R a b → f a = f b) :
    x.bind f = y.bind f := by
  cases h with
  | none => rfl
  | some hab => exact hf _ _ hab

namespace SameButComments

theorem rel_find?_children (h : SameButComments t u)
    (hcomment : ∀ c : Tree, c.isLooseComment = true → p c = false)
    (hp : ∀ a b, SameButComments a b → p a = p b) :
    Option.Rel SameButComments (t.children.find? p) (u.children.find? p) := by
  rw [← Tree.find?_solidChildren hcomment, ← Tree.find?_solidChildren hcomment]
  cases h with
  | intro _ _ _ children => exact rel_find? children hp

theorem kind_eq (h : SameButComments t u) : t.kind = u.kind := by
  cases h
  assumption

theorem field_eq (h : SameButComments t u) : t.field = u.field := by
  cases h
  assumption

theorem readsAlike (h : SameButComments t u) : ReadsAlike t u := by
  cases h
  assumption

theorem part? (h : SameButComments t u) (field : Field) :
    Option.Rel SameButComments (t.part? field) (u.part? field) :=
  h.rel_find?_children (fun c hc => by simp [(Tree.isLooseComment_iff.mp hc).2.1])
    fun a b hab => by rw [hab.field_eq]

theorem firstArgument? (h : SameButComments t u) :
    Option.Rel SameButComments (firstArgument? t) (firstArgument? u) :=
  h.rel_find?_children (fun c hc => by simp [(Tree.isLooseComment_iff.mp hc).1])
    fun a b hab => by rw [hab.kind_eq]

theorem stringValue?_eq (h : SameButComments t u) : stringValue? t = stringValue? u := by
  rw [stringValue?, stringValue?, ← h.kind_eq]
  rcases h.readsAlike with htext | ⟨hstring, -⟩
  · rw [htext]
  · simp [hstring]

theorem callKind?_eq (h : SameButComments t u) : callKind? t = callKind? u := by
  rcases h.readsAlike with htext | ⟨-, ht, hu⟩
  · rw [callKind?, callKind?, htext]
  · rw [ht, hu]

/-- A node asks for what it asks for with other comments in it. -/
theorem map_importAt?_eq (h : SameButComments t u) :
    (importAt? t).map ImportStatement.request = (importAt? u).map ImportStatement.request := by
  have hsource : (t.part? .source).bind stringValue? = (u.part? .source).bind stringValue? :=
    bind_eq_of_rel (h.part? .source) fun _ _ => stringValue?_eq
  have hcallee : (t.part? .function).bind callKind? = (u.part? .function).bind callKind? :=
    bind_eq_of_rel (h.part? .function) fun _ _ => callKind?_eq
  have hargument : ((t.part? .arguments).bind Syntax.firstArgument?).bind stringValue? =
      ((u.part? .arguments).bind Syntax.firstArgument?).bind stringValue? := by
    rw [Option.bind_assoc, Option.bind_assoc]
    exact bind_eq_of_rel (h.part? .arguments) fun _ _ hab =>
      bind_eq_of_rel hab.firstArgument? fun _ _ => stringValue?_eq
  simp only [importAt?, ← h.kind_eq, bind, hsource, hcallee, hargument]
  cases t.kind <;> simp [ImportStatement.request, Option.map_bind, Function.comp_def]

end SameButComments

/-! ## Imports -/

/-- What the imports of a tree ask for, in the order of the imports. -/
def requests (t : Tree) : List (String × ImportKind) :=
  (extractImports t).map ImportStatement.request

theorem requests_eq (t : Tree) :
    requests t = ((importAt? t).map ImportStatement.request).toList ++
      t.children.flatMap requests := by
  have hall (u : Tree) : requests u =
      u.preorder.flatMap fun n => ((importAt? n).map ImportStatement.request).toList := by
    rw [requests, extractImports_eq, List.map_flatMap]
    simp only [Option.toList_map]
  have hchildren : t.children.flatMap requests = (t.children.flatMap Tree.preorder).flatMap
      fun n => ((importAt? n).map ImportStatement.request).toList := by
    rw [List.flatMap_assoc]
    exact List.flatMap_congr fun c _ => hall c
  rw [hall, Tree.preorder_eq, List.flatMap_cons, hchildren]

theorem requests_of_isLooseComment (hc : c.isLooseComment = true) : requests c = [] := by
  obtain ⟨hkind, -, hchildren⟩ := Tree.isLooseComment_iff.mp hc
  simp [requests_eq, importAt?, hkind, hchildren]

theorem flatMap_eq_of_forall₂ {α : Type} {R : Tree → Tree → Prop} {f : Tree → List α}
    (h : List.Forall₂ R as bs) (hf : ∀ a ∈ as, ∀ b, R a b → f a = f b) :
    as.flatMap f = bs.flatMap f := by
  induction h with
  | nil => rfl
  | cons hab _ ih =>
      rw [List.forall_mem_cons] at hf
      rw [List.flatMap_cons, List.flatMap_cons, hf.1 _ hab, ih hf.2]

theorem requests_eq_of_sameButComments (h : SameButComments t u) : requests t = requests u := by
  induction t using Tree.induction_on generalizing u with
  | node t ih =>
      have hchildren : t.solidChildren.flatMap requests = u.solidChildren.flatMap requests := by
        cases h with
        | intro _ _ _ children =>
            refine flatMap_eq_of_forall₂ children fun a ha b hab => ?_
            exact ih a (List.mem_filter.mp ha).1 hab
      rw [requests_eq t, requests_eq u, h.map_importAt?_eq,
        ← Tree.flatMap_solidChildren fun c => requests_of_isLooseComment,
        ← Tree.flatMap_solidChildren fun c => requests_of_isLooseComment, hchildren]

/-- Comments change neither what is imported, nor how, nor in which order. -/
theorem request_of_sameButComments (h : SameButComments t u) :
    (extractImports t).map ImportStatement.request =
      (extractImports u).map ImportStatement.request :=
  requests_eq_of_sameButComments h

/-! ### Comments around every part of a call -/

def comment (text : String) (row : Nat) : Tree := .node .comment none ⟨row, row⟩ text []

/-- The nested call with comments behind the callee and in both lists of arguments. -/
def annotatedCall : Tree :=
  .node .callExpression none ⟨0, 2⟩ "require/* 1 */(/* 2 */ './a', // 3\n\nrequire('./b' /* 4 */))"
    [.node .identifier (some .function) ⟨0, 0⟩ "require" [],
      comment "/* 1 */" 0,
      .node .arguments (some .arguments) ⟨0, 2⟩ "(/* 2 */ './a', // 3\n\nrequire('./b' /* 4 */))"
        [comment "/* 2 */" 0,
          .node .string none ⟨0, 0⟩ "'./a'" [],
          comment "// 3" 0,
          .node .callExpression none ⟨2, 2⟩ "require('./b' /* 4 */)"
            [.node .identifier (some .function) ⟨2, 2⟩ "require" [],
              .node .arguments (some .arguments) ⟨2, 2⟩ "('./b' /* 4 */)"
                [.node .string none ⟨2, 2⟩ "'./b'" [],
                  comment "/* 4 */" 2]]]]

theorem sameButComments_annotatedCall : SameButComments nestedCall annotatedCall := by
  have hbody : ∀ {t u : Tree}, t.kind = u.kind → t.field = u.field →
      (t.kind ≠ .string ∧ callKind? t = none ∧ callKind? u = none) →
      List.Forall₂ SameButComments t.solidChildren u.solidChildren → SameButComments t u :=
    fun hkind hfield htext => .intro hkind hfield (.inr htext)
  have hleaf : ∀ {t u : Tree}, t.kind = u.kind → t.field = u.field → t.text = u.text →
      t.solidChildren = [] → u.solidChildren = [] → SameButComments t u :=
    fun hkind hfield htext ht hu => .intro hkind hfield (.inl htext) (by rw [ht, hu]; exact .nil)
  refine hbody rfl rfl (by decide) (.cons (hleaf rfl rfl rfl rfl rfl) (.cons ?_ .nil))
  refine hbody rfl rfl (by decide) (.cons (hleaf rfl rfl rfl rfl rfl) (.cons ?_ .nil))
  refine hbody rfl rfl (by decide) (.cons (hleaf rfl rfl rfl rfl rfl) (.cons ?_ .nil))
  exact hbody rfl rfl (by decide) (.cons (hleaf rfl rfl rfl rfl rfl) .nil)

/-- The same call with one comment more, before the closing bracket of the inner arguments. -/
def annotatedMore : Tree := Tree.insertAt (comment "// 5\n" 2) 2 [2, 3, 1] annotatedCall

theorem sameButComments_annotatedMore : SameButComments annotatedCall annotatedMore :=
  Tree.sameButComments_insertAt rfl 2 rfl (List.cons_ne_nil _ _)

theorem request_annotatedCall :
    (SameButComments nestedCall annotatedCall ∧
      (extractImports nestedCall).map ImportStatement.request =
        (extractImports annotatedCall).map ImportStatement.request ∧
      extractImports annotatedCall = [⟨"./a", 1, .require⟩, ⟨"./b", 3, .require⟩]) ∧
    SameButComments annotatedCall annotatedMore ∧
      (extractImports annotatedCall).map ImportStatement.request =
        (extractImports annotatedMore).map ImportStatement.request :=
  ⟨⟨sameButComments_annotatedCall, request_of_sameButComments sameButComments_annotatedCall,
      by cbv⟩,
    sameButComments_annotatedMore, request_of_sameButComments sameButComments_annotatedMore⟩

end Syntax

end ImportAtlas
