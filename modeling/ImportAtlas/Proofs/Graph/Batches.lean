import Mathlib

/-!
# Batches done in any order

The batches of a list of files are computed one by one in whatever order workers get to them, and
each is put into the slot of its file. Once all are done the slots hold the batches in the order of
the files, whatever order they were done in.
-/

namespace ImportAtlas.GraphBuilder

variable {β : Type}

/-- A slot for each file, filled once its batch is done. -/
abbrev Slots (β : Type) := List (Option β)

namespace Slots

def empty (n : Nat) : Slots β := List.replicate n none

def finish (batch : Nat → β) (slots : Slots β) (i : Nat) : Slots β := slots.set i (some (batch i))

/-- The slots of `n` files after the batches of some have been done in the given order. -/
def run (batch : Nat → β) (n : Nat) (order : List Nat) : Slots β :=
  order.foldl (finish batch) (empty n)

def collect? : Slots β → Option (List β)
  | [] => some []
  | none :: _ => none
  | some b :: rest => (collect? rest).map (b :: ·)

/-- The slots of the files that are done hold their batches, the others nothing. -/
def Holds (batch : Nat → β) (done : List Nat) (slots : Slots β) : Prop :=
  ∀ i, (h : i < slots.length) → slots[i] = if i ∈ done then some (batch i) else none

variable {batch : Nat → β} {done order : List Nat} {slots : Slots β}

theorem holds_empty (batch : Nat → β) (n : Nat) : Holds batch [] (empty n) := by
  intro i h
  simp [empty]

@[simp] theorem length_finish (slots : Slots β) (i : Nat) :
    (finish batch slots i).length = slots.length := by simp [finish]

theorem Holds.finish (h : Holds batch done slots) (i : Nat) :
    Holds batch (i :: done) (slots.finish batch i) := by
  intro j hj
  rw [length_finish] at hj
  by_cases hij : i = j
  · subst hij
    simp [Slots.finish]
  · simp [Slots.finish, List.getElem_set_ne hij, h j hj, Ne.symm hij]

theorem Holds.foldl (h : Holds batch done slots) (order : List Nat) :
    Holds batch (order.reverse ++ done) (order.foldl (Slots.finish batch) slots) := by
  induction order generalizing done slots with
  | nil => exact h
  | cons i rest ih =>
      rw [List.foldl_cons, List.reverse_cons, List.append_assoc]
      exact ih (h.finish i)

theorem length_run (batch : Nat → β) (n : Nat) (order : List Nat) :
    (run batch n order).length = n := by
  have hfold (slots : Slots β) : (order.foldl (finish batch) slots).length = slots.length := by
    induction order generalizing slots with
    | nil => rfl
    | cons i rest ih => rw [List.foldl_cons, ih, length_finish]
  rw [run, hfold, empty, List.length_replicate]

theorem collect?_map_some (bs : List β) : collect? (bs.map some) = some bs := by
  induction bs with
  | nil => rfl
  | cons b bs ih => rw [List.map_cons, collect?, ih, Option.map_some]

theorem holds_run (batch : Nat → β) (n : Nat) (order : List Nat) :
    Holds batch order.reverse (run batch n order) := by
  have h := (holds_empty batch n).foldl order
  rwa [List.append_nil] at h

/-- Done in any order, the batches are collected in the order of the files. -/
theorem collect?_run {n : Nat} (horder : order.Perm (List.range n)) :
    (run batch n order).collect? = some ((List.range n).map batch) := by
  have hrun : run batch n order = ((List.range n).map batch).map some := by
    apply List.ext_getElem
    · rw [length_run, List.length_map, List.length_map, List.length_range]
    · intro i hi _
      have hmem : i ∈ order.reverse := by
        rw [length_run] at hi
        simp [horder.mem_iff, hi]
      rw [holds_run batch n order i hi, if_pos hmem]
      simp
  rw [hrun, collect?_map_some]

end Slots

end ImportAtlas.GraphBuilder
