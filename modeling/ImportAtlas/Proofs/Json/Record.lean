import ImportAtlas.Json.Record

/-!
# Fields of records in JSON

The value of a field is got back from the form in which it is written.
-/

namespace ImportAtlas.Json

variable {α : Type} {bound n : Nat} {value : Json → Option α} {toJson : α → Json}

theorem asNat?_nat (h : n < bound) : asNat? bound (nat n) = some n := by
  simp [asNat?, nat, h]

theorem asList?_map {as : List α} (h : ∀ a ∈ as, value (toJson a) = some a) :
    asList? value (arr (as.map toJson)) = some as := by
  rw [asList?]
  induction as with
  | nil => rfl
  | cons a as ih =>
      obtain ⟨ha, has⟩ := List.forall_mem_cons.mp h
      simp [ha, ih has]

@[simp] theorem asString?_str (s : String) : asString? (str s) = some s := rfl

@[simp] theorem asBool?_bool (b : Bool) : asBool? (bool b) = some b := rfl

@[simp] theorem asName?_str (ofName? : String → Option α) (s : String) :
    asName? ofName? (str s) = ofName? s := rfl

@[simp] theorem asList?_strings (ss : List String) : asList? asString? (strings ss) = some ss :=
  asList?_map fun s _ => asString?_str s

theorem asOption?_ofOption {o : Option α} (hnull : ∀ a, toJson a ≠ null)
    (h : ∀ a, value (toJson a) = some a) : asOption? value (ofOption toJson o) = some o := by
  cases o with
  | none => rfl
  | some a =>
      rw [ofOption, asOption?, h, Option.map_some]
      exact hnull a

end ImportAtlas.Json
