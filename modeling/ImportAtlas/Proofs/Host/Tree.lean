import ImportAtlas.Host.Entry
import Mathlib

/-!
# Well-formed file trees

In a file tree as a host keeps it the names of a folder are distinct and can stand as one part of a
path. Such a name leads to one entry only, and all this is inherited by every entry of the tree.
-/

namespace ImportAtlas.Host

/-- A name that stands for itself in a path. -/
structure IsSegment (name : String) : Prop where
  ne_empty : name ≠ ""
  ne_current : name ≠ "."
  ne_parent : name ≠ ".."
  no_slash : '/' ∉ name.toList

/-- A name that a folder can hold. -/
structure IsEntryName (name : String) : Prop extends IsSegment name where
  no_nul : '\x00' ∉ name.toList

instance (name : String) : Decidable (IsSegment name) :=
  decidable_of_iff (name ≠ "" ∧ name ≠ "." ∧ name ≠ ".." ∧ '/' ∉ name.toList)
    ⟨fun ⟨h₀, h₁, h₂, h₃⟩ => ⟨h₀, h₁, h₂, h₃⟩, fun h => ⟨h.1, h.2, h.3, h.4⟩⟩

instance (name : String) : Decidable (IsEntryName name) :=
  decidable_of_iff (IsSegment name ∧ '\x00' ∉ name.toList)
    ⟨fun ⟨h₀, h₁⟩ => ⟨h₀, h₁⟩, fun h => ⟨h.1, h.2⟩⟩

namespace Entry

/-- Induction over a tree, with one hypothesis for all entries of a folder. -/
@[elab_as_elim]
theorem induction_on {motive : Entry → Prop} (e : Entry) (file : ∀ c, motive (.file c))
    (link : ∀ t, motive (.link t))
    (folder : ∀ es, (∀ x ∈ es, motive x.2) → motive (.folder es)) : motive e :=
  Entry.rec (motive_1 := motive) (motive_2 := fun es => ∀ x ∈ es, motive x.2)
    (motive_3 := fun x => motive x.2) file link folder (fun _ hx => absurd hx List.not_mem_nil)
    (fun _ _ hx hes _ hy => (List.mem_cons.mp hy).elim (fun h => h ▸ hx) (hes _))
    (fun _ _ h => h) e

inductive WellFormed : Entry → Prop
  | file (content : ByteArray) : WellFormed (.file content)
  | link (target : String) : WellFormed (.link target)
  | folder {es : List (String × Entry)} (distinct : (es.map (·.1)).Nodup)
      (names : ∀ x ∈ es, IsEntryName x.1) (entries : ∀ x ∈ es, WellFormed x.2) :
      WellFormed (.folder es)

inductive LinkFree : Entry → Prop
  | file (content : ByteArray) : LinkFree (.file content)
  | folder {es : List (String × Entry)} (entries : ∀ x ∈ es, LinkFree x.2) : LinkFree (.folder es)

/-! ### Deciding the shape of a tree -/

mutual

def isWellFormed : Entry → Bool
  | file _ => true
  | link _ => true
  | folder es =>
    decide (es.map (·.1)).Nodup && es.all (fun x => decide (IsEntryName x.1)) && areWellFormed es

def areWellFormed : List (String × Entry) → Bool
  | [] => true
  | (_, e) :: rest => isWellFormed e && areWellFormed rest

end

theorem areWellFormed_eq_all (es : List (String × Entry)) :
    areWellFormed es = es.all fun x => x.2.isWellFormed := by
  induction es with
  | nil => rw [areWellFormed, List.all_nil]
  | cons x rest ih => rw [areWellFormed, ih, List.all_cons]

theorem isWellFormed_iff (e : Entry) : e.isWellFormed = true ↔ e.WellFormed := by
  induction e using induction_on with
  | file c => simpa [isWellFormed] using WellFormed.file c
  | link t => simpa [isWellFormed] using WellFormed.link t
  | folder es ih =>
      rw [isWellFormed, areWellFormed_eq_all]
      simp only [Bool.and_eq_true, decide_eq_true_eq, List.all_eq_true]
      constructor
      · rintro ⟨⟨hdistinct, hnames⟩, hentries⟩
        exact .folder hdistinct hnames fun x hx => (ih x hx).mp (hentries x hx)
      · intro h
        cases h with
        | folder hdistinct hnames hentries =>
            exact ⟨⟨hdistinct, hnames⟩, fun x hx => (ih x hx).mpr (hentries x hx)⟩

instance (e : Entry) : Decidable e.WellFormed := decidable_of_iff _ (isWellFormed_iff e)

mutual

def isLinkFree : Entry → Bool
  | file _ => true
  | link _ => false
  | folder es => areLinkFree es

def areLinkFree : List (String × Entry) → Bool
  | [] => true
  | (_, e) :: rest => isLinkFree e && areLinkFree rest

end

theorem areLinkFree_eq_all (es : List (String × Entry)) :
    areLinkFree es = es.all fun x => x.2.isLinkFree := by
  induction es with
  | nil => rw [areLinkFree, List.all_nil]
  | cons x rest ih => rw [areLinkFree, ih, List.all_cons]

theorem isLinkFree_iff (e : Entry) : e.isLinkFree = true ↔ e.LinkFree := by
  induction e using induction_on with
  | file c => simpa [isLinkFree] using LinkFree.file c
  | link t =>
      rw [isLinkFree]
      exact ⟨fun h => absurd h Bool.false_ne_true, fun h => nomatch h⟩
  | folder es ih =>
      rw [isLinkFree, areLinkFree_eq_all, List.all_eq_true]
      constructor
      · exact fun hentries => .folder fun x hx => (ih x hx).mp (hentries x hx)
      · intro h
        cases h with
        | folder hentries => exact fun x hx => (ih x hx).mpr (hentries x hx)

instance (e : Entry) : Decidable e.LinkFree := decidable_of_iff _ (isLinkFree_iff e)

variable {e f : Entry} {es : List (String × Entry)} {name : String} {place below : List String}

@[simp] theorem find?_nil (name : String) : find? name [] = none := rfl

theorem find?_cons (name : String) (x : String × Entry) (es : List (String × Entry)) :
    find? name (x :: es) = if x.1 = name then some x.2 else find? name es := by
  obtain ⟨n, e⟩ := x
  rw [find?]
  by_cases hn : n = name <;> simp [hn]

theorem mem_of_find? (h : find? name es = some e) : (name, e) ∈ es := by
  induction es with
  | nil => simp at h
  | cons x rest ih =>
      rw [find?_cons] at h
      by_cases hx : x.1 = name
      · rw [if_pos hx, Option.some.injEq] at h
        rw [← hx, ← h]
        exact List.mem_cons_self
      · rw [if_neg hx] at h
        exact List.mem_cons_of_mem _ (ih h)

theorem find?_of_mem (hes : (es.map (·.1)).Nodup) (h : (name, e) ∈ es) :
    find? name es = some e := by
  induction es with
  | nil => simp at h
  | cons x rest ih =>
      rw [List.map_cons, List.nodup_cons] at hes
      rw [find?_cons]
      rcases List.mem_cons.mp h with rfl | hrest
      · exact if_pos rfl
      · have hx : x.1 ≠ name := fun he => hes.1 (he ▸ List.mem_map_of_mem (f := (·.1)) hrest)
        rw [if_neg hx, ih hes.2 hrest]

@[simp] theorem at?_nil (e : Entry) : e.at? [] = some e := by simp [at?]

theorem at?_cons (e : Entry) (name : String) (rest : List String) :
    e.at? (name :: rest) = (e.child? name).bind (at? rest) := by simp [at?]

theorem at?_append (e : Entry) (place below : List String) :
    e.at? (place ++ below) = (e.at? place).bind (at? below) := by
  induction place generalizing e with
  | nil => simp
  | cons name rest ih =>
      rw [List.cons_append, at?_cons, at?_cons]
      cases e.child? name with
      | none => rfl
      | some d => exact ih d

theorem at?_snoc (h : e.at? place = some (.folder es)) (name : String) :
    e.at? (place ++ [name]) = find? name es := by
  rw [at?_append, h, Option.bind_some, at?_cons, child?, entries]
  cases find? name es <;> simp

theorem exists_of_isFolder (h : e.isFolder = true) : ∃ es, e = folder es := by
  cases e with
  | file c => cases h
  | link target => cases h
  | folder es => exact ⟨es, rfl⟩

theorem child?_eq_some_iff :
    e.child? name = some f ↔ ∃ es, e = .folder es ∧ find? name es = some f := by
  cases e <;> simp [child?, entries]

namespace WellFormed

theorem of_mem (h : (Entry.folder es).WellFormed) {x : String × Entry} (hx : x ∈ es) :
    x.2.WellFormed := by
  cases h with
  | folder _ _ entries => exact entries x hx

theorem distinct (h : (Entry.folder es).WellFormed) : (es.map (·.1)).Nodup := by
  cases h with
  | folder distinct _ _ => exact distinct

theorem of_child? (he : e.WellFormed) (h : e.child? name = some f) :
    f.WellFormed ∧ IsEntryName name := by
  obtain ⟨es, rfl, hf⟩ := child?_eq_some_iff.mp h
  cases he with
  | folder _ names entries => exact ⟨entries _ (mem_of_find? hf), names _ (mem_of_find? hf)⟩

theorem of_at? (he : e.WellFormed) (h : e.at? place = some f) :
    f.WellFormed ∧ ∀ n ∈ place, IsEntryName n := by
  induction place generalizing e with
  | nil =>
      rw [at?_nil, Option.some.injEq] at h
      exact ⟨h ▸ he, by simp⟩
  | cons name rest ih =>
      rw [at?_cons, Option.bind_eq_some_iff] at h
      obtain ⟨d, hd, hf⟩ := h
      obtain ⟨hwd, hname⟩ := he.of_child? hd
      obtain ⟨hwf, hrest⟩ := ih hwd hf
      exact ⟨hwf, List.forall_mem_cons.mpr ⟨hname, hrest⟩⟩

end WellFormed

theorem LinkFree.of_mem (h : (Entry.folder es).LinkFree) {x : String × Entry} (hx : x ∈ es) :
    x.2.LinkFree := by
  cases h with
  | folder entries => exact entries x hx

theorem LinkFree.of_at? (he : e.LinkFree) (h : e.at? place = some f) : f.LinkFree := by
  induction place generalizing e with
  | nil =>
      rw [at?_nil, Option.some.injEq] at h
      exact h ▸ he
  | cons name rest ih =>
      rw [at?_cons, Option.bind_eq_some_iff] at h
      obtain ⟨d, hd, hf⟩ := h
      obtain ⟨es, rfl, hfind⟩ := child?_eq_some_iff.mp hd
      cases he with
      | folder entries => exact ih (entries _ (mem_of_find? hfind)) hf

theorem count_le_countAll {x : String × Entry} (hx : x ∈ es) : x.2.count ≤ countAll es := by
  induction es with
  | nil => simp at hx
  | cons y rest ih =>
      obtain ⟨n, d⟩ := y
      rw [countAll]
      rcases List.mem_cons.mp hx with rfl | hx
      · exact Nat.le_add_right _ _
      · exact Nat.le_trans (ih hx) (Nat.le_add_left _ _)

theorem count_lt_of_mem {x : String × Entry} (hx : x ∈ es) : x.2.count < (folder es).count := by
  have hle := count_le_countAll hx
  rw [count]
  omega

theorem count_le_of_at? (h : e.at? place = some f) : f.count ≤ e.count := by
  induction place generalizing e with
  | nil =>
      rw [at?_nil, Option.some.injEq] at h
      exact Nat.le_of_eq (h ▸ rfl)
  | cons name rest ih =>
      rw [at?_cons, Option.bind_eq_some_iff] at h
      obtain ⟨d, hd, hf⟩ := h
      obtain ⟨es, rfl, hfind⟩ := child?_eq_some_iff.mp hd
      exact Nat.le_trans (ih hf) (Nat.le_of_lt (count_lt_of_mem (mem_of_find? hfind)))

/-! ### Deep trees and long names -/

theorem wellFormed_singleton {folder : String} (hfolder : IsEntryName folder) (he : e.WellFormed) :
    (Entry.folder [(folder, e)]).WellFormed :=
  .folder (by simp) (by simpa using hfolder) (by simpa using he)

/-- A tree in which some names lead one way down to an entry. -/
def chain : List String → Entry → Entry
  | [], e => e
  | name :: names, e => .folder [(name, chain names e)]

theorem at?_chain (names : List String) (e : Entry) : (chain names e).at? names = some e := by
  induction names with
  | nil => exact at?_nil e
  | cons name names ih =>
      rw [chain, at?_cons, child?, entries, find?_cons, if_pos rfl]
      exact ih

theorem chain_append (above below : List String) (e : Entry) :
    chain (above ++ below) e = chain above (chain below e) := by
  induction above with
  | nil => rfl
  | cons name above ih => rw [List.cons_append, chain, chain, ih]

theorem wellFormed_chain {names : List String} (hnames : ∀ n ∈ names, IsEntryName n)
    (he : e.WellFormed) : (chain names e).WellFormed := by
  induction names with
  | nil => exact he
  | cons name names ih =>
      obtain ⟨hname, hothers⟩ := List.forall_mem_cons.mp hnames
      exact wellFormed_singleton hname (ih hothers)

theorem linkFree_chain (names : List String) (he : e.LinkFree) : (chain names e).LinkFree := by
  induction names with
  | nil => exact he
  | cons name names ih => exact .folder (by simpa using ih)

end Entry

/-- A name of some length. -/
def longName (size : Nat) : String := String.ofList (List.replicate size 'd')

variable {size : Nat} {suffix : String}

theorem utf8ByteSize_longName (size : Nat) : (longName size).utf8ByteSize = size := by
  rw [longName, String.utf8ByteSize_ofList]
  induction size with
  | zero => rfl
  | succ size ih =>
      rw [List.replicate_succ, String.utf8Len_cons, ih]
      rfl

theorem eq_of_mem_longName {c : Char} (hc : c ∈ (longName size).toList) : c = 'd' := by
  rw [longName, String.toList_ofList] at hc
  exact List.eq_of_mem_replicate hc

theorem isEntryName_longName_append (hsize : 2 < size)
    (hsuffix : '/' ∉ suffix.toList ∧ '\x00' ∉ suffix.toList) :
    IsEntryName (longName size ++ suffix) := by
  have hlength : (longName size ++ suffix).length = size + suffix.length := by
    rw [String.length_append, longName, String.length_ofList, List.length_replicate]
  have hne {short : String} (hshort : short.length ≤ 2) : longName size ++ suffix ≠ short := by
    rintro rfl
    omega
  refine ⟨⟨hne (by decide), hne (by decide), hne (by decide), ?_⟩, ?_⟩
  · simpa [longName] using hsuffix.1
  · simpa [longName] using hsuffix.2

end ImportAtlas.Host
