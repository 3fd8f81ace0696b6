import ImportAtlas.Host.Location
import ImportAtlas.Proofs.Host.Tree
import ImportAtlas.Proofs.Text.Fields

/-!
# Joining locations

A path joined from a base and plain segments has the parts of the base followed by the segments.
Seen from the base it is the segments alone.
-/

namespace ImportAtlas.Host.Location

open Text

variable {base path s : String} {segs : List String}

theorem isSlash_slash : isSlash '/' = true := by decide

theorem plain_of_isSegment (hs : IsSegment s) : ∀ c ∈ s.toList, isSlash c = false := by
  intro c hc
  exact beq_eq_false_iff_ne.mpr fun he => hs.no_slash (he ▸ hc)

theorem fields_joinFields_segments (hne : segs ≠ []) (hsegs : ∀ s ∈ segs, IsSegment s) :
    fields isSlash (joinFields '/' segs) = segs :=
  fields_joinFields isSlash_slash hne fun s hs => plain_of_isSegment (hsegs s hs)

theorem joinFields_segments_inj {other : List String} (hne : segs ≠ []) (hother : other ≠ [])
    (hs : ∀ s ∈ segs, IsSegment s) (ho : ∀ s ∈ other, IsSegment s)
    (h : joinFields '/' segs = joinFields '/' other) : segs = other :=
  joinFields_injOn hne hother (fun s hm => (hs s hm).no_slash) (fun s hm => (ho s hm).no_slash) h

theorem isAbsolute_append (hbase : base ≠ "") (path : String) :
    isAbsolute (base ++ path) = isAbsolute base := by
  obtain ⟨c, cs, hcs⟩ := List.exists_cons_of_ne_nil (fun h => hbase (String.toList_eq_nil_iff.mp h))
  simp [isAbsolute, hcs]

theorem isAbsolute_of_isSegment (hs : IsSegment s) : isAbsolute s = false := by
  rw [isAbsolute, beq_eq_false_iff_ne]
  intro h
  exact hs.no_slash (List.mem_of_head? h)

theorem isAbsolute_joinFields (hne : segs ≠ []) (hsegs : ∀ s ∈ segs, IsSegment s) :
    isAbsolute (joinFields '/' segs) = false := by
  obtain ⟨s, rest, rfl⟩ := List.exists_cons_of_ne_nil hne
  have hs : IsSegment s := hsegs s List.mem_cons_self
  by_cases hrest : rest = []
  · simpa [hrest, joinFields] using isAbsolute_of_isSegment hs
  · rw [← List.singleton_append, joinFields_append '/' (by simp) hrest, String.append_assoc,
      isAbsolute_append (by simpa [joinFields] using hs.ne_empty)]
    simpa [joinFields] using isAbsolute_of_isSegment hs

theorem join_eq (hbase : base ≠ "") (hpath : isAbsolute path = false) :
    join base path = (if base.toList.getLast? = some '/' then base else base ++ "/") ++ path := by
  simp only [join, hpath, Bool.false_or, String.isEmpty_iff, hbase, if_false, beq_iff_eq]
  split <;> rfl

theorem join_ne_empty (hbase : base ≠ "") (hpath : isAbsolute path = false) :
    join base path ≠ "" := by
  rw [join_eq hbase hpath]
  split <;> simp [hbase]

theorem isAbsolute_join (hbase : base ≠ "") (hpath : isAbsolute path = false) :
    isAbsolute (join base path) = isAbsolute base := by
  rw [join_eq hbase hpath]
  split
  · exact isAbsolute_append hbase path
  · rw [String.append_assoc, isAbsolute_append hbase]

theorem join_join (hbase : base ≠ "") (hs : IsSegment s) (hpath : isAbsolute path = false) :
    join (join base s) path = join base (s ++ "/" ++ path) := by
  have hsa : isAbsolute s = false := isAbsolute_of_isSegment hs
  have hlast : (join base s).toList.getLast? ≠ some '/' := by
    have hne : s.toList ≠ [] := fun h => hs.ne_empty (String.toList_eq_nil_iff.mp h)
    rw [join_eq hbase hsa, String.toList_append, List.getLast?_append,
      List.getLast?_eq_some_getLast hne, Option.some_or]
    intro h
    exact hs.no_slash (Option.some.inj h ▸ List.getLast_mem hne)
  have hinner : isAbsolute (s ++ "/" ++ path) = false := by
    rw [String.append_assoc, isAbsolute_append hs.ne_empty, hsa]
  rw [join_eq (join_ne_empty hbase hsa) hpath, if_neg hlast, join_eq hbase hsa,
    join_eq hbase hinner]
  simp only [String.append_assoc]

@[simp] theorem joinAll_nil (base : String) : joinAll base [] = base := rfl

theorem joinAll_eq_join (hbase : base ≠ "") (hne : segs ≠ []) (hsegs : ∀ s ∈ segs, IsSegment s) :
    joinAll base segs = join base (joinFields '/' segs) := by
  induction segs generalizing base with
  | nil => exact absurd rfl hne
  | cons s rest ih =>
      have hs : IsSegment s := hsegs s List.mem_cons_self
      by_cases hrest : rest = []
      · simp [hrest, joinAll, joinFields]
      · have hplain : ∀ t ∈ rest, IsSegment t := fun t ht => hsegs t (List.mem_cons_of_mem s ht)
        have hcons : joinFields '/' (s :: rest) = s ++ "/" ++ joinFields '/' rest := by
          rw [← List.singleton_append, joinFields_append '/' (by simp) hrest]
          simp [joinFields]
        rw [joinAll, List.foldl_cons, ← joinAll,
          ih (join_ne_empty hbase (isAbsolute_of_isSegment hs)) hrest hplain,
          join_join hbase hs (isAbsolute_joinFields hrest hplain), hcons]

theorem joinFields_ne_empty (hne : segs ≠ []) (hsegs : ∀ s ∈ segs, IsSegment s) :
    joinFields '/' segs ≠ "" := by
  intro hempty
  have hfields := fields_joinFields_segments hne hsegs
  rw [hempty] at hfields
  exact (hsegs "" (hfields ▸ List.mem_singleton_self "")).ne_empty rfl

/-- Segments that are joined to the empty path are their own path. -/
theorem joinAll_empty (hsegs : ∀ s ∈ segs, IsSegment s) : joinAll "" segs = joinFields '/' segs := by
  cases segs with
  | nil => rfl
  | cons s rest =>
      obtain ⟨hs, hplain⟩ := List.forall_mem_cons.mp hsegs
      have hfirst : join "" s = s := by simp [join]
      rw [joinAll, List.foldl_cons, ← joinAll, hfirst]
      by_cases hrest : rest = []
      · simp [hrest, joinFields]
      · have hlast : ¬ s.toList.getLast? = some '/' := fun hlast =>
          hs.no_slash (List.mem_of_getLast? hlast)
        rw [joinAll_eq_join hs.ne_empty hrest hplain,
          join_eq hs.ne_empty (isAbsolute_joinFields hrest hplain), if_neg hlast,
          ← List.singleton_append, joinFields_append '/' (by simp) hrest]
        simp [joinFields]

theorem utf8ByteSize_le_joinAll (hbase : base ≠ "") (hsegs : ∀ s ∈ segs, IsSegment s) :
    base.utf8ByteSize ≤ (joinAll base segs).utf8ByteSize := by
  induction segs generalizing base with
  | nil => exact Nat.le_refl _
  | cons s rest ih =>
      obtain ⟨hs, hplain⟩ := List.forall_mem_cons.mp hsegs
      have hrel : isAbsolute s = false := isAbsolute_of_isSegment hs
      have hstep : base.utf8ByteSize ≤ (join base s).utf8ByteSize := by
        rw [join_eq hbase hrel, String.utf8ByteSize_append]
        split
        · exact Nat.le_add_right _ _
        · rw [String.utf8ByteSize_append]
          omega
      exact hstep.trans (ih (join_ne_empty hbase hrel) hplain)

theorem joinAll_append (base : String) (segs more : List String) :
    joinAll base (segs ++ more) = joinAll (joinAll base segs) more := List.foldl_append

theorem joinAll_ne_empty (hbase : base ≠ "") (hsegs : ∀ s ∈ segs, IsSegment s) :
    joinAll base segs ≠ "" := by
  by_cases hne : segs = []
  · simpa [hne] using hbase
  · rw [joinAll_eq_join hbase hne hsegs]
    exact join_ne_empty hbase (isAbsolute_joinFields hne hsegs)

theorem joinAll_ne_empty_of_ne_nil (hne : segs ≠ []) (hsegs : ∀ s ∈ segs, IsSegment s) :
    joinAll base segs ≠ "" := by
  by_cases hbase : base = ""
  · rw [hbase, joinAll_empty hsegs]
    exact joinFields_ne_empty hne hsegs
  · exact joinAll_ne_empty hbase hsegs

theorem mem_toList_joinAll {c : Char} (hc : c ≠ '/') (hsegs : ∀ s ∈ segs, IsSegment s) :
    c ∈ (joinAll base segs).toList ↔ c ∈ base.toList ∨ ∃ s ∈ segs, c ∈ s.toList := by
  induction segs generalizing base with
  | nil => simp
  | cons s rest ih =>
      have hs : isAbsolute s = false := isAbsolute_of_isSegment (hsegs s List.mem_cons_self)
      have hjoin : c ∈ (join base s).toList ↔ c ∈ base.toList ∨ c ∈ s.toList := by
        by_cases hbase : base = ""
        · simp [hbase, join]
        · rw [join_eq hbase hs]
          split <;> simp [hc]
      rw [joinAll, List.foldl_cons, ← joinAll,
        ih fun t ht => hsegs t (List.mem_cons_of_mem s ht), hjoin]
      simp [or_assoc]

/-- The fields of a joined path: those of the base, without the empty one behind a closing slash,
and then those of the path. -/
theorem fields_join (hbase : base ≠ "") (hpath : isAbsolute path = false) :
    ∃ front close, fields isSlash base = front ++ close ∧ (close = [] ∨ close = [""]) ∧
      fields isSlash (join base path) = front ++ fields isSlash path := by
  rw [join_eq hbase hpath]
  split
  next hlast =>
    obtain ⟨front, hfront⟩ := List.getLast?_eq_some_iff.mp hlast
    have hb : base = String.ofList front ++ String.singleton '/' ++ "" := by
      apply String.toList_injective
      simp [hfront]
    refine ⟨fields isSlash (String.ofList front), [""], ?_, Or.inr rfl, ?_⟩
    · rw [hb, fields_append_sep _ isSlash_slash]
      rfl
    · rw [hb, String.append_empty, fields_append_sep _ isSlash_slash]
  next =>
    exact ⟨fields isSlash base, [], by simp, Or.inl rfl, fields_append_sep base isSlash_slash path⟩

theorem isAbsolute_joinAll (base : String) (hne : segs ≠ []) (hsegs : ∀ s ∈ segs, IsSegment s) :
    isAbsolute (joinAll base segs) = isAbsolute base := by
  have hrel : isAbsolute (joinFields '/' segs) = false := isAbsolute_joinFields hne hsegs
  by_cases hbase : base = ""
  · rw [hbase, joinAll_empty hsegs, hrel]
    rfl
  · rw [joinAll_eq_join hbase hne hsegs, isAbsolute_join hbase hrel]

/-- The fields of joined segments: those of the base, without an empty last one, and then the
segments. -/
theorem fields_joinAll (base : String) (hne : segs ≠ []) (hsegs : ∀ s ∈ segs, IsSegment s) :
    ∃ front close, fields isSlash base = front ++ close ∧ (close = [] ∨ close = [""]) ∧
      fields isSlash (joinAll base segs) = front ++ segs := by
  by_cases hbase : base = ""
  · refine ⟨[], [""], by rw [hbase]; rfl, .inr rfl, ?_⟩
    rw [hbase, joinAll_empty hsegs, fields_joinFields_segments hne hsegs, List.nil_append]
  · obtain ⟨front, close, hfields, hclose, hjoined⟩ :=
      fields_join hbase (isAbsolute_joinFields hne hsegs)
    refine ⟨front, close, hfields, hclose, ?_⟩
    rw [joinAll_eq_join hbase hne hsegs, hjoined, fields_joinFields_segments hne hsegs]

/-! ## Parts of a joined path -/

def partsOf (path : String) : List String := (fields isSlash path).filter (· != "")

theorem partsOf_join (hbase : base ≠ "") (hpath : isAbsolute path = false) :
    partsOf (join base path) = partsOf base ++ partsOf path := by
  obtain ⟨front, close, hb, hclose, hj⟩ := fields_join hbase hpath
  rw [partsOf, partsOf, partsOf, hj, hb]
  rcases hclose with rfl | rfl <;> simp

theorem partsOf_joinFields (hne : segs ≠ []) (hsegs : ∀ s ∈ segs, IsSegment s) :
    partsOf (joinFields '/' segs) = segs := by
  rw [partsOf, fields_joinFields_segments hne hsegs, List.filter_eq_self]
  exact fun s hs => by simpa using (hsegs s hs).ne_empty

theorem partsOf_ne_nil (hbase : base ≠ "") (hrel : isAbsolute base = false) :
    partsOf base ≠ [] := by
  obtain ⟨c, cs, hcs⟩ := List.exists_cons_of_ne_nil (fun h => hbase (String.toList_eq_nil_iff.mp h))
  have hc : isSlash c = false := by
    simpa [isAbsolute, hcs, isSlash] using hrel
  obtain ⟨f, fs, hf⟩ := List.exists_cons_of_ne_nil (splitBy_ne_nil isSlash cs)
  rw [partsOf, fields, hcs, splitBy_cons_plain hc hf]
  simp

def componentsOf (absolute : Bool) (parts : List String) : List Component :=
  let plain := (parts.filter (· != ".")).map ofSegment
  if absolute then .root :: plain
  else if parts.head? == some "." then .current :: plain
  else plain

theorem components_eq (path : String) :
    components path = componentsOf (isAbsolute path) (partsOf path) := rfl

theorem map_ofSegment (hsegs : ∀ s ∈ segs, IsSegment s) : segs.map ofSegment = segs.map .name :=
  List.map_congr_left fun s hs => by simp [ofSegment, (hsegs s hs).ne_parent]

theorem componentsOf_append {absolute : Bool} {parts : List String}
    (hparts : absolute = false → parts ≠ []) (hsegs : ∀ s ∈ segs, IsSegment s) :
    componentsOf absolute (parts ++ segs) = componentsOf absolute parts ++ segs.map .name := by
  have hplain : ((parts ++ segs).filter (· != ".")).map ofSegment =
      (parts.filter (· != ".")).map ofSegment ++ segs.map .name := by
    have hfilter : segs.filter (· != ".") = segs :=
      List.filter_eq_self.mpr fun s hs => by simpa using (hsegs s hs).ne_current
    rw [List.filter_append, List.map_append, hfilter, map_ofSegment hsegs]
  cases absolute with
  | true => simp only [componentsOf, hplain, if_true, List.cons_append]
  | false =>
      have hhead : (parts ++ segs).head? = parts.head? :=
        List.head?_append_of_ne_nil parts (hparts rfl)
      simp only [componentsOf, hplain, hhead, Bool.false_eq_true, if_false]
      split <;> rfl

theorem components_joinAll (hbase : base ≠ "") (hsegs : ∀ s ∈ segs, IsSegment s) :
    components (joinAll base segs) = components base ++ segs.map .name := by
  by_cases hne : segs = []
  · simp [hne]
  have hrel : isAbsolute (joinFields '/' segs) = false := isAbsolute_joinFields hne hsegs
  rw [joinAll_eq_join hbase hne hsegs, components_eq, components_eq, isAbsolute_join hbase hrel,
    partsOf_join hbase hrel, partsOf_joinFields hne hsegs]
  exact componentsOf_append (partsOf_ne_nil hbase) hsegs

theorem dropStart?_append {α : Type} [DecidableEq α] (start rest : List α) :
    dropStart? start (start ++ rest) = some rest := by
  induction start with
  | nil => rfl
  | cons a start ih => simp [dropStart?, ih]

theorem eq_append_of_dropStart? {α : Type} [DecidableEq α] {start xs rest : List α}
    (h : dropStart? start xs = some rest) : xs = start ++ rest := by
  induction start generalizing xs with
  | nil =>
      rw [dropStart?, Option.some.injEq] at h
      rw [h, List.nil_append]
  | cons a start ih =>
      cases xs with
      | nil => cases h
      | cons x xs =>
          rw [dropStart?] at h
          split at h
          next hax => rw [hax, ih h, List.cons_append]
          next => cases h

theorem startsWith_iff {place base : List String} :
    startsWith place base = true ↔ base <+: place := by
  rw [startsWith, Option.isSome_iff_exists]
  constructor
  · rintro ⟨rest, hrest⟩
    exact ⟨rest, (eq_append_of_dropStart? hrest).symm⟩
  · rintro ⟨rest, rfl⟩
    exact ⟨rest, dropStart?_append base rest⟩

theorem relative?_joinAll {below : List String} (hbase : base ≠ "")
    (hsegs : ∀ s ∈ segs, IsSegment s) (hbelow : ∀ s ∈ below, IsSegment s)
    (hne : segs ++ below ≠ []) :
    relative? base (joinAll base segs) below = some (joinFields '/' (segs ++ below)) := by
  have hnames : (segs ++ below).filterMap (fun s => some s) = segs ++ below := List.filterMap_some
  rw [relative?, components_joinAll hbase hsegs, map_ofSegment hbelow, List.append_assoc,
    ← List.map_append, dropStart?_append]
  simp only [bind, Option.bind_some, List.filterMap_map, Function.comp_def, hnames,
    List.isEmpty_iff, hne, if_false]

theorem joinAll_injective {other : List String} (hbase : base ≠ "")
    (hsegs : ∀ s ∈ segs, IsSegment s) (hother : ∀ s ∈ other, IsSegment s)
    (h : joinAll base segs = joinAll base other) : segs = other := by
  have hx : ∀ s ∈ ["x"], IsSegment s := by decide
  have hrel := relative?_joinAll hbase hsegs hx (by simp)
  rw [h, relative?_joinAll hbase hother hx (by simp)] at hrel
  exact List.append_cancel_right (joinFields_segments_inj (by simp) (by simp)
    (List.forall_mem_append.mpr ⟨hsegs, hx⟩) (List.forall_mem_append.mpr ⟨hother, hx⟩)
    (Option.some.inj hrel).symm)

end ImportAtlas.Host.Location
