import ImportAtlas.Host.Canonical
import ImportAtlas.Proofs.Host.Change
import ImportAtlas.Proofs.Host.Descent

/-!
# Real paths and lookups

Asking for a real path follows the same links as a lookup does and leads to the same place, unless
an absolute path on the way is too long. Below a folder, what names lead to depends on the tree at
that folder and on the bytes that are left for them.
-/

namespace ImportAtlas.Host

open Text

/-! ## Bytes of a place -/

theorem placeBytes_nil : placeBytes [] = 0 := rfl

theorem placeBytes_cons (name : String) (place : List String) :
    placeBytes (name :: place) = name.utf8ByteSize + 1 + placeBytes place := rfl

theorem placeBytes_eq_sum (place : List String) :
    placeBytes place = (place.map fun name => name.utf8ByteSize + 1).sum := by
  induction place with
  | nil => rfl
  | cons name place ih => rw [placeBytes_cons, ih, List.map_cons, List.sum_cons]

theorem placeBytes_append (place more : List String) :
    placeBytes (place ++ more) = placeBytes place + placeBytes more := by
  simp [placeBytes_eq_sum]

theorem placeBytes_replicate (depth : Nat) (name : String) :
    placeBytes (List.replicate depth name) = depth * (name.utf8ByteSize + 1) := by
  rw [placeBytes_eq_sum, List.map_replicate, List.sum_replicate, smul_eq_mul]

variable {root root' : Entry} {links links' : Nat} {trail trail' way : Trail}
  {parts names : List String} {asks asks' : List String → Bool} {name : String} {e : Entry}

theorem placeBytes_map (trail : Trail) :
    placeBytes (trail.map (·.1)) = placeBytes (Trail.names trail) := by
  rw [Trail.names, placeBytes_eq_sum, placeBytes_eq_sum, List.map_reverse, List.sum_reverse]

/-- Names that are joined to a path add at most their own bytes and slashes. -/
theorem utf8ByteSize_joinAll_le {base : String} (hbase : base ≠ "")
    (hnames : ∀ n ∈ names, IsSegment n) :
    (Location.joinAll base names).utf8ByteSize ≤ base.utf8ByteSize + placeBytes names := by
  induction names generalizing base with
  | nil => exact Nat.le_refl _
  | cons name rest ih =>
      obtain ⟨hname, hrest⟩ := List.forall_mem_cons.mp hnames
      have hrel : Location.isAbsolute name = false := Location.isAbsolute_of_isSegment hname
      have hstep : (Location.join base name).utf8ByteSize ≤
          base.utf8ByteSize + (name.utf8ByteSize + 1) := by
        rw [Location.join_eq hbase hrel, String.utf8ByteSize_append]
        split
        · omega
        · rw [String.utf8ByteSize_append, show "/".utf8ByteSize = 1 from rfl]
          omega
      have hbelow : (Location.joinAll base (name :: rest)).utf8ByteSize ≤ _ :=
        ih (Location.join_ne_empty hbase hrel) hrest
      rw [placeBytes_cons]
      omega

/-! ## One name -/

/-- A name that is there is found, if neither it nor the path that asks for it is too long. -/
theorem probe_of_child (h : (current root trail).child? name = some e) (more : Nat) :
    probe root trail name more =
      if placeBytes (Trail.names trail ++ [name]) + more ≤ maxPathBytes ∧
        name.utf8ByteSize ≤ maxNameBytes then .ok e else .error .nameTooLong := by
  obtain ⟨es, hes, _⟩ := Entry.child?_eq_some_iff.mp h
  have hfolder : (current root trail).isFolder = true := by rw [hes, Entry.isFolder]
  have hbytes :
      placeBytes (name :: trail.map (·.1)) = placeBytes (Trail.names trail ++ [name]) := by
    rw [placeBytes_cons, placeBytes_map, placeBytes_append, placeBytes_cons, placeBytes_nil]
    omega
  rw [probe, hbytes, hfolder, h]
  by_cases hpath : placeBytes (Trail.names trail ++ [name]) + more ≤ maxPathBytes
  · rw [if_neg (Nat.not_lt.mpr hpath), if_neg (by simp)]
    by_cases hname : name.utf8ByteSize ≤ maxNameBytes
    · rw [if_neg (Nat.not_lt.mpr hname), if_pos ⟨hpath, hname⟩]
    · rw [if_pos (Nat.lt_of_not_le hname), if_neg fun hfits => hname hfits.2]
  · rw [if_pos (Nat.lt_of_not_le hpath), if_neg fun hfits => hpath hfits.1]

theorem entryAt_of_link {target : String}
    (h : (current root trail).child? name = some (.link target)) (asFolder : Bool) :
    entryAt root trail name asFolder =
      if placeBytes (Trail.names trail ++ [name]) ≤ maxPathBytes ∧
        name.utf8ByteSize ≤ maxNameBytes then .ok (.link target) else .error .nameTooLong := by
  rw [entryAt, folderAt, probe_of_child h, probe_of_child h, Nat.add_zero]
  by_cases hfits : placeBytes (Trail.names trail ++ [name]) ≤ maxPathBytes ∧
      name.utf8ByteSize ≤ maxNameBytes
  · rw [if_pos hfits]
  · have hlonger : ¬ (placeBytes (Trail.names trail ++ [name]) + 1 ≤ maxPathBytes ∧
        name.utf8ByteSize ≤ maxNameBytes) := fun h => hfits ⟨by omega, h.2⟩
    rw [if_neg hfits, if_neg hlonger]
    cases asFolder <;> rfl

theorem entryAt_false (root : Entry) (trail : Trail) (name : String) :
    entryAt root trail name false = probe root trail name 0 := by
  rw [entryAt]
  split
  next target h => rw [h]
  next => rfl

theorem entryAt_true (h : ∀ target, probe root trail name 0 ≠ .ok (.link target)) :
    entryAt root trail name true = folderAt root trail name := by
  rw [entryAt]
  split
  next target hlink => exact absurd hlink (h target)
  next => rfl

theorem entryAt_of_child (h : (current root trail).child? name = some e)
    (he : ∀ target, e ≠ .link target) (asFolder : Bool) :
    entryAt root trail name asFolder =
      if placeBytes (Trail.names trail ++ [name]) + (if asFolder then 1 else 0) ≤ maxPathBytes ∧
        name.utf8ByteSize ≤ maxNameBytes then
        if asFolder && !e.isFolder then .error .notDirectory else .ok e
      else .error .nameTooLong := by
  cases asFolder with
  | false =>
      rw [entryAt_false, probe_of_child h]
      rfl
  | true =>
      have hplain : ∀ target, probe root trail name 0 ≠ .ok (.link target) := by
        intro target hlink
        rw [probe_of_child h] at hlink
        split at hlink
        · exact he target (Except.ok.inj hlink)
        · cases hlink
      rw [entryAt_true hplain, folderAt, probe_of_child h]
      simp only [if_true, Bool.true_and]
      by_cases hfits : placeBytes (Trail.names trail ++ [name]) + 1 ≤ maxPathBytes ∧
          name.utf8ByteSize ≤ maxNameBytes
      · rw [if_pos hfits, if_pos hfits]
        cases hfolder : e.isFolder <;> simp [hfolder]
      · rw [if_neg hfits, if_neg hfits]

theorem probe_of_folderAt (h : folderAt root trail name = .ok e) :
    probe root trail name 0 = .ok e := by
  rw [folderAt] at h
  split at h
  next d hd =>
    split at h
    · cases h
      -- The path was short enough with a slash behind it.
      rw [probe] at hd ⊢
      split at hd
      · cases hd
      · rw [if_neg (by omega)]
        exact hd
    · cases h
  next => cases h

theorem probe_of_entryAt {asFolder : Bool} (h : entryAt root trail name asFolder = .ok e) :
    probe root trail name 0 = .ok e := by
  rw [entryAt] at h
  split at h
  next target hlink => rw [hlink, h]
  next =>
    cases asFolder with
    | false => exact h
    | true => exact probe_of_folderAt h

/-- Asking for less than a folder gives the same entry. -/
theorem entryAt_of_true (h : entryAt root trail name true = .ok e) :
    entryAt root trail name false = .ok e := by
  rw [entryAt_false, probe_of_entryAt h]

theorem child?_of_entryAt {asFolder : Bool} (h : entryAt root trail name asFolder = .ok e) :
    (current root trail).child? name = some e := by
  have hprobe := probe_of_entryAt h
  rw [probe] at hprobe
  split at hprobe
  · cases hprobe
  split at hprobe
  · cases hprobe
  split at hprobe
  · cases hprobe
  cases hchild : (current root trail).child? name with
  | none => simp [hchild] at hprobe
  | some d => simpa [hchild] using hprobe

/-! ## All parts of a path -/

theorem through_append (asks : List String → Bool) (root : Entry) (links : Nat) (trail : Trail)
    (parts more : List String) :
    through asks root links trail (parts ++ more) =
      (through (fun rest => asks (rest ++ more)) root links trail parts).bind fun s =>
        through asks root s.1 s.2 more := by
  fun_induction through (fun rest => asks (rest ++ more)) root links trail parts
  case case1 => rfl
  all_goals rw [List.cons_append, through]
  all_goals simp_all [Except.bind, List.append_assoc]

theorem isTrail_through (h : IsTrail root trail)
    (hway : through asks root links trail parts = .ok (links', way)) : IsTrail root way := by
  fun_induction through asks root links trail parts
  case case1 =>
    cases hway
    exact h
  case case2 ih => exact ih h hway
  case case3 ih => exact ih h.tail hway
  case case6 ih =>
    refine ih ?_ hway
    split
    · exact .nil
    · exact h
  case case7 hentry ih => exact ih (.cons h (child?_of_entryAt hentry)) hway
  all_goals cases hway

theorem placeBytes_of_entryAt {asFolder : Bool} (h : entryAt root trail name asFolder = .ok e) :
    placeBytes (Trail.names trail ++ [name]) ≤ maxPathBytes := by
  have hprobe := probe_of_entryAt h
  rw [probe] at hprobe
  split at hprobe
  · cases hprobe
  next hshort =>
    rw [placeBytes_cons, placeBytes_map] at hshort
    rw [placeBytes_append, placeBytes_cons, placeBytes_nil]
    omega

/-- No absolute path on the way is longer than the host takes. -/
theorem placeBytes_of_through {s : Nat × Trail}
    (hshort : placeBytes (Trail.names trail) ≤ maxPathBytes)
    (h : through asks root links trail parts = .ok s) :
    placeBytes (Trail.names s.2) ≤ maxPathBytes := by
  fun_induction through asks root links trail parts
  case case1 =>
    cases h
    exact hshort
  case case2 ih => exact ih hshort h
  case case3 trail part rest hidle hparent ih =>
    refine ih (Nat.le_trans ?_ hshort) h
    cases trail with
    | nil => exact Nat.le_refl _
    | cons x trail =>
        rw [List.tail_cons, Trail.names_cons, placeBytes_append]
        exact Nat.le_add_right _ _
  case case6 ih =>
    refine ih ?_ h
    split
    · exact Nat.zero_le _
    · exact hshort
  case case7 hentry ih =>
    refine ih ?_ h
    rw [Trail.names_cons]
    exact placeBytes_of_entryAt hentry
  all_goals cases h

/-- Who asks for fewer folders comes as far. -/
theorem through_of_le {s : Nat × Trail} (hasks : ∀ rest, asks' rest = true → asks rest = true)
    (h : through asks root links trail parts = .ok s) :
    through asks' root links trail parts = .ok s := by
  have hentry {part : String} {rest : List String} {trail : Trail} {e : Entry}
      (he : entryAt root trail part (asks rest) = .ok e) :
      entryAt root trail part (asks' rest) = .ok e := by
    cases hless : asks' rest with
    | true => rwa [hasks rest hless] at he
    | false =>
        cases hmore : asks rest with
        | true => exact entryAt_of_true (hmore ▸ he)
        | false => exact hmore ▸ he
  fun_induction through asks root links trail parts
  case case1 => rwa [through]
  case case2 hidle ih =>
    rw [through, if_pos hidle]
    exact ih h
  case case3 hidle hparent ih =>
    rw [through, if_neg hidle, if_pos hparent]
    exact ih h
  case case6 hidle hparent target he links ih =>
    rw [through, if_neg hidle, if_neg hparent, hentry he]
    exact ih h
  case case7 hidle hparent e hlink he ih =>
    rw [through, if_neg hidle, if_neg hparent, hentry he]
    cases e with
    | file c => exact ih h
    | link target => exact absurd rfl (hlink target)
    | folder es => exact ih h
  all_goals cases h

/-! ## Beside a lookup -/

theorem isFolder_of_advance {s : Nat × Trail} (hne : parts ≠ [])
    (h : advance root links trail parts = .ok s) : (current root trail).isFolder = true := by
  obtain ⟨part, rest, rfl⟩ := List.exists_cons_of_ne_nil hne
  by_contra hplain
  rw [advance, if_pos (by simpa using hplain)] at h
  cases h

/-- Where a lookup arrives a real path does, unless it is too long on the way. -/
theorem through_of_advance {s : Nat × Trail} (hasks : ∀ rest, asks rest = true → rest ≠ [])
    (h : advance root links trail parts = .ok s) :
    through asks root links trail parts = .ok s ∨
      through asks root links trail parts = .error .nameTooLong := by
  fun_induction advance root links trail parts
  case case1 =>
    rw [through]
    exact .inl h
  case case3 trail part rest hfolder hidle ih =>
    rw [through, isIdle, if_pos hidle]
    exact ih h
  case case4 trail part rest hfolder hidle hparent ih =>
    rw [through, isIdle, if_neg hidle, if_pos hparent]
    exact ih h
  case case8 trail part rest hfolder hidle hparent hshort target hchild links ih =>
    rw [through, isIdle, if_neg hidle, if_neg hparent, entryAt_of_link hchild]
    by_cases hfits : placeBytes (Trail.names trail ++ [part]) ≤ maxPathBytes ∧
        part.utf8ByteSize ≤ maxNameBytes
    · rw [if_pos hfits]
      simp only [dite_eq_ite] at ih
      exact ih h
    · rw [if_neg hfits]
      exact .inr rfl
  case case9 trail part rest hfolder hidle hparent hshort e hlink hchild ih =>
    rw [through, isIdle, if_neg hidle, if_neg hparent,
      entryAt_of_child hchild fun t ht => hlink t ht]
    by_cases hfits : placeBytes (Trail.names trail ++ [part]) +
        (if asks rest then 1 else 0) ≤ maxPathBytes ∧ part.utf8ByteSize ≤ maxNameBytes
    · have hasked : (asks rest && !e.isFolder) = false := by
        cases hask : asks rest with
        | false => rfl
        | true =>
            -- The lookup goes on from here, so what stands here is a folder.
            have hfolder' := isFolder_of_advance (hasks rest hask) h
            rw [current] at hfolder'
            rw [hfolder']
            rfl
      rw [if_pos hfits, hasked]
      cases e with
      | file c => exact ih h
      | link target => exact absurd rfl (hlink target)
      | folder es => exact ih h
    · rw [if_neg hfits]
      exact .inr rfl
  all_goals cases h

variable (asks) in
/-- On a tree that was added to, a real path is as long on the way as it was before. -/
theorem names_through_of_keeps {s : Nat × Trail} (hkeeps : root.Keeps root')
    (htrail : IsTrail root trail) (htrail' : IsTrail root' trail')
    (hnames : Trail.names trail' = Trail.names trail)
    (h : advance root links trail parts = .ok s) :
    (through asks root' links trail' parts).map (fun s => Trail.names s.2) =
      (through asks root links trail parts).map fun s => Trail.names s.2 := by
  fun_induction advance root links trail parts generalizing trail'
  case case1 =>
    rw [through, through]
    exact congrArg Except.ok hnames
  case case3 trail part rest hfolder hidle ih =>
    rw [through, through, isIdle, if_pos hidle, if_pos hidle]
    exact ih htrail htrail' hnames h
  case case4 trail part rest hfolder hidle hparent ih =>
    rw [through, through, isIdle, if_neg hidle, if_neg hidle, if_pos hparent, if_pos hparent]
    refine ih htrail.tail htrail'.tail ?_ h
    rw [Trail.names_tail, Trail.names_tail, hnames]
  case case8 trail part rest hfolder hidle hparent hshort target hchild links ih =>
    obtain ⟨y, hy, hkind⟩ := child?_of_keeps hkeeps htrail htrail' hnames hchild
    cases hkind
    rw [through, through, isIdle, if_neg hidle, if_neg hidle, if_neg hparent, if_neg hparent,
      entryAt_of_link hchild, entryAt_of_link hy, hnames]
    by_cases hfits : placeBytes (Trail.names trail ++ [part]) ≤ maxPathBytes ∧
        part.utf8ByteSize ≤ maxNameBytes
    · rw [if_pos hfits]
      by_cases habs : Location.isAbsolute target = true
      · simp only [habs, if_true, dite_true] at ih h ⊢
        exact ih .nil .nil rfl h
      · simp only [habs] at ih h ⊢
        exact ih htrail htrail' hnames h
    · rw [if_neg hfits]
  case case9 trail part rest hfolder hidle hparent hshort e hlink hchild ih =>
    obtain ⟨y, hy, hkind⟩ := child?_of_keeps hkeeps htrail htrail' hnames hchild
    have hplain : ∀ target, e ≠ .link target := fun target htarget => hlink target htarget
    have hplain' : ∀ target, y ≠ .link target := by
      rintro target rfl
      cases hkind
      exact hplain target rfl
    have hstep := ih (.cons htrail hchild) (.cons htrail' hy) (by simp [hnames]) h
    rw [through, through, isIdle, if_neg hidle, if_neg hidle, if_neg hparent, if_neg hparent,
      entryAt_of_child hchild hplain, entryAt_of_child hy hplain', hnames, hkind.isFolder_eq]
    by_cases hfits : placeBytes (Trail.names trail ++ [part]) +
        (if asks rest then 1 else 0) ≤ maxPathBytes ∧ part.utf8ByteSize ≤ maxNameBytes
    · rw [if_pos hfits, if_pos hfits]
      cases asks rest && !e.isFolder with
      | true => rfl
      | false =>
          cases hkind with
          | file c c' => exact hstep
          | link target => exact absurd rfl (hplain target)
          | folder es ds => exact hstep
    · rw [if_neg hfits, if_neg hfits]
  all_goals cases h

end ImportAtlas.Host
