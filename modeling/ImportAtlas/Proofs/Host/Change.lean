import ImportAtlas.Host.Change
import ImportAtlas.Proofs.Host.Lookup

/-!
# Changing a tree at one place

What an altered folder holds, and how a change below a place is a change of the entry at that place.
A tree that is only added to keeps every lookup that succeeded before: it leads to the same place.
-/

namespace ImportAtlas.Host

open Text

namespace Entry

variable {e d new : Entry} {es : List (String × Entry)} {name other : String}
  {place below : List String} {change : Option Entry}

/-! ## Altered folders -/

@[simp] theorem find?_alter_some (name : String) (new : Entry) (es : List (String × Entry)) :
    find? name (alter name (some new) es) = some new := by
  induction es with
  | nil => simp [find?]
  | cons x rest ih =>
      rw [alter_some_cons]
      by_cases hx : x.1 = name
      · rw [if_pos hx, find?_cons, if_pos hx]
      · rw [if_neg hx, find?_cons, if_neg hx, ih]

theorem find?_filter_ne (name : String) (es : List (String × Entry)) :
    find? other (es.filter (·.1 != name)) = if other = name then none else find? other es := by
  induction es with
  | nil => simp
  | cons x rest ih =>
      by_cases hx : x.1 = name
      · rw [List.filter_cons_of_neg (by simp [hx]), ih, find?_cons, hx]
        by_cases ho : other = name
        · rw [if_pos ho, if_pos ho]
        · rw [if_neg ho, if_neg ho, if_neg (Ne.symm ho)]
      · rw [List.filter_cons_of_pos (by simpa using hx), find?_cons, ih, find?_cons]
        by_cases ho : x.1 = other
        · rw [if_pos ho, if_pos ho, if_neg (ho ▸ hx)]
        · rw [if_neg ho, if_neg ho]

@[simp] theorem find?_alter_none (name : String) (es : List (String × Entry)) :
    find? name (alter name none es) = none := by
  rw [alter_none, find?_filter_ne, if_pos rfl]

theorem find?_alter_of_ne (h : other ≠ name) (change : Option Entry) (es : List (String × Entry)) :
    find? other (alter name change es) = find? other es := by
  cases change with
  | none => rw [alter_none, find?_filter_ne, if_neg h]
  | some new =>
      induction es with
      | nil => simp [find?_cons, Ne.symm h]
      | cons x rest ih =>
          rw [alter_some_cons, find?_cons]
          by_cases hx : x.1 = name
          · have hne : x.1 ≠ other := fun heq => h (heq.symm.trans hx)
            rw [if_pos hx, find?_cons, if_neg hne, if_neg hne]
          · rw [if_neg hx, find?_cons, ih]

theorem alter_alter (name : String) (new old : Entry) (es : List (String × Entry)) :
    alter name (some new) (alter name (some old) es) = alter name (some new) es := by
  induction es with
  | nil => simp [alter_some_cons]
  | cons x rest ih =>
      rw [alter_some_cons, alter_some_cons]
      by_cases hx : x.1 = name
      · rw [if_pos hx, if_pos hx, alter_some_cons, if_pos hx]
      · rw [if_neg hx, if_neg hx, alter_some_cons, if_neg hx, ih]

theorem map_fst_alter_some (name : String) (new : Entry) (es : List (String × Entry)) :
    (alter name (some new) es).map (·.1) =
      if name ∈ es.map (·.1) then es.map (·.1) else es.map (·.1) ++ [name] := by
  induction es with
  | nil => simp
  | cons x rest ih =>
      rw [alter_some_cons]
      by_cases hx : x.1 = name
      · rw [if_pos hx, if_pos (by simp [hx])]
        rfl
      · rw [if_neg hx, List.map_cons, ih]
        simp only [List.map_cons, List.mem_cons, Ne.symm hx, false_or]
        split <;> simp

theorem mem_alter {x : String × Entry} (h : x ∈ alter name change es) :
    x ∈ es ∨ x.1 = name ∧ change = some x.2 := by
  cases change with
  | none =>
      rw [alter_none] at h
      exact Or.inl (List.mem_of_mem_filter h)
  | some new =>
      induction es with
      | nil =>
          rw [alter_some_nil, List.mem_singleton] at h
          exact Or.inr (by simp [h])
      | cons y rest ih =>
          rw [alter_some_cons] at h
          by_cases hy : y.1 = name
          · rw [if_pos hy, List.mem_cons] at h
            rcases h with rfl | h
            · exact Or.inr ⟨hy, rfl⟩
            · exact Or.inl (List.mem_cons_of_mem y h)
          · rw [if_neg hy, List.mem_cons] at h
            rcases h with rfl | h
            · exact Or.inl List.mem_cons_self
            · exact (ih h).imp_left (List.mem_cons_of_mem y)

theorem wellFormed_alter (hes : (folder es).WellFormed) (hname : IsEntryName name)
    (hnew : ∀ new ∈ change, new.WellFormed) : (folder (alter name change es)).WellFormed := by
  cases hes with
  | folder distinct names entries =>
      refine .folder ?_ ?_ ?_
      · cases change with
        | none =>
            have hsub : (alter name none es).Sublist es := by
              rw [alter_none]
              exact List.filter_sublist
            exact distinct.sublist (hsub.map _)
        | some new =>
            rw [map_fst_alter_some]
            split
            next => exact distinct
            next hfree =>
              rw [List.nodup_append]
              refine ⟨distinct, List.nodup_singleton name, ?_⟩
              intro n hn m hm heq
              rw [List.mem_singleton] at hm
              exact hfree (hm ▸ heq ▸ hn)
      · intro x hx
        rcases mem_alter hx with hx | ⟨hx, _⟩
        · exact names x hx
        · exact hx ▸ hname
      · intro x hx
        rcases mem_alter hx with hx | ⟨_, hx⟩
        · exact entries x hx
        · exact hnew x.2 hx

theorem linkFree_alter (hes : (folder es).LinkFree) (hnew : ∀ new ∈ change, new.LinkFree) :
    (folder (alter name change es)).LinkFree := by
  refine .folder fun x hx => ?_
  rcases mem_alter hx with hx | ⟨_, hx⟩
  · exact hes.of_mem hx
  · exact hnew x.2 hx

/-! ## Entries that are set -/

/-- Below an entry that is there, setting goes on in that entry. -/
theorem setAt_cons (hfind : find? name es = some d) (hbelow : change = none → below ≠ []) :
    (folder es).setAt change (name :: below) =
      .folder (alter name (some (d.setAt change below)) es) := by
  cases below with
  | nil =>
      obtain ⟨new, rfl⟩ := Option.ne_none_iff_exists'.mp fun hnone => hbelow hnone rfl
      rw [setAt_singleton, setAt_nil]
  | cons n rest =>
      rw [setAt]
      · simp only [hfind]
      · exact fun h => absurd h (by simp)

theorem exists_child_of_at? {rest : List String} (h : e.at? (name :: rest) = some d) :
    ∃ es f, e = .folder es ∧ find? name es = some f ∧ f.at? rest = some d := by
  rw [at?_cons, Option.bind_eq_some_iff] at h
  obtain ⟨f, hf, hrest⟩ := h
  obtain ⟨es, rfl, hfind⟩ := child?_eq_some_iff.mp hf
  exact ⟨es, f, rfl, hfind, hrest⟩

theorem at?_folder_cons (es : List (String × Entry)) (name : String) (rest : List String) :
    (folder es).at? (name :: rest) = (find? name es).bind (at? rest) := at?_cons _ _ _

theorem at?_setAt_self (h : e.at? place = some d) (new : Entry) :
    (e.setAt (some new) place).at? place = some new := by
  induction place generalizing e with
  | nil => rw [setAt_nil, at?_nil]
  | cons name rest ih =>
      obtain ⟨es, f, rfl, hfind, hrest⟩ := exists_child_of_at? h
      rw [setAt_cons hfind (by simp), at?_folder_cons, find?_alter_some, Option.bind_some]
      exact ih hrest

theorem alter_of_find? (h : find? name es = some e) : alter name (some e) es = es := by
  induction es with
  | nil => cases h
  | cons x rest ih =>
      rw [find?_cons] at h
      rw [alter_some_cons]
      split at h
      next hx => rw [if_pos hx, ← Option.some.inj h]
      next hx => rw [if_neg hx, ih h]

theorem setAt_self (h : e.at? place = some d) : e.setAt (some d) place = e := by
  induction place generalizing e with
  | nil =>
      rw [at?_nil, Option.some.injEq] at h
      rw [setAt_nil, h]
  | cons name rest ih =>
      obtain ⟨es, f, rfl, hfind, hrest⟩ := exists_child_of_at? h
      rw [setAt_cons hfind (by simp), ih hrest, alter_of_find? hfind]

theorem setAt_setAt (h : e.at? place = some d) (new old : Entry) :
    (e.setAt (some old) place).setAt (some new) place = e.setAt (some new) place := by
  induction place generalizing e with
  | nil => rw [setAt_nil, setAt_nil]
  | cons name rest ih =>
      obtain ⟨es, f, rfl, hfind, hrest⟩ := exists_child_of_at? h
      rw [setAt_cons hfind (by simp), setAt_cons (find?_alter_some _ _ _) (by simp),
        setAt_cons hfind (by simp), ih hrest, alter_alter]

/-- A change below a place is a change of the entry at that place. -/
theorem setAt_append (h : e.at? place = some d) (hbelow : below ≠ []) (change : Option Entry) :
    e.setAt change (place ++ below) = e.setAt (some (d.setAt change below)) place := by
  induction place generalizing e with
  | nil =>
      rw [at?_nil, Option.some.injEq] at h
      rw [List.nil_append, setAt_nil, h]
  | cons name rest ih =>
      obtain ⟨es, f, rfl, hfind, hrest⟩ := exists_child_of_at? h
      rw [List.cons_append, setAt_cons hfind (by simp [hbelow]), setAt_cons hfind (by simp),
        ih hrest]

theorem wellFormed_setAt (he : e.WellFormed) (h : e.at? place = some d) (hnew : new.WellFormed) :
    (e.setAt (some new) place).WellFormed := by
  induction place generalizing e with
  | nil => rwa [setAt_nil]
  | cons name rest ih =>
      obtain ⟨es, f, rfl, hfind, hrest⟩ := exists_child_of_at? h
      have hf : f.WellFormed ∧ IsEntryName name := he.of_child? (e := .folder es) hfind
      rw [setAt_cons hfind (by simp)]
      apply wellFormed_alter he hf.2
      intro g hg
      rw [← Option.some.inj hg]
      exact ih hf.1 hrest

/-! ## Trees that are added to -/

inductive SameKind : Entry → Entry → Prop
  | file (c c' : ByteArray) : SameKind (.file c) (.file c')
  | link (target : String) : SameKind (.link target) (.link target)
  | folder (es ds : List (String × Entry)) : SameKind (.folder es) (.folder ds)

theorem SameKind.refl (e : Entry) : SameKind e e := by
  cases e with
  | file c => exact .file c c
  | link target => exact .link target
  | folder es => exact .folder es es

theorem SameKind.isFolder_eq (h : SameKind e d) : d.isFolder = e.isFolder := by
  cases h <;> rfl

/-- Every place of the first tree leads to an entry of the same kind in the second. -/
def Keeps (e d : Entry) : Prop :=
  ∀ place x, e.at? place = some x → ∃ y, d.at? place = some y ∧ SameKind x y

/-- What keeps the entry at a place keeps the whole tree. -/
theorem Keeps.setAt (h : d.Keeps new) (hat : e.at? place = some d) :
    e.Keeps (e.setAt (some new) place) := by
  induction place generalizing e with
  | nil =>
      rw [at?_nil, Option.some.injEq] at hat
      rw [setAt_nil, hat]
      exact h
  | cons name rest ih =>
      obtain ⟨ds, f, rfl, hfind, hrest⟩ := exists_child_of_at? hat
      rw [setAt_cons hfind (by simp)]
      intro other x hx
      cases other with
      | nil =>
          rw [at?_nil, Option.some.injEq] at hx
          exact ⟨_, at?_nil _, hx ▸ .folder ds _⟩
      | cons n more =>
          rw [at?_folder_cons] at hx ⊢
          by_cases hn : n = name
          · rw [hn, hfind, Option.bind_some] at hx
            rw [hn, find?_alter_some, Option.bind_some]
            exact ih hrest more x hx
          · rw [find?_alter_of_ne hn]
            exact ⟨x, hx, .refl x⟩

/-- A folder keeps what it holds when an entry of a new name is put into it. -/
theorem keeps_alter (h : find? name es = none) (new : Entry) :
    (folder es).Keeps (folder (alter name (some new) es)) := by
  intro other x hx
  cases other with
  | nil =>
      rw [at?_nil, Option.some.injEq] at hx
      exact ⟨_, at?_nil _, hx ▸ .folder es _⟩
  | cons n more =>
      rw [at?_folder_cons] at hx ⊢
      have hn : n ≠ name := by
        rintro rfl
        simp [h] at hx
      rw [find?_alter_of_ne hn]
      exact ⟨x, hx, .refl x⟩

/-- A folder that was empty can be filled. -/
theorem keeps_setAt (h : e.at? place = some (.folder [])) (es : List (String × Entry)) :
    e.Keeps (e.setAt (some (.folder es)) place) := by
  refine Keeps.setAt (fun other x hx => ?_) h
  cases other with
  | nil =>
      rw [at?_nil, Option.some.injEq] at hx
      exact ⟨_, at?_nil _, hx ▸ .folder [] es⟩
  | cons n rest => simp [at?_folder_cons] at hx

end Entry

/-! ## Lookups in a tree that was added to -/

variable {root root' : Entry} {links links' : Nat} {trail trail' way : Trail} {parts : List String}

theorem child?_of_keeps (h : root.Keeps root') (htrail : IsTrail root trail)
    (htrail' : IsTrail root' trail') (hnames : Trail.names trail' = Trail.names trail)
    {part : String} {x : Entry} (hchild : (current root trail).child? part = some x) :
    ∃ y, (current root' trail').child? part = some y ∧ Entry.SameKind x y := by
  have hat : root.at? (Trail.names trail ++ [part]) = some x := by
    rw [Entry.at?_append, htrail.at?_names, Option.bind_some, Entry.at?_cons, hchild]
    simp
  obtain ⟨y, hy, hkind⟩ := h _ x hat
  rw [← hnames, Entry.at?_append, htrail'.at?_names, Option.bind_some, Entry.at?_cons,
    Option.bind_eq_some_iff] at hy
  obtain ⟨z, hz, hzy⟩ := hy
  rw [Entry.at?_nil, Option.some.injEq] at hzy
  exact ⟨y, hzy ▸ hz, hkind⟩

theorem isFolder_of_keeps (h : root.Keeps root') (htrail : IsTrail root trail)
    (htrail' : IsTrail root' trail') (hnames : Trail.names trail' = Trail.names trail) :
    (current root' trail').isFolder = (current root trail).isFolder := by
  obtain ⟨y, hy, hkind⟩ := h _ _ htrail.at?_names
  rw [← hnames, htrail'.at?_names, Option.some.injEq] at hy
  rw [hy]
  exact hkind.isFolder_eq

theorem Trail.names_tail (trail : Trail) :
    Trail.names trail.tail = (Trail.names trail).dropLast := by
  cases trail with
  | nil => rfl
  | cons x rest => simp

theorem advance_of_keeps (h : root.Keeps root') (htrail : IsTrail root trail)
    (htrail' : IsTrail root' trail') (hnames : Trail.names trail' = Trail.names trail)
    (hadv : advance root links trail parts = .ok (links', way)) :
    ∃ way', advance root' links trail' parts = .ok (links', way') ∧ IsTrail root' way' ∧
      Trail.names way' = Trail.names way := by
  -- At each step the other trail has the same names, so it stands at an entry of the same kind.
  fun_induction advance root links trail parts generalizing trail' links' way
  case case1 =>
    cases hadv
    exact ⟨trail', by rw [advance], htrail', hnames⟩
  case case3 trail part rest hfolder hplain ih =>
    rw [← isFolder_of_keeps h htrail htrail' hnames] at hfolder
    rw [advance, if_neg hfolder, if_pos hplain]
    exact ih htrail htrail' hnames hadv
  case case4 trail part rest hfolder hplain hparent ih =>
    rw [← isFolder_of_keeps h htrail htrail' hnames] at hfolder
    rw [advance, if_neg hfolder, if_neg hplain, if_pos hparent]
    refine ih htrail.tail htrail'.tail ?_ hadv
    rw [Trail.names_tail, Trail.names_tail, hnames]
  case case8 trail part rest hfolder hplain hparent hshort target hchild links ih =>
    obtain ⟨y, hy, hkind⟩ := child?_of_keeps h htrail htrail' hnames hchild
    rw [← isFolder_of_keeps h htrail htrail' hnames] at hfolder
    cases hkind
    rw [advance, if_neg hfolder, if_neg hplain, if_neg hparent, if_neg hshort, hy]
    simp only
    by_cases habs : Location.isAbsolute target = true
    · simp only [habs, if_true, dite_true] at ih hadv ⊢
      exact ih .nil .nil rfl hadv
    · simp only [habs] at ih hadv ⊢
      exact ih htrail htrail' hnames hadv
  case case9 trail part rest hfolder hplain hparent hshort e hlink hchild ih =>
    obtain ⟨y, hy, hkind⟩ := child?_of_keeps h htrail htrail' hnames hchild
    rw [← isFolder_of_keeps h htrail htrail' hnames] at hfolder
    have hstep := ih (.cons htrail hchild) (.cons htrail' hy) (by simp [hnames]) hadv
    rw [advance, if_neg hfolder, if_neg hplain, if_neg hparent, if_neg hshort, hy]
    cases hkind with
    | file c c' => exact hstep
    | link target => exact absurd rfl (hlink target)
    | folder es ds => exact hstep
  all_goals cases hadv

theorem names_trailTo (htrail : IsTrail root trail) {place : List String} {e : Entry}
    (hat : (current root trail).at? place = some e) :
    Trail.names (trailTo root place trail) = Trail.names trail ++ place := by
  induction place generalizing trail with
  | nil => rw [trailTo, List.append_nil]
  | cons name rest ih =>
      rw [Entry.at?_cons, Option.bind_eq_some_iff] at hat
      obtain ⟨d, hd, hrest⟩ := hat
      rw [trailTo, hd]
      simp only
      rw [ih (.cons htrail hd) hrest, Trail.names_cons, List.append_assoc, List.singleton_append]

variable {host host' : Host} {path : String} {f : Found}

/-- The working folder of a host is there. -/
def HasWorkingFolder (host : Host) : Prop :=
  ∃ es, host.root.at? host.workingFolder = some (.folder es)

theorem HasWorkingFolder.of_keeps (h : host.HasWorkingFolder) (hkeeps : host.root.Keeps host'.root)
    (hsame : host'.workingFolder = host.workingFolder) : host'.HasWorkingFolder := by
  obtain ⟨es, hes⟩ := h
  obtain ⟨y, hy, hkind⟩ := hkeeps _ _ hes
  cases hkind with
  | folder _ ds => exact ⟨ds, by rw [hsame, hy]⟩

theorem startTrail_of_keeps (h : host.root.Keeps host'.root) (hworking : host.HasWorkingFolder)
    (hsame : host'.workingFolder = host.workingFolder) (path : String) :
    IsTrail host.root (startTrail host path) ∧ IsTrail host'.root (startTrail host' path) ∧
      Trail.names (startTrail host' path) = Trail.names (startTrail host path) := by
  refine ⟨isTrail_startTrail host path, isTrail_startTrail host' path, ?_⟩
  rw [startTrail, startTrail, hsame]
  split
  · rfl
  · obtain ⟨es, hat⟩ := hworking
    obtain ⟨y, hy, _⟩ := h _ _ hat
    rw [names_trailTo .nil hat, names_trailTo .nil hy]

theorem resolve_of_keeps (h : host.root.Keeps host'.root) (hworking : host.HasWorkingFolder)
    (hsame : host'.workingFolder = host.workingFolder) (hres : host.resolve path = .ok f) :
    ∃ y, host'.resolve path = .ok ⟨f.place, y⟩ ∧ host'.root.at? f.place = some y := by
  obtain ⟨hnul, hne, hsize, links, way, hadv, htrail, rfl⟩ := resolve_ok hres
  obtain ⟨hstart, hstart', hnames⟩ := startTrail_of_keeps h hworking hsame path
  obtain ⟨way', hadv', htrail', hway⟩ := advance_of_keeps h hstart hstart' hnames hadv
  refine ⟨current host'.root way', ?_, ?_⟩
  · rw [resolve_eq, if_neg hnul, if_neg hne, if_neg (Nat.not_lt.mpr hsize), hadv', Except.map,
      found_eq, hway]
    rfl
  · rw [found_eq, ← hway, htrail'.at?_names]

end ImportAtlas.Host
