import ImportAtlas.Proofs.Host.Lookup

/-!
# Going down from a folder

What names lead to below a folder depends on the tree at that folder only, as long as they meet no
link on the way. It does not matter then whether a lookup would follow a link in last place.
-/

namespace ImportAtlas.Host

open Text

namespace Entry

/-- What names lead to below an entry, or why they lead nowhere. -/
def descend : List String → Entry → Except HostError Entry
  | [], e => .ok e
  | name :: rest, e =>
    if !e.isFolder then .error .notDirectory
    else if name.utf8ByteSize > maxNameBytes then .error .nameTooLong
    else
      match e.child? name with
      | none => .error .notFound
      | some d => d.descend rest

/-- None of the entries that the names pass is a link. -/
def MeetsNoLink (e : Entry) (names : List String) : Prop :=
  ∀ above, above <+: names → ∀ target, e.at? above ≠ some (.link target)

variable {e d : Entry} {es : List (String × Entry)} {name : String} {names : List String}

theorem LinkFree.meetsNoLink (he : e.LinkFree) (names : List String) : e.MeetsNoLink names := by
  intro above _ target hat
  cases he.of_at? hat

theorem MeetsNoLink.child (h : e.MeetsNoLink (name :: names)) (hchild : e.child? name = some d) :
    d.MeetsNoLink names := by
  intro above habove target hat
  refine h (name :: above) (List.cons_prefix_cons.mpr ⟨rfl, habove⟩) target ?_
  rw [at?_cons, hchild, Option.bind_some, hat]

theorem MeetsNoLink.not_link (h : e.MeetsNoLink names) (target : String) : e ≠ .link target := by
  rintro rfl
  exact h [] List.nil_prefix target (at?_nil _)

theorem descend_folder_cons (es : List (String × Entry)) (name : String) (names : List String) :
    (folder es).descend (name :: names) =
      if name.utf8ByteSize > maxNameBytes then .error .nameTooLong
      else
        match find? name es with
        | none => .error .notFound
        | some d => d.descend names := by
  rw [descend]
  rfl

theorem descend_eq_ok_iff :
    e.descend names = .ok d ↔
      e.at? names = some d ∧ ∀ n ∈ names, n.utf8ByteSize ≤ maxNameBytes := by
  induction names generalizing e with
  | nil => simp [descend]
  | cons name rest ih =>
      rw [at?_cons, List.forall_mem_cons]
      cases e with
      | file c => simp [descend, isFolder, child?, entries]
      | link target => simp [descend, isFolder, child?, entries]
      | folder es =>
          rw [descend_folder_cons, child?, entries]
          by_cases hlong : name.utf8ByteSize > maxNameBytes
          · rw [if_pos hlong]
            simp only [reduceCtorEq, false_iff, not_and]
            intro _ hshort
            omega
          · rw [if_neg hlong]
            cases hfind : find? name es with
            | none => simp
            | some x =>
                simp only [Option.bind_some, ih]
                exact and_congr_right fun _ => (and_iff_right (by omega)).symm

/-- Some folder on the way has no entry of the next name, and no name up to that one is too long. -/
def Lacks (e : Entry) (names : List String) : Prop :=
  ∃ above name below es, names = above ++ name :: below ∧ e.at? above = some (.folder es) ∧
    find? name es = none ∧ ∀ n ∈ above ++ [name], n.utf8ByteSize ≤ maxNameBytes

theorem not_lacks (h : e.isFolder = false) (names : List String) : ¬ e.Lacks names := by
  rintro ⟨above, name, below, es, _, hat, _⟩
  cases above with
  | nil =>
      rw [at?_nil, Option.some.injEq] at hat
      rw [hat] at h
      cases h
  | cons n rest =>
      rw [at?_cons, Option.bind_eq_some_iff] at hat
      obtain ⟨d, hd, _⟩ := hat
      obtain ⟨ds, rfl, _⟩ := child?_eq_some_iff.mp hd
      cases h

theorem lacks_folder_cons :
    (folder es).Lacks (name :: names) ↔ name.utf8ByteSize ≤ maxNameBytes ∧
      ∀ d, find? name es = some d → d.Lacks names := by
  constructor
  · rintro ⟨above, n, below, ds, hsplit, hat, hfind, hshort⟩
    cases above with
    | nil =>
        obtain ⟨rfl, rfl⟩ := List.cons.inj hsplit
        rw [at?_nil, Option.some.injEq, folder.injEq] at hat
        refine ⟨hshort name (by simp), fun d hd => ?_⟩
        rw [hat, hfind] at hd
        cases hd
    | cons a above =>
        obtain ⟨rfl, rfl⟩ := List.cons.inj hsplit
        rw [at?_cons, Option.bind_eq_some_iff] at hat
        obtain ⟨x, hx, hat⟩ := hat
        refine ⟨hshort name (by simp), fun d hd => ?_⟩
        obtain rfl : x = d := Option.some.inj (hx.symm.trans hd)
        exact ⟨above, n, below, ds, rfl, hat, hfind,
          fun m hm => hshort m (List.mem_cons_of_mem _ hm)⟩
  · rintro ⟨hshort, hbelow⟩
    cases hfind : find? name es with
    | none => exact ⟨[], name, names, es, rfl, at?_nil _, hfind, by simpa using hshort⟩
    | some d =>
        obtain ⟨above, n, below, ds, rfl, hat, hnone, hall⟩ := hbelow d hfind
        refine ⟨name :: above, n, below, ds, rfl, ?_, hnone,
          List.forall_mem_cons.mpr ⟨hshort, hall⟩⟩
        rw [at?_cons, child?, entries, hfind, Option.bind_some, hat]

theorem Lacks.append (h : e.Lacks names) (more : List String) : e.Lacks (names ++ more) := by
  obtain ⟨above, name, below, es, rfl, hat, hfind, hshort⟩ := h
  exact ⟨above, name, below ++ more, es, by simp, hat, hfind, hshort⟩

/-- Behind a file there is nothing, and nothing that a folder lacks. -/
theorem not_lacks_behind {above below : List String} (h : e.at? above = some d)
    (hd : d.isFolder = false) : ¬ e.Lacks (above ++ below) := by
  induction above generalizing e with
  | nil =>
      rw [at?_nil, Option.some.injEq] at h
      exact h ▸ not_lacks hd below
  | cons name rest ih =>
      rw [at?_cons, Option.bind_eq_some_iff] at h
      obtain ⟨x, hx, hrest⟩ := h
      obtain ⟨es, rfl, hfind⟩ := child?_eq_some_iff.mp hx
      rw [List.cons_append, lacks_folder_cons]
      exact fun hlacks => ih hrest (hlacks.2 x hfind)

end Entry

variable {root : Entry} {links : Nat} {trail : Trail} {followLast : Bool} {host host' : Host}
  {base : String} {names : List String} {f g : Found}

theorem follow_names (hnames : ∀ n ∈ names, IsSegment n)
    (hlinks : (current root trail).MeetsNoLink names) :
    follow root followLast links trail names =
      ((current root trail).descend names).map fun e => ⟨Trail.names trail ++ names, e⟩ := by
  induction names generalizing trail with
  | nil =>
      rw [follow, Entry.descend, Except.map, found_eq, List.append_nil]
  | cons name rest ih =>
      obtain ⟨hname, hrest⟩ := List.forall_mem_cons.mp hnames
      rw [follow, Entry.descend]
      simp only [beq_iff_eq, hname.ne_empty, hname.ne_current, hname.ne_parent, Bool.or_eq_true,
        or_self, if_false]
      by_cases hfolder : (current root trail).isFolder = true
      · by_cases hlong : name.utf8ByteSize > maxNameBytes
        · simp [hfolder, hlong, Except.map]
        · cases hchild : (current root trail).child? name with
          | none => simp [hfolder, hlong, Except.map]
          | some d =>
              have hd : (current root ((name, d) :: trail)).MeetsNoLink rest := hlinks.child hchild
              have hstep := ih hrest hd
              rw [Trail.names_cons, List.append_assoc, List.singleton_append] at hstep
              simp only [hfolder, hlong, Bool.not_true, Bool.false_eq_true, if_false]
              cases d with
              | file c => exact hstep
              | link target => exact absurd rfl (hd.not_link target)
              | folder es => exact hstep
      · simp [hfolder, Except.map]

/-- Names below a folder lead to what the tree at that folder holds there. -/
theorem lookup_below (h : host.resolve base = .ok f) (hne : names ≠ [])
    (hnames : ∀ n ∈ names, IsSegment n) (hlinks : f.entry.MeetsNoLink names) (followLast : Bool) :
    host.lookup followLast (Location.joinAll base names) =
      if ∃ n ∈ names, '\x00' ∈ n.toList then .error .nulByte
      else if (Location.joinAll base names).utf8ByteSize > maxPathBytes then .error .nameTooLong
      else (f.entry.descend names).map fun e => ⟨f.place ++ names, e⟩ := by
  obtain ⟨links, way, rfl, hlookup⟩ := lookup_joinAll h hne hnames followLast
  rw [hlookup, follow_names hnames hlinks]
  rfl

/-- Two hosts on which a path leads to the same tree agree on all that is below it. -/
theorem resolve_joinAll_congr (h : host.resolve base = .ok f) (h' : host'.resolve base = .ok f)
    (hfree : f.entry.LinkFree) (hnames : ∀ n ∈ names, IsSegment n) :
    host.resolve (Location.joinAll base names) = host'.resolve (Location.joinAll base names) := by
  by_cases hne : names = []
  · rw [hne, Location.joinAll_nil, h, h']
  · have hlinks := hfree.meetsNoLink names
    rw [resolve, resolve, lookup_below h hne hnames hlinks, lookup_below h' hne hnames hlinks]

/-! ## From a directory that may be missing -/

/-- What a directory leads to. The empty path stands for the working folder. -/
def startingAt (host : Host) (base : String) : Except HostError Found :=
  host.resolve (if base.isEmpty then "." else base)

/-- A text that a host takes for a path. -/
structure IsPathText (path : String) : Prop where
  no_nul : '\x00' ∉ path.toList
  short : path.utf8ByteSize ≤ maxPathBytes

instance (path : String) : Decidable (IsPathText path) :=
  decidable_of_iff ('\x00' ∉ path.toList ∧ path.utf8ByteSize ≤ maxPathBytes)
    ⟨fun h => ⟨h.1, h.2⟩, fun h => ⟨h.no_nul, h.short⟩⟩

theorem follow_of_not_folder (h : (current root trail).isFolder = false) (hne : names ≠ []) :
    follow root followLast links trail names = .error .notDirectory := by
  obtain ⟨name, rest, rfl⟩ := List.exists_cons_of_ne_nil hne
  rw [follow, h]
  rfl

theorem resolve_dot (host : Host) :
    host.resolve "." =
      if (current host.root (startTrail host ".")).isFolder then
        .ok (found host.root (startTrail host "."))
      else .error .notDirectory := by
  rw [resolve, lookup_eq, if_neg (by decide), if_neg (by decide), if_neg (by decide),
    show fields Location.isSlash "." = ["."] from by decide, follow]
  cases (current host.root (startTrail host ".")).isFolder <;> simp [follow]

/-- A directory that cannot be reached is the reason why nothing below it can. -/
theorem resolve_joinAll_of_error {e : HostError} (hbase : base ≠ "")
    (h : host.resolve base = .error e) (hne : names ≠ []) (hnames : ∀ n ∈ names, IsSegment n)
    (hpath : IsPathText (Location.joinAll base names)) :
    host.resolve (Location.joinAll base names) = .error e := by
  have hrel : Location.isAbsolute (joinFields '/' names) = false :=
    Location.isAbsolute_joinFields hne hnames
  obtain ⟨front, close, hfields, hclose, hjoined⟩ := Location.fields_join hbase hrel
  have hpath_eq : Location.joinAll base names = Location.join base (joinFields '/' names) :=
    Location.joinAll_eq_join hbase hne hnames
  have hnul : '\x00' ∉ base.toList := fun hin =>
    hpath.no_nul ((Location.mem_toList_joinAll (by decide) hnames).mpr (.inl hin))
  have hsize : ¬ base.utf8ByteSize > maxPathBytes :=
    Nat.not_lt.mpr ((Location.utf8ByteSize_le_joinAll hbase hnames).trans hpath.short)
  have hstart : startTrail host (Location.joinAll base names) = startTrail host base := by
    rw [startTrail, hpath_eq, Location.isAbsolute_join hbase hrel, startTrail]
  rw [resolve_eq, if_neg hnul, if_neg hbase, if_neg hsize, hfields] at h
  rw [resolve, lookup_eq, if_neg hpath.no_nul, if_neg (Location.joinAll_ne_empty hbase hnames),
    if_neg (Nat.not_lt.mpr hpath.short), hstart, hpath_eq, hjoined,
    Location.fields_joinFields_segments hne hnames, follow_append _ _ _ _ _ hne]
  cases hfront : advance host.root maxLinks (startTrail host base) front with
  | error e' =>
      rw [advance_append, hfront] at h
      cases h
      rfl
  | ok s =>
      -- Only a closing slash behind something that is no folder can fail now.
      rw [advance_append, hfront, Except.bind] at h
      rcases hclose with rfl | rfl
      · rw [advance] at h
        cases h
      · rw [advance] at h
        by_cases hfolder : (current host.root s.2).isFolder = true
        · simp [hfolder, advance, Except.map] at h
        · rw [if_pos (by simpa using hfolder)] at h
          cases h
          exact follow_of_not_folder (by simpa using hfolder) hne

theorem isPathText_of_notFound {path : String}
    (h : host.lookup followLast path = .error .notFound) : IsPathText path := by
  rw [lookup_eq] at h
  split at h
  · cases h
  split at h
  · next hempty => exact hempty ▸ ⟨by decide, by decide⟩
  split at h
  · cases h
  · next hnul _ hsize => exact ⟨hnul, Nat.le_of_not_gt hsize⟩

end ImportAtlas.Host
