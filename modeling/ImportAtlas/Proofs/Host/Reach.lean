import ImportAtlas.Proofs.Host.Canonical

/-!
# Real paths below a directory

The real path of something below a directory is found from where the directory leads to. If the tree
there holds no links, the names go straight down as far as they can be asked for: the path of each
place on the way must not be too long.
-/

namespace ImportAtlas.Host

open Text

namespace Entry

/-- What names lead to below an entry, with `room` bytes left for their path. -/
def descendWithin (room : Nat) : List String → Entry → Except HostError Entry
  | [], e => .ok e
  | name :: rest, e =>
    if name.utf8ByteSize + 1 > room then .error .nameTooLong
    else if !e.isFolder then .error .notDirectory
    else if name.utf8ByteSize > maxNameBytes then .error .nameTooLong
    else
      match e.child? name with
      | none => .error .notFound
      | some d => d.descendWithin (room - (name.utf8ByteSize + 1)) rest

variable {e d : Entry} {es : List (String × Entry)} {name : String} {names more : List String}
  {room : Nat}

theorem descendWithin_folder_cons (room : Nat) (es : List (String × Entry)) (name : String)
    (names : List String) :
    (folder es).descendWithin room (name :: names) =
      if name.utf8ByteSize + 1 > room ∨ name.utf8ByteSize > maxNameBytes then .error .nameTooLong
      else
        match find? name es with
        | none => .error .notFound
        | some d => d.descendWithin (room - (name.utf8ByteSize + 1)) names := by
  rw [descendWithin]
  by_cases hroom : name.utf8ByteSize + 1 > room
  · rw [if_pos hroom, if_pos (.inl hroom)]
  · rw [if_neg hroom, if_neg (by simp [isFolder])]
    simp only [hroom, false_or]
    rfl

theorem descendWithin_of_not_folder (h : e.isFolder = false) (hne : names ≠ []) (room : Nat) :
    e.descendWithin room names = .error .nameTooLong ∨
      e.descendWithin room names = .error .notDirectory := by
  obtain ⟨name, rest, rfl⟩ := List.exists_cons_of_ne_nil hne
  rw [descendWithin, h]
  split
  · exact .inl rfl
  · exact .inr rfl

theorem descendWithin_eq_ok_iff :
    e.descendWithin room names = .ok d ↔
      e.at? names = some d ∧ placeBytes names ≤ room ∧
        ∀ n ∈ names, n.utf8ByteSize ≤ maxNameBytes := by
  induction names generalizing e room with
  | nil => simp [descendWithin, placeBytes_nil]
  | cons name rest ih =>
      rw [at?_cons, List.forall_mem_cons, placeBytes_cons]
      by_cases hfolder : e.isFolder = true
      · obtain ⟨es, rfl⟩ := exists_of_isFolder hfolder
        rw [descendWithin_folder_cons, child?, entries]
        by_cases hlong : name.utf8ByteSize + 1 > room ∨ name.utf8ByteSize > maxNameBytes
        · rw [if_pos hlong]
          refine iff_of_false (by simp) ?_
          rintro ⟨_, hroom, hshort, _⟩
          omega
        · rw [if_neg hlong]
          rw [not_or] at hlong
          cases find? name es with
          | none => simp
          | some x =>
              simp only [Option.bind_some, ih, and_iff_right (Nat.le_of_not_gt hlong.2)]
              exact and_congr_right fun _ => and_congr_left' (by omega)
      · rw [Bool.not_eq_true] at hfolder
        refine iff_of_false ?_ fun h => ?_
        · rcases descendWithin_of_not_folder hfolder (List.cons_ne_nil name rest) room with h | h
          · simp [h]
          · simp [h]
        · obtain ⟨x, hx, _⟩ := Option.bind_eq_some_iff.mp h.1
          obtain ⟨es, rfl, _⟩ := child?_eq_some_iff.mp hx
          cases hfolder

/-- A name that is there is only ever too long, alone or with those in front of it. -/
theorem descendWithin_of_at? (h : e.at? names = some d) (room : Nat) :
    e.descendWithin room names =
      if placeBytes names ≤ room ∧ ∀ n ∈ names, n.utf8ByteSize ≤ maxNameBytes then .ok d
      else .error .nameTooLong := by
  induction names generalizing e room with
  | nil =>
      rw [at?_nil, Option.some.injEq] at h
      rw [if_pos ⟨Nat.zero_le room, by simp⟩, descendWithin, h]
  | cons name rest ih =>
      rw [at?_cons, Option.bind_eq_some_iff] at h
      obtain ⟨x, hx, hrest⟩ := h
      obtain ⟨es, rfl, hfind⟩ := child?_eq_some_iff.mp hx
      simp only [descendWithin_folder_cons, hfind, ih hrest, placeBytes_cons, List.forall_mem_cons]
      by_cases hlong : name.utf8ByteSize + 1 > room ∨ name.utf8ByteSize > maxNameBytes
      · rw [if_pos hlong, if_neg fun hfits => by omega]
      · rw [if_neg hlong]
        rw [not_or] at hlong
        have hiff : placeBytes rest ≤ room - (name.utf8ByteSize + 1) ↔
            name.utf8ByteSize + 1 + placeBytes rest ≤ room := by omega
        simp only [hiff, and_iff_right (Nat.le_of_not_gt hlong.2)]

theorem descendWithin_append_of_error {cause : HostError}
    (h : e.descendWithin room names = .error cause) (more : List String) :
    e.descendWithin room (names ++ more) = .error cause := by
  induction names generalizing e room with
  | nil => cases h
  | cons name rest ih =>
      rw [descendWithin] at h
      rw [List.cons_append, descendWithin]
      by_cases hroom : name.utf8ByteSize + 1 > room
      · rwa [if_pos hroom] at h ⊢
      by_cases hfolder : (!e.isFolder) = true
      · rwa [if_neg hroom, if_pos hfolder] at h ⊢
      by_cases hlong : name.utf8ByteSize > maxNameBytes
      · rwa [if_neg hroom, if_neg hfolder, if_pos hlong] at h ⊢
      rw [if_neg hroom, if_neg hfolder, if_neg hlong] at h ⊢
      cases hchild : e.child? name with
      | none => rwa [hchild] at h
      | some d =>
          rw [hchild] at h
          exact ih h

/-- What is missing is missing on the way, as far as the names can be asked for. -/
theorem descendWithin_eq_notFound_iff :
    e.descendWithin room names = .error .notFound ↔
      ∃ above, above <+: names ∧ placeBytes above ≤ room ∧ e.Lacks above := by
  induction names generalizing e room with
  | nil =>
      refine iff_of_false (by simp [descendWithin]) ?_
      rintro ⟨above, hprefix, _, hlacks⟩
      rw [List.prefix_nil.mp hprefix] at hlacks
      obtain ⟨_, _, _, _, hnil, _⟩ := hlacks
      simp at hnil
  | cons name rest ih =>
      have hcons : (∃ above, above <+: name :: rest ∧ placeBytes above ≤ room ∧ e.Lacks above) ↔
          ∃ above, above <+: rest ∧ name.utf8ByteSize + 1 + placeBytes above ≤ room ∧
            e.Lacks (name :: above) := by
        constructor
        · rintro ⟨above, hprefix, hroom, hlacks⟩
          rcases List.prefix_cons_iff.mp hprefix with rfl | ⟨more, rfl, hmore⟩
          · obtain ⟨_, _, _, _, hnil, _⟩ := hlacks
            simp at hnil
          · exact ⟨more, hmore, placeBytes_cons name more ▸ hroom, hlacks⟩
        · rintro ⟨more, hmore, hroom, hlacks⟩
          exact ⟨name :: more, List.cons_prefix_cons.mpr ⟨rfl, hmore⟩,
            placeBytes_cons name more ▸ hroom, hlacks⟩
      rw [hcons]
      by_cases hfolder : e.isFolder = true
      · obtain ⟨es, rfl⟩ := exists_of_isFolder hfolder
        simp only [descendWithin_folder_cons, lacks_folder_cons]
        by_cases hlong : name.utf8ByteSize + 1 > room ∨ name.utf8ByteSize > maxNameBytes
        · rw [if_pos hlong]
          refine iff_of_false (by simp) ?_
          rintro ⟨above, _, hroom, hshort, _⟩
          omega
        · rw [if_neg hlong]
          rw [not_or] at hlong
          cases hfind : find? name es with
          | none =>
              refine iff_of_true rfl ⟨[], List.nil_prefix, ?_, Nat.le_of_not_gt hlong.2, by simp⟩
              rw [placeBytes_nil]
              omega
          | some d =>
              simp only [ih, Option.some.injEq, forall_eq']
              refine exists_congr fun above => and_congr_right fun _ => ?_
              rw [and_iff_right (Nat.le_of_not_gt hlong.2)]
              exact and_congr_left' (by omega)
      · rw [Bool.not_eq_true] at hfolder
        refine iff_of_false ?_ fun ⟨_, _, _, hlacks⟩ => not_lacks hfolder _ hlacks
        rcases descendWithin_of_not_folder hfolder (List.cons_ne_nil name rest) room with h | h
        · simp [h]
        · simp [h]

end Entry

variable {root : Entry} {links : Nat} {trail : Trail} {host host' : Host} {base path : String}
  {name : String} {names rest : List String} {e : Entry} {f g : Found}

theorem followReal_names (hnames : ∀ n ∈ names, IsSegment n)
    (hlinks : (current root trail).MeetsNoLink names) :
    followReal root links trail names =
      ((current root trail).descendWithin (maxPathBytes - placeBytes (Trail.names trail)) names).map
        fun e => ⟨Trail.names trail ++ names, e⟩ := by
  induction names generalizing trail with
  | nil => rw [followReal, Entry.descendWithin, Except.map, found_eq, List.append_nil]
  | cons name rest ih =>
      obtain ⟨hname, hrest⟩ := List.forall_mem_cons.mp hnames
      have hidle : ¬ isIdle name = true := by simp [isIdle, hname.ne_empty, hname.ne_current]
      have hparent : ¬ (name == "..") = true := by simpa using hname.ne_parent
      have hasks : asksFolder rest = false := by
        cases rest with
        | nil => rfl
        | cons n more =>
            have hn : IsSegment n := hrest n List.mem_cons_self
            simp [asksFolder, isIdle, hn.ne_empty, hn.ne_current, hn.ne_parent]
      have hlong : placeBytes (name :: trail.map (·.1)) + 0 > maxPathBytes ↔
          name.utf8ByteSize + 1 > maxPathBytes - placeBytes (Trail.names trail) := by
        rw [placeBytes_cons, placeBytes_map]
        omega
      rw [followReal, if_neg hidle, if_neg hparent, hasks, entryAt_false, probe,
        Entry.descendWithin]
      simp only [hlong]
      by_cases hroom : name.utf8ByteSize + 1 > maxPathBytes - placeBytes (Trail.names trail)
      · rw [if_pos hroom, if_pos hroom]
        rfl
      by_cases hfolder : (!(current root trail).isFolder) = true
      · rw [if_neg hroom, if_neg hroom, if_pos hfolder, if_pos hfolder]
        rfl
      by_cases hsize : name.utf8ByteSize > maxNameBytes
      · rw [if_neg hroom, if_neg hroom, if_neg hfolder, if_neg hfolder, if_pos hsize, if_pos hsize]
        rfl
      rw [if_neg hroom, if_neg hroom, if_neg hfolder, if_neg hfolder, if_neg hsize, if_neg hsize]
      cases hchild : (current root trail).child? name with
      | none => rfl
      | some d =>
          have hd : (current root ((name, d) :: trail)).MeetsNoLink rest := hlinks.child hchild
          have hstep := ih hrest hd
          rw [Trail.names_cons, List.append_assoc, List.singleton_append, placeBytes_append,
            placeBytes_cons, placeBytes_nil, Nat.add_zero, ← Nat.sub_sub] at hstep
          cases d with
          | file c => exact hstep
          | link target => exact absurd rfl (hd.not_link target)
          | folder es => exact hstep

/-! ## From a directory on -/

/-- Whether `..` is the next of some parts that says something. -/
def asksParent (rest : List String) : Bool := (rest.dropWhile isIdle).head? == some ".."

theorem asksFolder_append (hname : IsSegment name) (rest names : List String) :
    asksFolder (rest ++ name :: names) = asksParent rest := by
  have hidle : isIdle name = false := by simp [isIdle, hname.ne_empty, hname.ne_current]
  rw [asksFolder, asksParent, List.dropWhile_append]
  cases rest.dropWhile isIdle with
  | nil => simp [hidle, hname.ne_parent]
  | cons part parts => simp

theorem asksFolder_of_asksParent (h : asksParent rest = true) : asksFolder rest = true := by
  rw [asksFolder]
  rw [asksParent] at h
  cases hparts : rest.dropWhile isIdle with
  | nil => simp [hparts] at h
  | cons part parts => simpa [hparts] using h

theorem ne_nil_of_asksFolder (h : asksFolder rest = true) : rest ≠ [] := by
  rintro rfl
  cases h

theorem asksParent_close (rest : List String) : asksParent (rest ++ [""]) = asksParent rest := by
  rw [asksParent, asksParent, List.dropWhile_append]
  cases rest.dropWhile isIdle with
  | nil => rfl
  | cons part parts => simp

/-- A closing slash makes no difference to what is below. -/
theorem through_close {front close : List String} (hclose : close = [] ∨ close = [""]) :
    through asksParent root links trail (front ++ close) =
      through asksParent root links trail front := by
  rcases hclose with rfl | rfl
  · rw [List.append_nil]
  · rw [through_append, funext asksParent_close]
    cases through asksParent root links trail front with
    | error e => rfl
    | ok s =>
        rw [Except.bind, through, if_pos (by decide), through]

/-- The way to a directory for the real paths of what is below it, with the links left to follow. -/
def realWay (host : Host) (base : String) : Except HostError (Nat × Trail) :=
  if '\x00' ∈ base.toList then .error .nulByte
  else (host.realStart base).bind fun trail =>
    through asksParent host.root maxLinks trail (fields Location.isSlash base)

/-- What a directory leads to for the real paths of what is below it. The empty path stands for the
working folder. -/
def realBase (host : Host) (base : String) : Except HostError Found :=
  (host.realWay base).map fun s => found host.root s.2

theorem isTrail_realStart (h : host.realStart path = .ok trail) : IsTrail host.root trail := by
  rw [realStart] at h
  split at h
  · cases h
    exact .nil
  split at h
  · cases h
    exact isTrail_trailTo _ .nil
  · cases h

theorem realStart_of_working (hworking : host.HasWorkingFolder) (path : String) :
    host.realStart path = .ok (startTrail host path) := by
  obtain ⟨es, hes⟩ := hworking
  rw [realStart, startTrail, hes]
  split <;> rfl

theorem canonicalize_eq (host : Host) (path : String) :
    host.canonicalize path =
      if '\x00' ∈ path.toList then .error .nulByte
      else if path = "" then .error .notFound
      else (host.realStart path).bind fun trail =>
        followReal host.root maxLinks trail (fields Location.isSlash path) := by
  simp only [canonicalize, String.contains_char_eq, decide_eq_true_eq, String.isEmpty_iff]
  cases host.realStart path <;> rfl

theorem canonicalize_ok (h : host.canonicalize path = .ok f) :
    '\x00' ∉ path.toList ∧ path ≠ "" ∧ ∃ trail links way, host.realStart path = .ok trail ∧
      through asksFolder host.root maxLinks trail (fields Location.isSlash path) =
        .ok (links, way) ∧ IsTrail host.root way ∧ f = found host.root way := by
  rw [canonicalize_eq] at h
  split at h
  · cases h
  split at h
  · cases h
  cases hstart : host.realStart path with
  | error e =>
      rw [hstart] at h
      cases h
  | ok trail =>
      rw [hstart, Except.bind, followReal_eq] at h
      cases hway : through asksFolder host.root maxLinks trail (fields Location.isSlash path) with
      | error e =>
          rw [hway] at h
          cases h
      | ok s =>
          rw [hway] at h
          cases h
          exact ⟨‹_›, ‹_›, trail, s.1, s.2, rfl, hway,
            isTrail_through (isTrail_realStart hstart) hway, rfl⟩

theorem at?_of_canonicalize (h : host.canonicalize path = .ok f) :
    host.root.at? f.place = some f.entry := by
  obtain ⟨_, _, _, _, way, _, _, hway, rfl⟩ := canonicalize_ok h
  exact hway.at?_names

/-- The real path of what an absolute path leads to is no longer than the host takes. -/
theorem placeBytes_of_canonicalize (habsolute : Location.isAbsolute path = true)
    (h : host.canonicalize path = .ok f) : placeBytes f.place ≤ maxPathBytes := by
  obtain ⟨_, _, trail, _, _, hstart, hway, _, rfl⟩ := canonicalize_ok h
  rw [realStart, if_pos habsolute] at hstart
  obtain rfl := Except.ok.inj hstart
  exact placeBytes_of_through (Nat.zero_le _) hway

/-- Names below a directory are followed from where the directory leads to. -/
theorem canonicalize_joinAll (host : Host) (base : String) (hne : names ≠ [])
    (hnames : ∀ n ∈ names, IsSegment n) :
    host.canonicalize (Location.joinAll base names) =
      if ∃ n ∈ names, '\x00' ∈ n.toList then .error .nulByte
      else (host.realWay base).bind fun s => followReal host.root s.1 s.2 names := by
  obtain ⟨front, close, hfields, hclose, hjoined⟩ := Location.fields_joinAll base hne hnames
  have hstart : host.realStart (Location.joinAll base names) = host.realStart base := by
    rw [realStart, realStart, Location.isAbsolute_joinAll base hne hnames]
  have hasks : (fun rest => asksFolder (rest ++ names)) = asksParent := by
    obtain ⟨name, more, rfl⟩ := List.exists_cons_of_ne_nil hne
    exact funext fun rest => asksFolder_append (hnames name List.mem_cons_self) rest more
  have hfollow (trail : Trail) : followReal host.root maxLinks trail (front ++ names) =
      (through asksParent host.root maxLinks trail front).bind fun s =>
        followReal host.root s.1 s.2 names := by
    rw [followReal_eq, through_append, hasks]
    cases through asksParent host.root maxLinks trail front with
    | error e => rfl
    | ok s => exact (followReal_eq host.root s.1 s.2 names).symm
  rw [canonicalize_eq, if_neg (Location.joinAll_ne_empty_of_ne_nil hne hnames), hstart, hjoined,
    realWay, hfields]
  simp only [Location.mem_toList_joinAll (show '\x00' ≠ '/' by decide) hnames, hfollow,
    through_close hclose]
  by_cases hnul : ∃ n ∈ names, '\x00' ∈ n.toList
  · rw [if_pos hnul, if_pos (.inr hnul)]
  · simp only [hnul, or_false, if_false]
    split
    · rfl
    · cases host.realStart base <;> rfl

/-- Names below a directory lead to what the tree at the directory holds there, as far as they can
be asked for. -/
theorem canonicalize_below (hne : names ≠ []) (hnames : ∀ n ∈ names, IsSegment n)
    (hlinks : ∀ f, host.realBase base = .ok f → f.entry.MeetsNoLink names) :
    host.canonicalize (Location.joinAll base names) =
      if ∃ n ∈ names, '\x00' ∈ n.toList then .error .nulByte
      else (host.realBase base).bind fun f =>
        (f.entry.descendWithin (maxPathBytes - placeBytes f.place) names).map
          fun e => ⟨f.place ++ names, e⟩ := by
  rw [canonicalize_joinAll host base hne hnames]
  split
  · rfl
  · rw [realBase] at hlinks ⊢
    cases hway : host.realWay base with
    | error e => rfl
    | ok s =>
        rw [hway] at hlinks
        exact followReal_names hnames (hlinks _ rfl)

/-- A directory that has a real path itself is the base of what is below it. -/
theorem realBase_of_canonicalize (h : host.canonicalize base = .ok f) :
    host.realBase base = .ok f := by
  obtain ⟨hnul, _, trail, links, way, hstart, hway, _, rfl⟩ := canonicalize_ok h
  have hparent : through asksParent host.root maxLinks trail (fields Location.isSlash base) =
      .ok (links, way) := through_of_le (fun _ => asksFolder_of_asksParent) hway
  rw [realBase, realWay, if_neg hnul, hstart, Except.bind, hparent]
  rfl

/-- Two hosts on which a path has the same real path, with the same tree there, agree on all that is
below it. -/
theorem canonicalize_joinAll_congr (h : host.canonicalize base = .ok f)
    (h' : host'.canonicalize base = .ok f) (hfree : f.entry.LinkFree)
    (hnames : ∀ n ∈ names, IsSegment n) :
    host.canonicalize (Location.joinAll base names) =
      host'.canonicalize (Location.joinAll base names) := by
  by_cases hne : names = []
  · rw [hne, Location.joinAll_nil, h, h']
  · have hbase := realBase_of_canonicalize h
    have hbase' := realBase_of_canonicalize h'
    have hlinks {other : Host} (hother : other.realBase base = .ok f) :
        ∀ g, other.realBase base = .ok g → g.entry.MeetsNoLink names := by
      intro g hg
      obtain rfl := Except.ok.inj (hother.symm.trans hg)
      exact hfree.meetsNoLink names
    rw [canonicalize_below hne hnames (hlinks hbase), canonicalize_below hne hnames (hlinks hbase'),
      hbase, hbase']

/-- Names below a place can be asked for: neither their path nor one of them is too long. -/
def FitsBelow (place names : List String) : Prop :=
  placeBytes (place ++ names) ≤ maxPathBytes ∧ ∀ n ∈ names, n.utf8ByteSize ≤ maxNameBytes

instance (place names : List String) : Decidable (FitsBelow place names) :=
  inferInstanceAs (Decidable (_ ∧ _))

theorem Entry.MeetsNoLink.of_at? {d : Entry} (h : d.at? names = some e)
    (he : ∀ target, e ≠ .link target) : d.MeetsNoLink names := by
  rintro above ⟨below, rfl⟩ target hat
  rw [Entry.at?_append, hat, Option.bind_some] at h
  cases below with
  | nil => exact he target (Option.some.inj ((Entry.at?_nil _).symm.trans h)).symm
  | cons name rest => simp [Entry.at?_cons, Entry.child?, Entry.entries] at h

theorem fitsBelow_iff (hne : names ≠ []) (place : List String) :
    FitsBelow place names ↔ placeBytes names ≤ maxPathBytes - placeBytes place ∧
      ∀ n ∈ names, n.utf8ByteSize ≤ maxNameBytes := by
  obtain ⟨name, rest, rfl⟩ := List.exists_cons_of_ne_nil hne
  rw [FitsBelow, placeBytes_append, placeBytes_cons]
  exact and_congr_left' (by omega)

theorem fitsBelow_cons {place : List String} :
    FitsBelow place (name :: names) ↔
      FitsBelow place [name] ∧ FitsBelow (place ++ [name]) names := by
  simp only [FitsBelow, placeBytes_append, placeBytes_cons, placeBytes_nil, List.forall_mem_cons]
  constructor
  · rintro ⟨hpath, hname, hnames⟩
    exact ⟨⟨by omega, hname, by simp⟩, by omega, hnames⟩
  · rintro ⟨⟨_, hname, _⟩, hpath, hnames⟩
    exact ⟨by omega, hname, hnames⟩

theorem descendWithin_below (place : List String) (es : List (String × Entry)) (name : String)
    (names : List String) :
    (Entry.folder es).descendWithin (maxPathBytes - placeBytes place) (name :: names) =
      if FitsBelow place [name] then
        match Entry.find? name es with
        | none => .error .notFound
        | some d => d.descendWithin (maxPathBytes - placeBytes (place ++ [name])) names
      else .error .nameTooLong := by
  have hlong : ¬ FitsBelow place [name] ↔
      name.utf8ByteSize + 1 > maxPathBytes - placeBytes place ∨
        name.utf8ByteSize > maxNameBytes := by
    rw [fitsBelow_iff (List.cons_ne_nil name []), List.forall_mem_singleton, placeBytes_cons,
      placeBytes_nil]
    omega
  rw [Entry.descendWithin_folder_cons, placeBytes_append, placeBytes_cons, placeBytes_nil,
    Nat.add_zero, Nat.sub_sub]
  by_cases hfits : FitsBelow place [name]
  · rw [if_pos hfits, if_neg (hlong.not_right.mp hfits)]
  · rw [if_neg hfits, if_pos (hlong.mp hfits)]

/-- Below a folder with a real path, names that meet no link have one as well, unless it or one of
the names is too long for the host. -/
theorem canonicalize_joinAll_at (h : host.canonicalize base = .ok f) (hne : names ≠ [])
    (hnames : ∀ n ∈ names, IsEntryName n) (hat : f.entry.at? names = some e)
    (he : ∀ target, e ≠ .link target) :
    host.canonicalize (Location.joinAll base names) =
      if FitsBelow f.place names then .ok ⟨f.place ++ names, e⟩ else .error .nameTooLong := by
  have hbase := realBase_of_canonicalize h
  have hnul : ¬ ∃ n ∈ names, '\x00' ∈ n.toList := fun ⟨n, hn, hc⟩ => (hnames n hn).no_nul hc
  have hlinks : ∀ g, host.realBase base = .ok g → g.entry.MeetsNoLink names := by
    intro g hg
    obtain rfl := Except.ok.inj (hbase.symm.trans hg)
    exact .of_at? hat he
  rw [canonicalize_below hne (fun n hn => (hnames n hn).toIsSegment) hlinks, if_neg hnul, hbase,
    Except.bind, Entry.descendWithin_of_at? hat]
  simp only [fitsBelow_iff hne]
  split <;> rfl

/-! ## From a directory without links -/

/-- The tree that a directory leads to holds no links, if there is one. -/
def IsLinkFreeAt (host : Host) (base : String) : Prop :=
  ∀ f, host.realBase base = .ok f → f.entry.LinkFree

/-- A directory is missing, or some folder below it lacks the next one of the names, and that place
has a path that the host can be asked for. -/
def LacksBelow (host : Host) (base : String) (names : List String) : Prop :=
  host.realBase base = .error .notFound ∨
    ∃ f above, host.realBase base = .ok f ∧ above <+: names ∧
      placeBytes (f.place ++ above) ≤ maxPathBytes ∧ f.entry.Lacks above

theorem LacksBelow.append (h : host.LacksBelow base names) (more : List String) :
    host.LacksBelow base (names ++ more) := by
  rcases h with hmissing | ⟨f, above, hf, hprefix, hlacks⟩
  · exact .inl hmissing
  · exact .inr ⟨f, above, hf, hprefix.trans (List.prefix_append names more), hlacks⟩

theorem canonicalize_joinAll_of_linkFree (hfree : host.IsLinkFreeAt base) (hne : names ≠ [])
    (hnames : ∀ n ∈ names, IsSegment n) (hnul : ∀ n ∈ names, '\x00' ∉ n.toList) :
    host.canonicalize (Location.joinAll base names) =
      (host.realBase base).bind fun f =>
        (f.entry.descendWithin (maxPathBytes - placeBytes f.place) names).map
          fun e => ⟨f.place ++ names, e⟩ := by
  rw [canonicalize_below hne hnames fun f hf => (hfree f hf).meetsNoLink names,
    if_neg fun ⟨n, hn, hin⟩ => hnul n hn hin]

theorem canonicalize_joinAll_of_nul (hne : names ≠ []) (hnames : ∀ n ∈ names, IsSegment n)
    (hnul : ¬ ∀ n ∈ names, '\x00' ∉ n.toList) :
    host.canonicalize (Location.joinAll base names) = .error .nulByte := by
  rw [canonicalize_joinAll host base hne hnames, if_pos (by simpa using hnul)]

/-- Names below a directory without links have a real path if the tree there has an entry at them,
they can stand in a path and that path is not too long. -/
theorem canonicalize_joinAll_eq_ok_iff (hfree : host.IsLinkFreeAt base) (hne : names ≠ [])
    (hnames : ∀ n ∈ names, IsSegment n) :
    host.canonicalize (Location.joinAll base names) = .ok g ↔
      (∀ n ∈ names, '\x00' ∉ n.toList) ∧ ∃ f, host.realBase base = .ok f ∧
        f.entry.at? names = some g.entry ∧ FitsBelow f.place names ∧
          g.place = f.place ++ names := by
  by_cases hnul : ∀ n ∈ names, '\x00' ∉ n.toList
  · rw [canonicalize_joinAll_of_linkFree hfree hne hnames hnul, and_iff_right hnul]
    constructor
    · intro h
      cases hbase : host.realBase base with
      | error e =>
          rw [hbase] at h
          cases h
      | ok f =>
          rw [hbase, Except.bind] at h
          cases hdescend : f.entry.descendWithin (maxPathBytes - placeBytes f.place) names with
          | error e =>
              rw [hdescend] at h
              cases h
          | ok e =>
              rw [hdescend] at h
              cases h
              obtain ⟨hat, hfits⟩ := Entry.descendWithin_eq_ok_iff.mp hdescend
              exact ⟨f, rfl, hat, (fitsBelow_iff hne f.place).mpr hfits, rfl⟩
    · rintro ⟨f, hbase, hat, hfits, hplace⟩
      have hdescend := Entry.descendWithin_eq_ok_iff.mpr ⟨hat, (fitsBelow_iff hne f.place).mp hfits⟩
      rw [hbase, Except.bind, hdescend, Except.map, ← hplace]
  · rw [canonicalize_joinAll_of_nul hne hnames hnul]
    exact iff_of_false (by simp) fun h => hnul h.1

theorem canonicalize_joinAll_eq_notFound_iff (hfree : host.IsLinkFreeAt base) (hne : names ≠ [])
    (hnames : ∀ n ∈ names, IsSegment n) :
    host.canonicalize (Location.joinAll base names) = .error .notFound ↔
      (∀ n ∈ names, '\x00' ∉ n.toList) ∧ host.LacksBelow base names := by
  by_cases hnul : ∀ n ∈ names, '\x00' ∉ n.toList
  · rw [canonicalize_joinAll_of_linkFree hfree hne hnames hnul, and_iff_right hnul, LacksBelow]
    cases hbase : host.realBase base with
    | error e => simp [Except.bind]
    | ok f =>
        have hmap : ((f.entry.descendWithin (maxPathBytes - placeBytes f.place) names).map
            fun e => (⟨f.place ++ names, e⟩ : Found)) = .error .notFound ↔
              f.entry.descendWithin (maxPathBytes - placeBytes f.place) names =
                .error .notFound := by
          cases f.entry.descendWithin (maxPathBytes - placeBytes f.place) names <;>
            simp [Except.map]
        have hroom (above : List String) (hlacks : f.entry.Lacks above) :
            placeBytes above ≤ maxPathBytes - placeBytes f.place ↔
              placeBytes (f.place ++ above) ≤ maxPathBytes := by
          obtain ⟨front, name, behind, _, rfl, _⟩ := hlacks
          simp only [placeBytes_append, placeBytes_cons]
          omega
        rw [Except.bind, hmap, Entry.descendWithin_eq_notFound_iff]
        constructor
        · rintro ⟨above, hprefix, hbytes, hlacks⟩
          exact .inr ⟨f, above, rfl, hprefix, (hroom above hlacks).mp hbytes, hlacks⟩
        · rintro (hmissing | ⟨g, above, hg, hprefix, hbytes, hlacks⟩)
          · cases hmissing
          · obtain rfl := Except.ok.inj hg
            exact ⟨above, hprefix, (hroom above hlacks).mpr hbytes, hlacks⟩
  · rw [canonicalize_joinAll_of_nul hne hnames hnul]
    exact iff_of_false (by simp) fun h => hnul h.1

/-- What keeps some names from being reached keeps all that is behind them from it. -/
theorem canonicalize_joinAll_append_of_error {more : List String} {e : HostError}
    (hfree : host.IsLinkFreeAt base) (hne : names ≠ [])
    (hnames : ∀ n ∈ names ++ more, IsSegment n) (hnul : ∀ n ∈ names ++ more, '\x00' ∉ n.toList)
    (h : host.canonicalize (Location.joinAll base names) = .error e) :
    host.canonicalize (Location.joinAll base (names ++ more)) = .error e := by
  obtain ⟨hfront, _⟩ := List.forall_mem_append.mp hnames
  obtain ⟨hfrontnul, _⟩ := List.forall_mem_append.mp hnul
  have hboth : names ++ more ≠ [] := List.append_ne_nil_of_left_ne_nil hne more
  rw [canonicalize_joinAll_of_linkFree hfree hne hfront hfrontnul] at h
  rw [canonicalize_joinAll_of_linkFree hfree hboth hnames hnul]
  cases hbase : host.realBase base with
  | error cause =>
      rw [hbase] at h
      exact h
  | ok f =>
      rw [hbase, Except.bind] at h
      cases hdescend : f.entry.descendWithin (maxPathBytes - placeBytes f.place) names with
      | error cause =>
          rw [hdescend] at h
          rw [Except.bind, Entry.descendWithin_append_of_error hdescend]
          exact h
      | ok d =>
          rw [hdescend] at h
          cases h

/-! ## Beside a lookup -/

theorem eq_startTrail_of_realStart (h : host.realStart path = .ok trail) :
    trail = startTrail host path := by
  rw [realStart] at h
  rw [startTrail]
  by_cases habs : Location.isAbsolute path = true
  · rw [if_pos habs] at h ⊢
    exact (Except.ok.inj h).symm
  · rw [if_neg habs] at h ⊢
    split at h
    · exact (Except.ok.inj h).symm
    · cases h

/-- What a lookup leads to a real path leads to as well, unless it is too long. -/
theorem canonicalize_of_resolve (hstart : host.realStart path = .ok trail)
    (h : host.resolve path = .ok f) :
    host.canonicalize path = .ok f ∨ host.canonicalize path = .error .nameTooLong := by
  obtain ⟨hnul, hne, _, links, way, hadv, _, rfl⟩ := resolve_ok h
  rw [canonicalize_eq, if_neg hnul, if_neg hne, hstart, eq_startTrail_of_realStart hstart,
    Except.bind, followReal_eq]
  rcases through_of_advance (fun _ => ne_nil_of_asksFolder) hadv with hway | hway
  · exact .inl (by rw [hway]; rfl)
  · exact .inr (by rw [hway]; rfl)

theorem eq_of_canonicalize_of_resolve {g : Found} (h : host.resolve path = .ok f)
    (hreal : host.canonicalize path = .ok g) : g = f := by
  obtain ⟨_, _, trail, _, _, hstart, _⟩ := canonicalize_ok hreal
  rcases canonicalize_of_resolve hstart h with hsame | hlong
  · exact Except.ok.inj (hreal.symm.trans hsame)
  · rw [hlong] at hreal
    cases hreal

/-- With a working folder, what a lookup leads to has a real path unless it is too long. -/
theorem eq_nameTooLong_of_canonicalize {e : HostError} (hworking : host.HasWorkingFolder)
    (h : host.resolve path = .ok f) (hreal : host.canonicalize path = .error e) :
    e = .nameTooLong := by
  rcases canonicalize_of_resolve (realStart_of_working hworking path) h with hsame | hlong
  · rw [hsame] at hreal
    cases hreal
  · exact Except.error.inj (hreal.symm.trans hlong)

theorem realBase_of_resolve (hworking : host.HasWorkingFolder) (h : host.resolve base = .ok f) :
    host.realBase base = .ok f ∨ host.realBase base = .error .nameTooLong := by
  obtain ⟨hnul, hne, _, links, way, hadv, _, rfl⟩ := resolve_ok h
  rw [realBase, realWay, if_neg hnul, realStart_of_working hworking, Except.bind]
  rcases through_of_advance (fun _ hasks => ne_nil_of_asksFolder (asksFolder_of_asksParent hasks))
    hadv with hway | hway
  · exact .inl (by rw [hway]; rfl)
  · exact .inr (by rw [hway]; rfl)

/-- On a host that was added to, a directory has the same real place, or still none. -/
theorem place_realBase_of_keeps (h : host.root.Keeps host'.root)
    (hworking : host.HasWorkingFolder) (hworking' : host'.HasWorkingFolder)
    (hsame : host'.workingFolder = host.workingFolder) (hres : host.resolve base = .ok f) :
    (host'.realBase base).map Found.place = (host.realBase base).map Found.place := by
  obtain ⟨hnul, _, _, links, way, hadv, _, rfl⟩ := resolve_ok hres
  obtain ⟨hstart, hstart', hnames⟩ := startTrail_of_keeps h hworking hsame base
  have hplaces := names_through_of_keeps asksParent h hstart hstart' hnames hadv
  have hplace (other : Host) (hother : other.HasWorkingFolder) :
      (other.realBase base).map Found.place =
        (through asksParent other.root maxLinks (startTrail other base)
          (fields Location.isSlash base)).map fun s => Trail.names s.2 := by
    rw [realBase, realWay, if_neg hnul, realStart_of_working hother, Except.bind]
    cases through asksParent other.root maxLinks (startTrail other base)
      (fields Location.isSlash base) <;> rfl
  rw [hplace host' hworking', hplace host hworking, hplaces]

end ImportAtlas.Host
