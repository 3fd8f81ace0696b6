import ImportAtlas.Host.Lookup
import ImportAtlas.Proofs.Host.Location

/-!
# Looking up joined paths

A lookup goes through the parts of a path one after another, so a joined path is looked up from
where its base leads to. What is found stands in the tree at the place that is given for it, and
below a folder a path of names that meets no link leads straight down.
-/

namespace ImportAtlas.Host

open Text

variable {root : Entry} {links : Nat} {trail : Trail} {parts : List String}

def Trail.names (trail : Trail) : List String := (trail.map (·.1)).reverse

@[simp] theorem Trail.names_nil : Trail.names [] = [] := rfl

@[simp] theorem Trail.names_cons (x : String × Entry) (trail : Trail) :
    Trail.names (x :: trail) = Trail.names trail ++ [x.1] := by simp [Trail.names]

theorem found_eq (root : Entry) (trail : Trail) :
    found root trail = ⟨Trail.names trail, current root trail⟩ := rfl

inductive IsTrail (root : Entry) : Trail → Prop
  | nil : IsTrail root []
  | cons {trail : Trail} {name : String} {e : Entry} (h : IsTrail root trail)
      (child : (current root trail).child? name = some e) : IsTrail root ((name, e) :: trail)

namespace IsTrail

theorem at?_names (h : IsTrail root trail) :
    root.at? (Trail.names trail) = some (current root trail) := by
  induction h with
  | nil => simp [current]
  | @cons trail name e _ child ih =>
      rw [Trail.names_cons, Entry.at?_append, ih, Option.bind_some, Entry.at?_cons, child]
      simp [current]

theorem tail (h : IsTrail root trail) : IsTrail root trail.tail := by
  cases h with
  | nil => exact .nil
  | cons h _ => exact h

end IsTrail

theorem isTrail_trailTo (place : List String) (h : IsTrail root trail) :
    IsTrail root (trailTo root place trail) := by
  induction place generalizing trail with
  | nil => exact h
  | cons name rest ih =>
      rw [trailTo]
      split
      next e he => exact ih (.cons h he)
      next => exact h

theorem advance_append (root : Entry) (links : Nat) (trail : Trail) (parts more : List String) :
    advance root links trail (parts ++ more) =
      (advance root links trail parts).bind fun s => advance root s.1 s.2 more := by
  fun_induction advance root links trail parts
  case case1 => rfl
  all_goals rw [List.cons_append, advance]
  all_goals simp_all [Except.bind, List.append_assoc]

/-- Whether a link in last place is followed matters for the last part only. -/
theorem follow_append (root : Entry) (followLast : Bool) (links : Nat) (trail : Trail)
    (parts : List String) {more : List String} (hmore : more ≠ []) :
    follow root followLast links trail (parts ++ more) =
      (advance root links trail parts).bind fun s => follow root followLast s.1 s.2 more := by
  fun_induction advance root links trail parts
  case case1 => rfl
  all_goals rw [List.cons_append, follow]
  all_goals simp_all [Except.bind, List.append_assoc]

theorem isTrail_advance {links' : Nat} {trail' : Trail} (h : IsTrail root trail)
    (hadv : advance root links trail parts = .ok (links', trail')) : IsTrail root trail' := by
  fun_induction advance root links trail parts generalizing links' trail'
  case case1 =>
    cases hadv
    exact h
  case case3 ih => exact ih h hadv
  case case4 ih => exact ih h.tail hadv
  case case8 ih =>
    refine ih ?_ hadv
    split
    · exact .nil
    · exact h
  case case9 hchild ih => exact ih (.cons h hchild) hadv
  all_goals cases hadv

/-- A link in last place makes the only difference between following all links and leaving a last
one as it is. -/
theorem follow_false_of_true {f : Found} (h : follow root true links trail parts = .ok f) :
    follow root false links trail parts = .ok f ∨
      ∃ place target, follow root false links trail parts = .ok ⟨place, .link target⟩ := by
  fun_induction follow root true links trail parts
  case case1 =>
    rw [follow]
    exact Or.inl h
  case case3 ih =>
    rw [follow]
    simp_all
  case case4 ih =>
    rw [follow]
    simp_all
  case case7 hlast => simp at hlast
  case case9 trail part rest hfolder hplain hparent hshort target hchild hlast links ih =>
    rw [follow]
    simp only [hfolder, hplain, hparent, hshort, hchild, Bool.false_eq_true, if_false]
    split
    · exact Or.inr ⟨_, target, rfl⟩
    · exact ih h
  case case10 hfolder hplain hparent hshort e hlink hchild ih =>
    rw [follow]
    simp only [hfolder, hplain, hparent, hshort, Bool.false_eq_true, if_false]
    simpa only [hchild] using ih h
  all_goals cases h

/-! ## Going down by names -/

/-- One name, as far as it is short enough, leads from a folder to the entry of that name. -/
theorem advance_cons_name {name : String} {e : Entry} (hname : IsSegment name)
    (hchild : (current root trail).child? name = some e) (he : ∀ target, e ≠ .link target) :
    advance root links trail (name :: parts) =
      if name.utf8ByteSize > maxNameBytes then .error .nameTooLong
      else advance root links ((name, e) :: trail) parts := by
  obtain ⟨es, hes, _⟩ := Entry.child?_eq_some_iff.mp hchild
  have hfolder : (current root trail).isFolder = true := by rw [hes, Entry.isFolder]
  rw [advance]
  simp only [hfolder, Bool.not_true, Bool.false_eq_true, if_false, hname.ne_empty, hname.ne_current,
    hname.ne_parent, beq_iff_eq, Bool.or_eq_true, or_self, hchild]

/-- A link leads on through the parts of its target. -/
theorem advance_cons_link {name target : String} (hname : IsSegment name)
    (hchild : (current root trail).child? name = some (.link target)) :
    advance root (links + 1) trail (name :: parts) =
      if name.utf8ByteSize > maxNameBytes then .error .nameTooLong
      else advance root links (if Location.isAbsolute target then [] else trail)
        (fields Location.isSlash target ++ parts) := by
  obtain ⟨es, hes, _⟩ := Entry.child?_eq_some_iff.mp hchild
  have hfolder : (current root trail).isFolder = true := by rw [hes, Entry.isFolder]
  rw [advance]
  simp only [hfolder, Bool.not_true, Bool.false_eq_true, if_false, hname.ne_empty, hname.ne_current,
    hname.ne_parent, beq_iff_eq, Bool.or_eq_true, or_self, hchild]

theorem not_link_of_at? {d e : Entry} {place : List String} (h : d.at? place = some e)
    (he : ∀ target, e ≠ .link target) : ∀ target, d ≠ .link target := by
  rintro target rfl
  cases place with
  | nil => exact he target (Option.some.inj (by rw [← h, Entry.at?_nil]))
  | cons name rest => simp [Entry.at?_cons, Entry.child?, Entry.entries] at h

/-- Names that meet no link lead straight down, as far as the host takes names of their length. -/
theorem advance_names {names : List String} {e : Entry} (hnames : ∀ n ∈ names, IsSegment n)
    (hat : (current root trail).at? names = some e) (he : ∀ target, e ≠ .link target) :
    (advance root links trail names).map (fun s => found root s.2) =
      if ∀ n ∈ names, n.utf8ByteSize ≤ maxNameBytes then .ok ⟨Trail.names trail ++ names, e⟩
      else .error .nameTooLong := by
  induction names generalizing trail with
  | nil =>
      rw [Entry.at?_nil, Option.some.injEq] at hat
      rw [advance, if_pos (by simp), Except.map, found_eq, hat, List.append_nil]
  | cons name rest ih =>
      rw [Entry.at?_cons, Option.bind_eq_some_iff] at hat
      obtain ⟨d, hchild, hrest⟩ := hat
      rw [List.forall_mem_cons] at hnames
      rw [advance_cons_name hnames.1 hchild (not_link_of_at? hrest he)]
      by_cases hlong : name.utf8ByteSize > maxNameBytes
      · rw [if_pos hlong, if_neg fun hall => absurd (hall name List.mem_cons_self) (by omega)]
        rfl
      · have hcons : (∀ n ∈ name :: rest, n.utf8ByteSize ≤ maxNameBytes) ↔
            ∀ n ∈ rest, n.utf8ByteSize ≤ maxNameBytes := by
          rw [List.forall_mem_cons]
          exact and_iff_right (by omega)
        have hrest' : (current root ((name, d) :: trail)).at? rest = some e := hrest
        rw [if_neg hlong, ih hnames.2 hrest']
        simp only [hcons, Trail.names_cons, List.append_assoc, List.singleton_append]

theorem at?_of_advance {names : List String} {links' : Nat} {way : Trail}
    (hnames : ∀ n ∈ names, IsSegment n) (hfree : (current root trail).LinkFree)
    (hadv : advance root links trail names = .ok (links', way)) :
    (current root trail).at? names = some (current root way) ∧
      Trail.names way = Trail.names trail ++ names := by
  induction names generalizing trail with
  | nil =>
      rw [advance] at hadv
      cases hadv
      simp
  | cons name rest ih =>
      have hname : IsSegment name := hnames name List.mem_cons_self
      have hplain : ∀ n ∈ rest, IsSegment n := fun n hn => hnames n (List.mem_cons_of_mem name hn)
      cases hchild : (current root trail).child? name with
      | none =>
          rw [advance, hchild] at hadv
          simp [hname.ne_empty, hname.ne_current, hname.ne_parent] at hadv
          split at hadv <;> [cases hadv; (split at hadv <;> cases hadv)]
      | some d =>
          have hname_at : (current root trail).at? [name] = some d := by
            simp [Entry.at?_cons, hchild]
          have hd : (current root ((name, d) :: trail)).LinkFree := hfree.of_at? hname_at
          have hlink : ∀ target, d ≠ .link target := by
            rintro target rfl
            rw [current] at hd
            cases hd
          rw [advance_cons_name hname hchild hlink] at hadv
          split at hadv
          · cases hadv
          · obtain ⟨hat, hway⟩ := ih hplain hd hadv
            refine ⟨?_, by simpa using hway⟩
            rw [Entry.at?_cons, hchild, Option.bind_some]
            exact hat

/-! ## From the base on -/

variable {host : Host} {base : String} {names : List String} {f g : Found}

def startTrail (host : Host) (path : String) : Trail :=
  if Location.isAbsolute path then [] else trailTo host.root host.workingFolder []

theorem isTrail_startTrail (host : Host) (path : String) :
    IsTrail host.root (startTrail host path) := by
  rw [startTrail]
  split
  · exact .nil
  · exact isTrail_trailTo _ .nil

theorem lookup_eq (host : Host) (followLast : Bool) (path : String) :
    host.lookup followLast path =
      if '\x00' ∈ path.toList then .error .nulByte
      else if path = "" then .error .notFound
      else if path.utf8ByteSize > maxPathBytes then .error .nameTooLong
      else follow host.root followLast maxLinks (startTrail host path)
        (fields Location.isSlash path) := by
  simp only [lookup, String.contains_char_eq, decide_eq_true_eq, String.isEmpty_iff, startTrail]

theorem resolve_eq (host : Host) (path : String) :
    host.resolve path =
      if '\x00' ∈ path.toList then .error .nulByte
      else if path = "" then .error .notFound
      else if path.utf8ByteSize > maxPathBytes then .error .nameTooLong
      else (advance host.root maxLinks (startTrail host path) (fields Location.isSlash path)).map
        fun s => found host.root s.2 := by
  rw [resolve, lookup_eq, follow_true]

theorem resolve_ok (h : host.resolve base = .ok f) :
    '\x00' ∉ base.toList ∧ base ≠ "" ∧ base.utf8ByteSize ≤ maxPathBytes ∧ ∃ links way,
      advance host.root maxLinks (startTrail host base) (fields Location.isSlash base) =
        .ok (links, way) ∧ IsTrail host.root way ∧ f = found host.root way := by
  rw [resolve_eq] at h
  split at h
  · cases h
  split at h
  · cases h
  split at h
  · cases h
  cases hadv : advance host.root maxLinks (startTrail host base) (fields Location.isSlash base) with
  | error e =>
      rw [hadv] at h
      cases h
  | ok s =>
      rw [hadv] at h
      refine ⟨‹_›, ‹_›, Nat.le_of_not_gt ‹_›, s.1, s.2, rfl,
        isTrail_advance (isTrail_startTrail host base) hadv, ?_⟩
      simpa [Except.map] using h.symm

theorem lookup_false_of_resolve {path : String} (h : host.resolve path = .ok f) :
    host.lookup false path = .ok f ∨
      ∃ place target, host.lookup false path = .ok ⟨place, .link target⟩ := by
  rw [resolve, lookup] at h
  rw [lookup]
  split at h
  · cases h
  split at h
  · cases h
  split at h
  · cases h
  · simp only [*, Bool.false_eq_true, if_false]
    exact follow_false_of_true h

theorem isFolder_iff {path : String} :
    host.isFolder path = true ↔ ∃ place es, host.resolve path = .ok ⟨place, .folder es⟩ := by
  rw [isFolder]
  cases hres : host.resolve path with
  | error e => simp
  | ok f =>
      obtain ⟨place, e⟩ := f
      cases e <;> simp [Entry.isFolder]

theorem at?_of_resolve (h : host.resolve base = .ok f) : host.root.at? f.place = some f.entry := by
  obtain ⟨_, _, _, _, way, _, htrail, rfl⟩ := resolve_ok h
  exact htrail.at?_names

/-- A closing slash asks for a folder and nothing else. -/
theorem advance_front {front close : List String} {links' : Nat} {way : Trail}
    (hclose : close = [] ∨ close = [""])
    (hadv : advance root links trail (front ++ close) = .ok (links', way)) :
    advance root links trail front = .ok (links', way) := by
  rcases hclose with rfl | rfl
  · rwa [List.append_nil] at hadv
  · rw [advance_append] at hadv
    cases hfront : advance root links trail front with
    | error e =>
        rw [hfront] at hadv
        cases hadv
    | ok s =>
        rw [hfront, Except.bind, advance] at hadv
        split at hadv
        · cases hadv
        · simp only [beq_self_eq_true, Bool.true_or, if_true, advance] at hadv
          exact hadv

/-- Names joined to the path of a folder are looked up from that folder on, if the whole path is
short enough. -/
theorem lookup_joinAll (h : host.resolve base = .ok f) (hne : names ≠ [])
    (hnames : ∀ n ∈ names, IsSegment n) (followLast : Bool) :
    ∃ links way, f = found host.root way ∧
      host.lookup followLast (Location.joinAll base names) =
        if ∃ n ∈ names, '\x00' ∈ n.toList then .error .nulByte
        else if (Location.joinAll base names).utf8ByteSize > maxPathBytes then .error .nameTooLong
        else follow host.root followLast links way names := by
  obtain ⟨hnul, hbase, _, links, way, hadv, _, rfl⟩ := resolve_ok h
  have hrel : Location.isAbsolute (joinFields '/' names) = false :=
    Location.isAbsolute_joinFields hne hnames
  obtain ⟨front, close, hfields, hclose, hjoined⟩ := Location.fields_join hbase hrel
  rw [hfields] at hadv
  have hpath : Location.joinAll base names = Location.join base (joinFields '/' names) :=
    Location.joinAll_eq_join hbase hne hnames
  have hempty : Location.joinAll base names ≠ "" := Location.joinAll_ne_empty hbase hnames
  have hstart : startTrail host (Location.joinAll base names) = startTrail host base := by
    rw [startTrail, hpath, Location.isAbsolute_join hbase hrel, startTrail]
  have hchars : '\x00' ∈ (Location.joinAll base names).toList ↔ ∃ n ∈ names, '\x00' ∈ n.toList := by
    rw [Location.mem_toList_joinAll (by decide) hnames, or_iff_right hnul]
  refine ⟨links, way, rfl, ?_⟩
  rw [lookup_eq, if_neg hempty, hstart]
  simp only [hchars]
  rw [hpath, hjoined, Location.fields_joinFields_segments hne hnames,
    follow_append _ _ _ _ _ hne, advance_front hclose hadv]
  rfl

theorem resolve_joinAll (h : host.resolve base = .ok f) (hne : names ≠ [])
    (hnames : ∀ n ∈ names, IsSegment n) :
    ∃ links way, f = found host.root way ∧
      host.resolve (Location.joinAll base names) =
        if ∃ n ∈ names, '\x00' ∈ n.toList then .error .nulByte
        else if (Location.joinAll base names).utf8ByteSize > maxPathBytes then .error .nameTooLong
        else (advance host.root links way names).map fun s => found host.root s.2 := by
  obtain ⟨links, way, hf, hlookup⟩ := lookup_joinAll h hne hnames true
  refine ⟨links, way, hf, ?_⟩
  rw [resolve, hlookup, follow_true]

/-- Whether a host takes a path of these names: neither the path nor a name may be too long. -/
def Fits (path : String) (names : List String) : Prop :=
  path.utf8ByteSize ≤ maxPathBytes ∧ ∀ n ∈ names, n.utf8ByteSize ≤ maxNameBytes

instance (path : String) (names : List String) : Decidable (Fits path names) :=
  inferInstanceAs (Decidable (_ ∧ _))

/-- Below a folder, names that meet no link lead to what stands at them, unless the path or one of
the names is too long for the host. -/
theorem resolve_joinAll_at {e : Entry} (h : host.resolve base = .ok f)
    (hnames : ∀ n ∈ names, IsEntryName n) (hat : f.entry.at? names = some e)
    (he : ∀ target, e ≠ .link target) :
    host.resolve (Location.joinAll base names) =
      if Fits (Location.joinAll base names) names then .ok ⟨f.place ++ names, e⟩
      else .error .nameTooLong := by
  by_cases hne : names = []
  · subst hne
    rw [Entry.at?_nil, Option.some.injEq] at hat
    obtain ⟨_, _, hsize, _⟩ := resolve_ok h
    rw [Location.joinAll_nil, if_pos ⟨hsize, by simp⟩, h, ← hat, List.append_nil]
  · have hsegs : ∀ n ∈ names, IsSegment n := fun n hn => (hnames n hn).toIsSegment
    have hnul : ¬ ∃ n ∈ names, '\x00' ∈ n.toList := fun ⟨n, hn, hc⟩ => (hnames n hn).no_nul hc
    obtain ⟨links, way, rfl, hres⟩ := resolve_joinAll h hne hsegs
    rw [hres, if_neg hnul, advance_names hsegs hat he]
    by_cases hsize : (Location.joinAll base names).utf8ByteSize ≤ maxPathBytes
    · simp only [Fits, hsize, true_and, gt_iff_lt, Nat.not_lt.mpr hsize, if_false]
      rfl
    · rw [if_pos (Nat.lt_of_not_le hsize), if_neg fun hfits => hsize hfits.1]

theorem readBytes_joinAll_at {c : ByteArray} (h : host.resolve base = .ok f)
    (hnames : ∀ n ∈ names, IsEntryName n) (hat : f.entry.at? names = some (.file c))
    (hfits : Fits (Location.joinAll base names) names) :
    host.readBytes (Location.joinAll base names) = .ok c := by
  rw [readBytes, resolve_joinAll_at h hnames hat (by simp), if_pos hfits]
  rfl

theorem at?_of_resolve_joinAll (h : host.resolve base = .ok f) (hfree : f.entry.LinkFree)
    (hnames : ∀ n ∈ names, IsSegment n) (hg : host.resolve (Location.joinAll base names) = .ok g) :
    f.entry.at? names = some g.entry ∧ g.place = f.place ++ names := by
  by_cases hne : names = []
  · subst hne
    rw [Location.joinAll_nil, h, Except.ok.injEq] at hg
    simp [hg]
  · obtain ⟨links, way, rfl, hres⟩ := resolve_joinAll h hne hnames
    rw [hres] at hg
    split at hg
    · cases hg
    split at hg
    · cases hg
    cases hadv : advance host.root links way names with
    | error e =>
        rw [hadv] at hg
        cases hg
    | ok s =>
        rw [hadv] at hg
        cases hg
        exact at?_of_advance hnames hfree hadv

theorem decodeText_toUTF8 (s : String) : decodeText s.toUTF8 = .ok s := by
  rw [decodeText, String.toUTF8, String.fromUTF8?, dif_pos s.isValidUTF8]
  rfl

theorem readText_of_readBytes {path s : String} (h : host.readBytes path = .ok s.toUTF8) :
    host.readText path = .ok s := by
  rw [readText, h]
  exact decodeText_toUTF8 s

end ImportAtlas.Host
