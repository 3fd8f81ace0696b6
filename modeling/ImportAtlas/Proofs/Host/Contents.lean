import ImportAtlas.Host.Canonical
import ImportAtlas.Proofs.Host.Lookup

/-!
# Other bytes in the same tree

A tree whose files get other bytes keeps its shape: each path leads to the same place as before, and
to the same entry but for the bytes. So a lookup never depends on what files hold.
-/

namespace ImportAtlas.Host

open Text

variable (change : List String → ByteArray → ByteArray)

namespace Entry

mutual

/-- The tree at a place with other bytes in its files: `change` says which, for each place and what
the file there held. -/
def rewrite (place : List String) : Entry → Entry
  | file content => file (change place content)
  | link target => link target
  | folder es => folder (rewriteAll place es)

def rewriteAll (place : List String) : List (String × Entry) → List (String × Entry)
  | [] => []
  | (name, e) :: rest => (name, rewrite (place ++ [name]) e) :: rewriteAll place rest

end

variable {change} {place : List String} {e : Entry} {es : List (String × Entry)} {name : String}

@[simp] theorem rewrite_file (place : List String) (content : ByteArray) :
    (file content).rewrite change place = .file (change place content) := by rw [rewrite]

@[simp] theorem rewrite_link (place : List String) (target : String) :
    (link target).rewrite change place = .link target := by rw [rewrite]

theorem rewriteAll_eq_map (place : List String) (es : List (String × Entry)) :
    rewriteAll change place es = es.map fun x => (x.1, x.2.rewrite change (place ++ [x.1])) := by
  induction es with
  | nil => rw [rewriteAll, List.map_nil]
  | cons x rest ih => rw [rewriteAll, ih, List.map_cons]

theorem rewrite_folder (place : List String) (es : List (String × Entry)) :
    (folder es).rewrite change place =
      .folder (es.map fun x => (x.1, x.2.rewrite change (place ++ [x.1]))) := by
  rw [rewrite, rewriteAll_eq_map]

@[simp] theorem isFolder_rewrite (e : Entry) (place : List String) :
    (e.rewrite change place).isFolder = e.isFolder := by
  cases e with
  | file c => simp [isFolder]
  | link t => rw [rewrite_link]
  | folder es => rw [rewrite_folder, isFolder, isFolder]

theorem find?_rewrite (place : List String) (es : List (String × Entry)) (name : String) :
    find? name (es.map fun x => (x.1, x.2.rewrite change (place ++ [x.1]))) =
      (find? name es).map (rewrite change (place ++ [name])) := by
  induction es with
  | nil => rfl
  | cons x rest ih =>
      obtain ⟨n, e⟩ := x
      rw [List.map_cons, find?, find?]
      by_cases hn : n = name
      · simp [hn]
      · simpa [hn] using ih

theorem entries_rewrite (e : Entry) (place : List String) :
    (e.rewrite change place).entries =
      e.entries.map fun x => (x.1, x.2.rewrite change (place ++ [x.1])) := by
  cases e with
  | file c => rw [rewrite_file]; rfl
  | link t => rw [rewrite_link]; rfl
  | folder es => rw [rewrite_folder]; rfl

theorem child?_rewrite (e : Entry) (place : List String) (name : String) :
    (e.rewrite change place).child? name =
      (e.child? name).map (rewrite change (place ++ [name])) := by
  rw [child?, entries_rewrite, find?_rewrite, child?]

theorem at?_rewrite (e : Entry) (place names : List String) :
    (e.rewrite change place).at? names = (e.at? names).map (rewrite change (place ++ names)) := by
  induction names generalizing e place with
  | nil => rw [at?_nil, at?_nil, Option.map_some, List.append_nil]
  | cons name rest ih =>
      rw [at?_cons, at?_cons, child?_rewrite]
      cases e.child? name with
      | none => rfl
      | some d =>
          rw [Option.map_some, Option.bind_some, Option.bind_some, ih, List.append_assoc,
            List.singleton_append]

theorem count_rewrite (e : Entry) (place : List String) :
    (e.rewrite change place).count = e.count := by
  induction e using induction_on generalizing place with
  | file c => rw [rewrite_file, count, count]
  | link t => rw [rewrite_link]
  | folder es ih =>
      rw [rewrite_folder, count, count]
      congr 1
      induction es with
      | nil => rfl
      | cons x rest ihrest =>
          rw [List.forall_mem_cons] at ih
          rw [List.map_cons, countAll, countAll, ih.1, ihrest ih.2]

end Entry

/-- What was found, in the tree with other bytes. -/
def Found.rewrite (f : Found) : Found := ⟨f.place, f.entry.rewrite change f.place⟩

def Trail.rewrite : Trail → Trail
  | [] => []
  | (name, e) :: rest => (name, e.rewrite change (Trail.names rest ++ [name])) :: Trail.rewrite rest

def rewrite (host : Host) : Host := { host with root := host.root.rewrite change [] }

variable {change} {root : Entry} {host : Host}

@[simp] theorem Trail.names_rewrite (trail : Trail) :
    Trail.names (Trail.rewrite change trail) = Trail.names trail := by
  induction trail with
  | nil => rfl
  | cons x rest ih => rw [Trail.rewrite, Trail.names_cons, Trail.names_cons, ih]

theorem Trail.tail_rewrite (trail : Trail) :
    (Trail.rewrite change trail).tail = Trail.rewrite change trail.tail := by
  cases trail with
  | nil => rfl
  | cons x rest => rfl

theorem current_rewrite (root : Entry) (trail : Trail) :
    current (root.rewrite change []) (Trail.rewrite change trail) =
      (current root trail).rewrite change (Trail.names trail) := by
  cases trail with
  | nil => rfl
  | cons x rest => rw [Trail.rewrite, current, current, Trail.names_cons]

theorem child?_current_rewrite (root : Entry) (trail : Trail) (name : String) :
    (current (root.rewrite change []) (Trail.rewrite change trail)).child? name =
      ((current root trail).child? name).map
        (Entry.rewrite change (Trail.names trail ++ [name])) := by
  rw [current_rewrite, Entry.child?_rewrite]

theorem found_rewrite (root : Entry) (trail : Trail) :
    found (root.rewrite change []) (Trail.rewrite change trail) =
      (found root trail).rewrite change := by
  rw [found_eq, found_eq, Trail.names_rewrite, current_rewrite, Found.rewrite]

theorem trailTo_rewrite (root : Entry) (place : List String) (trail : Trail) :
    trailTo (root.rewrite change []) place (Trail.rewrite change trail) =
      Trail.rewrite change (trailTo root place trail) := by
  induction place generalizing trail with
  | nil => rfl
  | cons name rest ih =>
      rw [trailTo, trailTo, child?_current_rewrite]
      cases (current root trail).child? name with
      | none => rfl
      | some e => exact ih ((name, e) :: trail)

theorem isFolder_current_rewrite (root : Entry) (trail : Trail) :
    (current (root.rewrite change []) (Trail.rewrite change trail)).isFolder =
      (current root trail).isFolder := by
  rw [current_rewrite, Entry.isFolder_rewrite]

theorem Trail.rewrite_cons (name : String) (e : Entry) (trail : Trail) :
    Trail.rewrite change ((name, e) :: trail) =
      (name, e.rewrite change (Trail.names trail ++ [name])) :: Trail.rewrite change trail := rfl

/-- The way through a path is the same whatever bytes the files on it hold. -/
theorem follow_rewrite (root : Entry) (followLast : Bool) (links : Nat) (trail : Trail)
    (parts : List String) :
    follow (root.rewrite change []) followLast links (Trail.rewrite change trail) parts =
      (follow root followLast links trail parts).map (Found.rewrite change) := by
  fun_induction follow root followLast links trail parts
  case case1 =>
    rw [follow, found_rewrite]
    rfl
  all_goals
    rw [follow]
    simp only [isFolder_current_rewrite, child?_current_rewrite, Option.map_none, Option.map_some,
      Entry.rewrite_link, *, Bool.false_eq_true, if_true, if_false]
  case case4 ih => rw [Trail.tail_rewrite, ih]
  case case7 trail part rest _ _ _ _ target _ _ =>
    rw [Except.map, ← found_rewrite, Trail.rewrite_cons, Entry.rewrite_link]
  case case9 trail part rest _ _ _ _ target _ _ links ih =>
    simp only [dite_eq_ite] at ih
    rw [← ih]
    split
    · rfl
    · rfl
  case case10 trail part rest _ _ _ _ e hlink _ ih =>
    rw [Trail.rewrite_cons] at ih
    rw [← ih]
    cases e with
    | file c => rw [Entry.rewrite_file]
    | link target => exact absurd rfl (hlink target)
    | folder es => rw [Entry.rewrite_folder]
  all_goals rfl

/-- A lookup leads to the same place, and to the same entry but for the bytes. -/
theorem lookup_rewrite (host : Host) (followLast : Bool) (path : String) :
    (host.rewrite change).lookup followLast path =
      (host.lookup followLast path).map (Found.rewrite change) := by
  have hstart : (if Location.isAbsolute path then []
        else trailTo (host.root.rewrite change []) host.workingFolder []) =
      Trail.rewrite change
        (if Location.isAbsolute path then [] else trailTo host.root host.workingFolder []) := by
    split
    · rfl
    · exact trailTo_rewrite host.root host.workingFolder []
  rw [lookup, lookup, rewrite, hstart, follow_rewrite]
  repeat' split
  all_goals rfl

theorem resolve_rewrite (host : Host) (path : String) :
    (host.rewrite change).resolve path = (host.resolve path).map (Found.rewrite change) :=
  lookup_rewrite host true path

theorem Trail.map_rewrite (trail : Trail) :
    (Trail.rewrite change trail).map (·.1) = trail.map (·.1) := by
  induction trail with
  | nil => rfl
  | cons x rest ih => rw [Trail.rewrite, List.map_cons, List.map_cons, ih]

theorem probe_rewrite (root : Entry) (trail : Trail) (name : String) (more : Nat) :
    probe (root.rewrite change []) (Trail.rewrite change trail) name more =
      (probe root trail name more).map (Entry.rewrite change (Trail.names trail ++ [name])) := by
  rw [probe, probe, Trail.map_rewrite, isFolder_current_rewrite, child?_current_rewrite]
  split
  · rfl
  split
  · rfl
  split
  · rfl
  cases (current root trail).child? name <;> rfl

theorem folderAt_rewrite (root : Entry) (trail : Trail) (name : String) :
    folderAt (root.rewrite change []) (Trail.rewrite change trail) name =
      (folderAt root trail name).map (Entry.rewrite change (Trail.names trail ++ [name])) := by
  rw [folderAt, folderAt, probe_rewrite]
  cases probe root trail name 1 with
  | error e => rfl
  | ok e =>
      simp only [Except.map, Entry.isFolder_rewrite]
      cases e.isFolder <;> rfl

theorem entryAt_rewrite (root : Entry) (trail : Trail) (name : String) (asFolder : Bool) :
    entryAt (root.rewrite change []) (Trail.rewrite change trail) name asFolder =
      (entryAt root trail name asFolder).map
        (Entry.rewrite change (Trail.names trail ++ [name])) := by
  rw [entryAt, entryAt, probe_rewrite, folderAt_rewrite]
  cases probe root trail name 0 with
  | error e => cases asFolder <;> rfl
  | ok e =>
      cases e with
      | file c =>
          simp only [Except.map, Entry.rewrite_file]
          cases asFolder <;> simp
      | link target => simp only [Except.map, Entry.rewrite_link]
      | folder es =>
          simp only [Except.map, Entry.rewrite_folder]
          cases asFolder <;> simp [Entry.rewrite_folder]

/-- A real path is the same whatever bytes the files on the way to it hold. -/
theorem followReal_rewrite (root : Entry) (links : Nat) (trail : Trail) (parts : List String) :
    followReal (root.rewrite change []) links (Trail.rewrite change trail) parts =
      (followReal root links trail parts).map (Found.rewrite change) := by
  fun_induction followReal root links trail parts
  case case1 =>
    rw [followReal, found_rewrite]
    rfl
  all_goals
    rw [followReal]
    simp only [entryAt_rewrite, *, Except.map, Entry.rewrite_link, Bool.false_eq_true, if_true,
      if_false]
  case case3 ih => rw [Trail.tail_rewrite, ih]; rfl
  case case6 trail part rest _ _ target _ links ih =>
    simp only [dite_eq_ite] at ih
    refine Eq.trans ?_ ih
    split <;> rfl
  case case7 trail part rest _ _ e hlink _ ih =>
    rw [Trail.rewrite_cons] at ih
    refine Eq.trans ?_ ih
    cases e with
    | file c => rw [Entry.rewrite_file]
    | link target => exact absurd rfl (hlink target)
    | folder es => rw [Entry.rewrite_folder]

theorem realStart_rewrite (host : Host) (path : String) :
    (host.rewrite change).realStart path =
      (host.realStart path).map (Trail.rewrite change) := by
  rw [realStart, realStart, rewrite]
  simp only [Entry.at?_rewrite, Option.isSome_map]
  split
  · rfl
  split
  · exact congrArg Except.ok (trailTo_rewrite host.root host.workingFolder [])
  · rfl

/-- A real path leads to the same place, and to the same entry but for the bytes. -/
theorem canonicalize_rewrite (host : Host) (path : String) :
    (host.rewrite change).canonicalize path =
      (host.canonicalize path).map (Found.rewrite change) := by
  rw [canonicalize, canonicalize, realStart_rewrite]
  split
  · rfl
  split
  · rfl
  cases host.realStart path with
  | error e => rfl
  | ok trail => exact followReal_rewrite host.root maxLinks trail _

theorem isFolder_rewrite (host : Host) (path : String) :
    (host.rewrite change).isFolder path = host.isFolder path := by
  rw [isFolder, isFolder, resolve_rewrite]
  cases host.resolve path with
  | error e => rfl
  | ok f => exact Entry.isFolder_rewrite f.entry f.place

/-- A file is read as it was, but for its bytes. -/
theorem readBytes_rewrite (host : Host) (path : String) :
    (host.rewrite change).readBytes path =
      match host.resolve path with
      | .ok ⟨place, .file c⟩ => .ok (change place c)
      | .ok _ => .error .isDirectory
      | .error e => .error e := by
  rw [readBytes, resolve_rewrite]
  cases host.resolve path with
  | error e => rfl
  | ok f =>
      obtain ⟨place, e⟩ := f
      cases e with
      | file c =>
          simp only [Except.map, Found.rewrite, Entry.rewrite_file]
          rfl
      | link target =>
          simp only [Except.map, Found.rewrite, Entry.rewrite_link]
          rfl
      | folder es =>
          simp only [Except.map, Found.rewrite, Entry.rewrite_folder]
          rfl

end ImportAtlas.Host
