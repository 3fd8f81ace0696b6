import ImportAtlas.Host.Lookup

/-!
# Walking a folder

What a walk through a folder meets, in order: the entries of each folder by name, each folder's
contents where its name stands. Folders with an excluded name are not entered. Links either count
for nothing or are followed; a followed link that leads to a folder the walk is inside of is a
failure, and so is one that leads nowhere.

Every folder is taken as readable. A lookup on the same host may fail because a path is too long,
but a walk opens each folder it enters however long the path to it has become, and no folder keeps
its entries from it.
-/

namespace ImportAtlas

inductive WalkFailure where
  | host (e : HostError)
  /-- The link leads to a folder that the walk is inside of, which it reached as `ancestor`. -/
  | loop (ancestor : String)
  deriving DecidableEq, Repr, Inhabited

def WalkFailure.message (path : String) : WalkFailure → String
  | host e => "IO error for operation on " ++ path ++ ": " ++ e.message
  | loop ancestor => "File system loop found: " ++ path ++ " points to an ancestor " ++ ancestor

/-- Something met on a walk. Paths are the names below the start. -/
inductive Sighting where
  | file (path : List String)
  | excluded (path : List String)
  | failed (path : List String) (reason : WalkFailure)
  deriving DecidableEq, Repr, Inhabited

namespace Walk

open Host

/-- Pairs in the order of their names, by code points. -/
def sortByName {α : Type} (xs : List (String × α)) : List (String × α) :=
  xs.mergeSort fun a b => !decide (b.1 < a.1)

/-- The sightings of each entry, put in the order of the names. -/
def inOrder (xs : List (String × List Sighting)) : List Sighting := (sortByName xs).flatMap (·.2)

variable (excluded : List String)

mutual

/-- A walk that follows no links, at an entry reached by `path`. A folder always opens. -/
def sightings (path : List String) : Entry → List Sighting
  | .file _ => [.file path]
  | .link _ => []
  | .folder es => inOrder (sightingsAll path es)

def sightingsAll (path : List String) : List (String × Entry) → List (String × List Sighting)
  | [] => []
  | (name, e) :: rest =>
    (name,
      if e.isFolder && excluded.contains name then [.excluded (path ++ [name])]
      else sightings (path ++ [name]) e) :: sightingsAll path rest

end

/-- What a walk that follows no links meets at one entry of a folder. -/
def sightingsAt (excluded path : List String) (x : String × Entry) : List Sighting :=
  if x.2.isFolder && excluded.contains x.1 then [.excluded (path ++ [x.1])]
  else sightings excluded (path ++ [x.1]) x.2

@[simp] theorem sightings_file (excluded path : List String) (c : ByteArray) :
    sightings excluded path (.file c) = [.file path] := by rw [sightings]

@[simp] theorem sightings_link (excluded path : List String) (target : String) :
    sightings excluded path (.link target) = [] := by rw [sightings]

theorem sightingsAll_eq_map (excluded path : List String) (es : List (String × Entry)) :
    sightingsAll excluded path es = es.map fun x => (x.1, sightingsAt excluded path x) := by
  induction es with
  | nil => rw [sightingsAll, List.map_nil]
  | cons x rest ih => rw [sightingsAll, ih, List.map_cons, sightingsAt]

theorem sightings_folder (excluded path : List String) (es : List (String × Entry)) :
    sightings excluded path (.folder es) =
      inOrder (es.map fun x => (x.1, sightingsAt excluded path x)) := by
  rw [sightings, sightingsAll_eq_map]

/-- A folder that the walk is inside of: its real place, and the path the walk took to it. -/
structure Opened where
  place : List String
  shown : String
  deriving DecidableEq, Repr, Inhabited

variable (host : Host) (start : String)

/-- A walk that follows links, through the folder last opened. The first argument bounds the
depth. Only a link can fail to be visited, never the opening of a folder. -/
def sightingsFollowing : Nat → List Opened → List String → List String → List Sighting
  | 0, _, _, _ => []
  | depth + 1, chain, place, path =>
    let folder := ((host.root.at? place).map Entry.entries).getD []
    inOrder (folder.map fun (name, e) => (name, visit depth chain place path name e))
where
  /-- One entry of the folder at `place`. -/
  visit (depth : Nat) (chain : List Opened) (place path : List String) (name : String) :
      Entry → List Sighting
    | .file _ => [.file (path ++ [name])]
    | .folder _ => enter depth chain (place ++ [name]) (path ++ [name]) name
    | .link _ =>
      match host.resolve (Location.joinAll start (path ++ [name])) with
      | .error e => [.failed (path ++ [name]) (.host e)]
      | .ok ⟨_, .file _⟩ => [.file (path ++ [name])]
      | .ok ⟨_, .link _⟩ => []
      | .ok ⟨target, .folder _⟩ =>
        match chain.find? (·.place == target) with
        | some o => [.failed (path ++ [name]) (.loop o.shown)]
        | none => enter depth chain target (path ++ [name]) name
  /-- The folder at `place`, reached by `path`. -/
  enter (depth : Nat) (chain : List Opened) (place path : List String) (name : String) :
      List Sighting :=
    if excluded.contains name then [.excluded path]
    else
      sightingsFollowing depth (⟨place, Location.joinAll start path⟩ :: chain) place path

/-- Enough depth for any walk: between two links that are followed lie at most as many folders as
the tree holds, and each link opens a place that was not open. -/
def depthBound : Nat := (host.root.count + 1) * (host.root.count + 1)

/-- All that a walk meets from its start on. A link is followed if it is the start itself. -/
def run (followLinks : Bool) : List Sighting :=
  match host.lookup followLinks start with
  | .error e => [.failed [] (.host e)]
  | .ok ⟨place, e⟩ =>
    if followLinks then
      match e with
      | .folder _ =>
        sightingsFollowing excluded host start (depthBound host) [⟨place, start⟩] place []
      | e => sightings excluded [] e
    else
      match e with
      | .link _ =>
        match host.resolve start with
        | .error e => [.failed [] (.host e)]
        | .ok ⟨_, .folder es⟩ => sightings excluded [] (.folder es)
        | .ok _ => []
      | e => sightings excluded [] e

end Walk

end ImportAtlas
