/-!
# File trees

What a directory of a host holds: files with their bytes, symbolic links with their targets, and
folders. Names within a folder are distinct; their order is the one the host happens to list them
in.
-/

namespace ImportAtlas.Host

inductive Entry where
  | file (content : ByteArray)
  | link (target : String)
  | folder (entries : List (String × Entry))
  deriving Inhabited

namespace Entry

def find? (name : String) : List (String × Entry) → Option Entry
  | [] => none
  | (n, e) :: rest => if n == name then some e else find? name rest

def isFolder : Entry → Bool
  | folder _ => true
  | _ => false

def entries : Entry → List (String × Entry)
  | folder es => es
  | _ => []

def child? (name : String) (e : Entry) : Option Entry := find? name e.entries

/-- A folder's entries with one of them set, or taken out. -/
def alter (name : String) (new : Option Entry) (es : List (String × Entry)) :
    List (String × Entry) :=
  match new, es with
  | none, es => es.filter (·.1 != name)
  | some e, [] => [(name, e)]
  | some e, (n, old) :: rest =>
    if n == name then (n, e) :: rest else (n, old) :: alter name (some e) rest

theorem alter_none (name : String) (es : List (String × Entry)) :
    alter name none es = es.filter (·.1 != name) := by
  cases es <;> rw [alter]

@[simp] theorem alter_some_nil (name : String) (new : Entry) :
    alter name (some new) [] = [(name, new)] := by
  rw [alter]

theorem alter_some_cons (name : String) (new : Entry) (x : String × Entry)
    (es : List (String × Entry)) :
    alter name (some new) (x :: es) =
      if x.1 = name then (x.1, new) :: es else x :: alter name (some new) es := by
  obtain ⟨n, e⟩ := x
  rw [alter]
  by_cases hn : n = name <;> simp [hn]

/-- The tree with the entry at a path below it set, or taken out. Folders on the way that do not
exist are not made. -/
def setAt (new : Option Entry) : List String → Entry → Entry
  | [], e => new.getD e
  | [name], folder es => folder (alter name new es)
  | name :: rest, folder es =>
    match find? name es with
    | some e => folder (alter name (some (setAt new rest e)) es)
    | none => folder es
  | _, e => e

@[simp] theorem setAt_nil (new e : Entry) : e.setAt (some new) [] = new := by
  rw [setAt]
  rfl

@[simp] theorem setAt_singleton (change : Option Entry) (name : String)
    (es : List (String × Entry)) :
    (folder es).setAt change [name] = .folder (alter name change es) := by
  rw [setAt]

/-- The entry at a path below a tree, following no links. -/
def at? : List String → Entry → Option Entry
  | [], e => some e
  | name :: rest, e => e.child? name >>= at? rest

mutual

def count : Entry → Nat
  | file _ => 1
  | link _ => 1
  | folder es => 1 + countAll es

def countAll : List (String × Entry) → Nat
  | [] => 0
  | (_, e) :: rest => count e + countAll rest

end

end Entry

end ImportAtlas.Host
