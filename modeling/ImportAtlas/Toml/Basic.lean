import ImportAtlas.Json.Basic

/-!
# TOML values

The values of a TOML document, and how its tables grow line by line. A table is open to additions
only in the way it came about: by a header, by headers below it, or by dotted keys.
-/

namespace ImportAtlas

inductive Toml where
  | str (s : String)
  | int (n : Int)
  | float (text : String)
  | bool (b : Bool)
  | datetime (text : String)
  | array (items : List Toml)
  | inline (members : List (String × Toml))
  /-- `isImplicit`: no header of its own yet. `isDotted`: made by a dotted key. -/
  | table (isImplicit isDotted : Bool) (members : List (String × Toml))
  | tables (items : List Toml)
  deriving Repr, Inhabited

namespace Toml

def find? (key : String) (members : List (String × Toml)) : Option Toml :=
  (members.find? (·.1 == key)).map (·.2)

def set (key : String) (value : Toml) : List (String × Toml) → List (String × Toml)
  | [] => [(key, value)]
  | (k, v) :: rest => if k == key then (k, value) :: rest else (k, v) :: set key value rest

def alterLast (f : Toml → Option Toml) : List Toml → Option (List Toml)
  | [] => none
  | [t] => do return [← f t]
  | t :: ts => do return t :: (← alterLast f ts)

/-- Changes the table at a path, making the tables on the way that are missing. In an array of
tables the path leads through the last one. -/
def alterAt (byDottedKey : Bool) (change : Toml → Option Toml) : List String → Toml → Option Toml
  | [], t => change t
  | key :: rest, table isImplicit isDotted members =>
    match find? key members with
    | none => do
      let child ← alterAt byDottedKey change rest (table true byDottedKey [])
      return table isImplicit isDotted (members ++ [(key, child)])
    | some (table childImplicit childDotted childMembers) =>
      if byDottedKey && !childImplicit then none
      else do
        let child ←
          alterAt byDottedKey change rest (table childImplicit childDotted childMembers)
        return table isImplicit isDotted (set key child members)
    | some (tables items) => do
      let items ← alterLast (alterAt byDottedKey change rest) items
      return table isImplicit isDotted (set key (tables items) members)
    | some _ => none
  | _ :: _, _ => none

/-- Adds a key with its value to the table at a dotted path. -/
def insert (t : Toml) (path : List String) (key : String) (value : Toml) : Option Toml :=
  alterAt true add path t
where
  add : Toml → Option Toml
    | table isImplicit isDotted members =>
      if isDotted == path.isEmpty || (find? key members).isSome then none
      else some (table isImplicit isDotted (members ++ [(key, value)]))
    | _ => none

/-- Opens the table of a header `[path.key]`. -/
def openTable (path : List String) (key : String) (t : Toml) : Option Toml :=
  alterAt false opened path t
where
  opened : Toml → Option Toml
    | table isImplicit isDotted members =>
      match find? key members with
      | none => some (table isImplicit isDotted (members ++ [(key, table false false [])]))
      | some (table true false inner) =>
        some (table isImplicit isDotted (set key (table false false inner) members))
      | some _ => none
    | _ => none

/-- Opens one more table of a header `[[path.key]]`. -/
def openTables (path : List String) (key : String) (t : Toml) : Option Toml :=
  alterAt false opened path t
where
  opened : Toml → Option Toml
    | table isImplicit isDotted members =>
      match find? key members with
      | none => some (table isImplicit isDotted (members ++ [(key, tables [table false false []])]))
      | some (tables items) =>
        let items := items ++ [table false false []]
        some (table isImplicit isDotted (set key (tables items) members))
      | some _ => none
    | _ => none

mutual

/-- The document as plain data, without regard to how its tables were written. -/
def toJson : Toml → Json
  | str s => .str s
  | int n => .int n
  | float text => .real text
  | bool b => .bool b
  | datetime text => .obj [("datetime", .str text)]
  | array items => .arr (toJsonItems items)
  | inline members => .obj (toJsonMembers members)
  | table _ _ members => .obj (toJsonMembers members)
  | tables items => .arr (toJsonItems items)

def toJsonItems : List Toml → List Json
  | [] => []
  | t :: ts => toJson t :: toJsonItems ts

def toJsonMembers : List (String × Toml) → List (String × Json)
  | [] => []
  | (key, t) :: rest => (key, toJson t) :: toJsonMembers rest

end

end Toml

end ImportAtlas
