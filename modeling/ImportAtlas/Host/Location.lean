import ImportAtlas.Text.Fields

/-!
# Locations

Paths of the host as they are written, before anything is looked up: joining, the folder above, and
the part of one path below another. Unlike in repository paths, only `/` parts segments.
-/

namespace ImportAtlas.Host

open Text

inductive Component where
  | root
  | current
  | parent
  | name (s : String)
  deriving DecidableEq, Repr, Inhabited

namespace Location

def isSlash (c : Char) : Bool := c == '/'

def isAbsolute (path : String) : Bool := path.toList.head? == some '/'

def ofSegment (s : String) : Component := if s == ".." then .parent else .name s

/-- The parts of a path. Empty parts count for nothing, and `.` only where it starts the path. -/
def components (path : String) : List Component :=
  let parts := (fields isSlash path).filter (· != "")
  let plain := (parts.filter (· != ".")).map ofSegment
  if isAbsolute path then .root :: plain
  else if parts.head? == some "." then .current :: plain
  else plain

/-- The path written after another one. An absolute path stands for itself. -/
def join (base path : String) : String :=
  if isAbsolute path || base.isEmpty then path
  else if base.toList.getLast? == some '/' then base ++ path
  else base ++ "/" ++ path

def joinAll (base : String) (segments : List String) : String := segments.foldl join base

/-- A path without the slashes and dots that say nothing at its end. -/
def dropEmptyEnd (path : List Char) : List Char :=
  go path.reverse
where
  /-- Works on the reversed text. -/
  go : List Char → List Char
    | ['/'] => ['/']
    | '/' :: rest => go rest
    | '.' :: '/' :: rest => go ('/' :: rest)
    | cs => cs.reverse

/-- The folder above: the path without its last part. The root and the empty path have none. -/
def parent? (path : String) : Option String :=
  match (components path).getLast? with
  | none | some .root => none
  | some _ =>
    let trimmed := dropEmptyEnd path.toList
    match beforeLast? isSlash trimmed with
    | none => some ""
    | some [] => some "/"
    | some dir => some (String.ofList (dropEmptyEnd dir))

/-- The last name of a path, or the path itself if it does not end in a name. -/
def fileName (path : String) : String :=
  match (components path).getLast? with
  | some (.name s) => s
  | _ => path

/-- What is left of a list behind a given start. -/
def dropStart? [DecidableEq α] : List α → List α → Option (List α)
  | [], xs => some xs
  | _ :: _, [] => none
  | a :: as, x :: xs => if a = x then dropStart? as xs else none

/-- The path of what lies `segments` below `start`, seen from `base`, if `start` lies in `base`. -/
def relative? (base start : String) (segments : List String) : Option String := do
  let rest ← dropStart? (components base) (components start ++ segments.map ofSegment)
  let names := rest.filterMap fun
    | .name s => some s
    | _ => none
  if names.isEmpty then none else some (joinFields '/' names)

/-- Whether a path lies at or below another one, part by part. -/
def startsWith (path base : List String) : Bool := (dropStart? base path).isSome

end Location

end ImportAtlas.Host
