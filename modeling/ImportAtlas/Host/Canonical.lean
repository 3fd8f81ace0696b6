import ImportAtlas.Host.Lookup

/-!
# Real paths

Where a path leads when its real path is asked for. The program's library goes from name to name
itself then: it keeps the absolute path of the place reached, without links and dots, and asks the
host for each next name by that path. So the host's limit is on these paths alone. A long path may
have a real path, and a short one may lead to a place too deep to have any.
-/

namespace ImportAtlas.Host

open Text

/-- The bytes that the absolute path of a place takes, a slash before each name. -/
def placeBytes : List String → Nat
  | [] => 0
  | name :: place => name.utf8ByteSize + 1 + placeBytes place

variable (root : Entry)

def isIdle (part : String) : Bool := part == "" || part == "."

/-- Whether the parts behind a name ask for a folder: `..` is the next one that says something, or
there are parts and none of them does. -/
def asksFolder (rest : List String) : Bool :=
  match rest.dropWhile isIdle with
  | [] => !rest.isEmpty
  | part :: _ => part == ".."

/-- What the host has under a name in the place reached, asked for by the absolute path with `more`
bytes behind it. -/
def probe (trail : Trail) (name : String) (more : Nat) : Except HostError Entry :=
  if placeBytes (name :: trail.map (·.1)) + more > maxPathBytes then .error .nameTooLong
  else if !(current root trail).isFolder then .error .notDirectory
  else if name.utf8ByteSize > maxNameBytes then .error .nameTooLong
  else
    match (current root trail).child? name with
    | none => .error .notFound
    | some e => .ok e

/-- The folder under a name, asked for by the path with a slash behind it. -/
def folderAt (trail : Trail) (name : String) : Except HostError Entry :=
  match probe root trail name 1 with
  | .ok e => if e.isFolder then .ok e else .error .notDirectory
  | .error e => .error e

/-- The entry under a name: a link, or else what is there, which may have to be a folder. -/
def entryAt (trail : Trail) (name : String) (asFolder : Bool) : Except HostError Entry :=
  match probe root trail name 0 with
  | .ok (.link target) => .ok (.link target)
  | plain => if asFolder then folderAt root trail name else plain

/-- Follows the parts of a path by absolute paths, with `links` more links to follow. Unlike in
`follow`, empty parts and dots ask nothing of the place reached. -/
def followReal (links : Nat) (trail : Trail) (parts : List String) : Except HostError Found :=
  match parts with
  | [] => .ok (found root trail)
  | part :: rest =>
    if isIdle part then followReal links trail rest
    else if part == ".." then followReal links trail.tail rest
    else
      match entryAt root trail part (asksFolder rest) with
      | .error e => .error e
      | .ok (.link target) =>
        match links with
        | 0 => .error .tooManyLinks
        | links + 1 =>
          followReal links (if Location.isAbsolute target then [] else trail)
            (fields Location.isSlash target ++ rest)
      | .ok e => followReal links ((part, e) :: trail) rest
termination_by (links, parts.length)

/-- Goes through the parts of a path as `followReal` does, and keeps the way. Which of the names
have to be folders is told by what is behind them. -/
def through (asks : List String → Bool) (root : Entry) (links : Nat) (trail : Trail)
    (parts : List String) : Except HostError (Nat × Trail) :=
  match parts with
  | [] => .ok (links, trail)
  | part :: rest =>
    if isIdle part then through asks root links trail rest
    else if part == ".." then through asks root links trail.tail rest
    else
      match entryAt root trail part (asks rest) with
      | .error e => .error e
      | .ok (.link target) =>
        match links with
        | 0 => .error .tooManyLinks
        | links + 1 =>
          through asks root links (if Location.isAbsolute target then [] else trail)
            (fields Location.isSlash target ++ rest)
      | .ok e => through asks root links ((part, e) :: trail) rest
termination_by (links, parts.length)

theorem followReal_eq (root : Entry) (links : Nat) (trail : Trail) (parts : List String) :
    followReal root links trail parts =
      (through asksFolder root links trail parts).map fun s => found root s.2 := by
  fun_induction through asksFolder root links trail parts <;> rw [followReal] <;>
    simp_all [Except.map]

/-- The way to the folder that a path starts from. A working folder that is gone has no path. -/
def realStart (host : Host) (path : String) : Except HostError Trail :=
  if Location.isAbsolute path then .ok []
  else if (host.root.at? host.workingFolder).isSome then
    .ok (trailTo host.root host.workingFolder [])
  else .error .notFound

/-- The real place that a path leads to, if that place and those on the way have paths that the host
takes. -/
def canonicalize (host : Host) (path : String) : Except HostError Found :=
  if path.contains '\x00' then .error .nulByte
  else if path.isEmpty then .error .notFound
  else
    match host.realStart path with
    | .error e => .error e
    | .ok trail => followReal host.root maxLinks trail (fields Location.isSlash path)

end ImportAtlas.Host
