import ImportAtlas.Host.Entry
import ImportAtlas.Host.Location

/-!
# Looking up paths

What a path of a host leads to. Symbolic links are followed, at most 40 of them in one lookup; the
result names the real place of the entry, a path of plain names from the root.
-/

namespace ImportAtlas

inductive HostError where
  | notFound
  | alreadyExists
  | notDirectory
  | isDirectory
  | nameTooLong
  | tooManyLinks
  | nulByte
  | invalidText
  /-- Any other error, by the text that it reads as. -/
  | other (text : String)
  deriving DecidableEq, Repr, Inhabited

def HostError.message : HostError → String
  | notFound => "No such file or directory (os error 2)"
  | alreadyExists => "File exists (os error 17)"
  | notDirectory => "Not a directory (os error 20)"
  | isDirectory => "Is a directory (os error 21)"
  | nameTooLong => "File name too long (os error 36)"
  | tooManyLinks => "Too many levels of symbolic links (os error 40)"
  | nulByte => "file name contained an unexpected NUL byte"
  | invalidText => "stream did not contain valid UTF-8"
  | other text => text

/-- A host: its tree from the root, and the folder that relative paths start from. -/
structure Host where
  root : Host.Entry
  workingFolder : List String
  deriving Inhabited

namespace Host

open Text

/-- The entries on the way from the root, the last one first. The root itself is left out. -/
abbrev Trail := List (String × Entry)

structure Found where
  place : List String
  entry : Entry
  deriving Inhabited

def maxLinks : Nat := 40

def maxNameBytes : Nat := 255

def maxPathBytes : Nat := 4095

variable (root : Entry)

def current (trail : Trail) : Entry :=
  match trail with
  | [] => root
  | (_, e) :: _ => e

def found (trail : Trail) : Found := ⟨(trail.map (·.1)).reverse, current root trail⟩

/-- The way to a real place, as far as it exists. -/
def trailTo : List String → Trail → Trail
  | [], trail => trail
  | name :: rest, trail =>
    match (current root trail).child? name with
    | some e => trailTo rest ((name, e) :: trail)
    | none => trail

/-- Follows the parts of a path. A link is replaced by the parts of its target, each time using up
one of the `links` that may still be followed; a link in last place is followed on demand. -/
def follow (followLast : Bool) (links : Nat) (trail : Trail) (parts : List String) :
    Except HostError Found :=
  match parts with
  | [] => .ok (found root trail)
  | part :: rest =>
    if !(current root trail).isFolder then .error .notDirectory
    else if part == "" || part == "." then follow followLast links trail rest
    else if part == ".." then follow followLast links trail.tail rest
    else if part.utf8ByteSize > maxNameBytes then .error .nameTooLong
    else
      match (current root trail).child? part with
      | none => .error .notFound
      | some (.link target) =>
        if rest.isEmpty && !followLast then .ok (found root ((part, .link target) :: trail))
        else
          match links with
          | 0 => .error .tooManyLinks
          | links + 1 =>
            follow followLast links (if Location.isAbsolute target then [] else trail)
              (fields Location.isSlash target ++ rest)
      | some e => follow followLast links ((part, e) :: trail) rest
termination_by (links, parts.length)

/-- Goes through the parts of a path, all links followed, and keeps the way together with the
number of links that may still be followed. -/
def advance (root : Entry) (links : Nat) (trail : Trail) (parts : List String) :
    Except HostError (Nat × Trail) :=
  match parts with
  | [] => .ok (links, trail)
  | part :: rest =>
    if !(current root trail).isFolder then .error .notDirectory
    else if part == "" || part == "." then advance root links trail rest
    else if part == ".." then advance root links trail.tail rest
    else if part.utf8ByteSize > maxNameBytes then .error .nameTooLong
    else
      match (current root trail).child? part with
      | none => .error .notFound
      | some (.link target) =>
        match links with
        | 0 => .error .tooManyLinks
        | links + 1 =>
          advance root links (if Location.isAbsolute target then [] else trail)
            (fields Location.isSlash target ++ rest)
      | some e => advance root links ((part, e) :: trail) rest
termination_by (links, parts.length)

theorem follow_true (root : Entry) (links : Nat) (trail : Trail) (parts : List String) :
    follow root true links trail parts =
      (advance root links trail parts).map fun s => found root s.2 := by
  fun_induction advance root links trail parts <;> rw [follow] <;>
    simp_all [Except.map, -Nat.not_lt]

/-- What a path leads to, seen from the working folder. -/
def lookup (host : Host) (followLast : Bool) (path : String) : Except HostError Found :=
  if path.contains '\x00' then .error .nulByte
  else if path.isEmpty then .error .notFound
  else if path.utf8ByteSize > maxPathBytes then .error .nameTooLong
  else
    follow host.root followLast maxLinks
      (if Location.isAbsolute path then [] else trailTo host.root host.workingFolder [])
      (fields Location.isSlash path)

def resolve (host : Host) (path : String) : Except HostError Found := host.lookup true path

/-- What a path leads to, a link in last place not followed. -/
def resolveEntry (host : Host) (path : String) : Except HostError Found := host.lookup false path

def fileExists (host : Host) (path : String) : Bool := (host.resolve path).isOk

def isFolder (host : Host) (path : String) : Bool :=
  match host.resolve path with
  | .ok f => f.entry.isFolder
  | .error _ => false

def readBytes (host : Host) (path : String) : Except HostError ByteArray := do
  match (← host.resolve path).entry with
  | .file content => return content
  | _ => throw .isDirectory

/-- The bytes as text, if they are the UTF-8 form of one. -/
def decodeText (content : ByteArray) : Except HostError String :=
  match String.fromUTF8? content with
  | some text => .ok text
  | none => .error .invalidText

def readText (host : Host) (path : String) : Except HostError String :=
  host.readBytes path >>= decodeText

/-- The written form of a real place. -/
def placePath (place : List String) : String := "/" ++ joinFields '/' place

end Host

end ImportAtlas
