import ImportAtlas.Host.Lookup

/-!
# Changing a host

Making folders, files and links, and removing trees. An operation gives the changed host or says why
it failed.
-/

namespace ImportAtlas.Host

variable (host : Host)

def setPlace (place : List String) (new : Option Entry) : Host :=
  { host with root := host.root.setAt new place }

/-- The real folder that holds the last part of a path, and that part. -/
def parentPlace (path : String) : Except HostError (List String × String) := do
  if path.contains '\x00' then throw .nulByte
  match Location.parent? path with
  | none => throw .alreadyExists
  | some dir =>
    let f ← host.resolve (if dir.isEmpty then "." else dir)
    if !f.entry.isFolder then throw .notDirectory
    let name := Location.fileName path
    if name.utf8ByteSize > maxNameBytes then throw .nameTooLong
    return (f.place, name)

def createFolder (path : String) : Except HostError Host :=
  match host.resolveEntry path with
  | .ok _ => .error .alreadyExists
  | .error .notFound => do
    if path.isEmpty then throw .notFound
    let (place, name) ← host.parentPlace path
    return host.setPlace (place ++ [name]) (some (.folder []))
  | .error e => .error e

/-- Makes a folder, unless the path already leads to one. -/
def ensureFolder (path : String) : Except HostError Host :=
  match host.createFolder path with
  | .ok h => .ok h
  | .error e => if host.isFolder path then .ok host else .error e

/-- Makes a folder and those above it that are missing. The first argument bounds the number of
folders above. Folders made before a failure stay. -/
def createFoldersUpTo : Nat → Host → String → Host × Except HostError Unit
  | bound, host, path =>
    if path.isEmpty then (host, .ok ())
    else
      match host.ensureFolder path with
      | .ok h => (h, .ok ())
      | .error .notFound =>
        match bound, Location.parent? path with
        | bound + 1, some above =>
          match createFoldersUpTo bound host above with
          | (h, .error e) => (h, .error e)
          | (h, .ok _) =>
            match h.ensureFolder path with
            | .ok h => (h, .ok ())
            | .error e => (h, .error e)
        | _, _ => (host, .error .notFound)
      | .error e => (host, .error e)

def createFolders (path : String) : Host × Except HostError Unit :=
  createFoldersUpTo path.length host path

/-- Writes a file, through a link if the path leads through one. -/
def writeFile (path : String) (content : ByteArray) : Except HostError Host :=
  match host.resolve path with
  | .ok ⟨_, .folder _⟩ => .error .isDirectory
  | .ok f => .ok (host.setPlace f.place (some (.file content)))
  | .error .notFound => do
    let (place, name) ← host.parentPlace path
    return host.setPlace (place ++ [name]) (some (.file content))
  | .error e => .error e

def makeLink (path target : String) : Except HostError Host :=
  match host.resolveEntry path with
  | .ok _ => .error .alreadyExists
  | .error .notFound => do
    let (place, name) ← host.parentPlace path
    return host.setPlace (place ++ [name]) (some (.link target))
  | .error e => .error e

/-- Removes a folder with all it holds, or a link, but no file. -/
def removeTree (path : String) : Except HostError Host := do
  let f ← host.resolveEntry path
  match f.entry with
  | .file _ => throw .notDirectory
  | _ => return host.setPlace f.place none

def removeEntry (path : String) : Except HostError Host := do
  let f ← host.resolveEntry path
  return host.setPlace f.place none

end ImportAtlas.Host
