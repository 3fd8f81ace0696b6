import ImportAtlas.Command.Places
import ImportAtlas.Command.Run

/-!
# The program

The command line on the files of this machine. A run works on a picture of the places that it looks
at; nothing else is read, nothing is written, no other program is launched, and no address is
listened on.
-/

namespace ImportAtlas

open Host

/-- The tree at a path. Folders whose names are passed over are taken to be empty, and of files that
are not sources only those named themselves are read. Links keep the place that they lead to. -/
partial def readTree (passedOver : List String) (path : String) (isNamed : Bool) :
    IO (Option Entry) := do
  let here := (← IO.currentDir).join path
  try
    let data ← if isNamed then here.metadata else here.symlinkMetadata
    match data.type with
    | .symlink => return some (.link (← IO.FS.realPath here).toString)
    | .dir =>
      let mut entries := #[]
      for e in ← here.readDir do
        let below := Location.join path e.fileName
        let entry ←
          if passedOver.contains e.fileName then pure (some (.folder []))
          else readTree passedOver below false
        if let some entry := entry then entries := entries.push (e.fileName, entry)
      return some (.folder entries.toList)
    | _ =>
      if isNamed || isSourceName (Location.fileName path) then
        return some (.file (← IO.FS.readBinFile here))
      else return some (.file .empty)
  catch _ => return none

/-- Where a path leads as it is written, seen from a folder. -/
def writtenPlace (workingFolder : List String) (path : String) : List String :=
  (Location.components path).foldl step workingFolder
where
  step (place : List String) : Component → List String
    | .root => []
    | .current => place
    | .parent => place.dropLast
    | .name s => place ++ [s]

/-- The host with what is found at a path of this machine. -/
def addPlace (passedOver : List String) (host : Host) (path : String) : IO Host := do
  match ← readTree passedOver path true with
  | none => return host
  | some entry =>
    let place := writtenPlace host.workingFolder path
    let (host, _) := host.createFolders (placePath place.dropLast)
    return host.setPlace place (some entry)

def addPlaces (passedOver : List String) (host : Host) (paths : List String) : IO Host :=
  paths.foldlM (addPlace passedOver) host

/-- A host with nothing in it but the working folder. -/
def bareHost : IO Host := do
  let here := (← IO.currentDir).toString
  let (host, _) := Host.createFolders ⟨.folder [], []⟩ here
  return { host with workingFolder := (Text.fields Location.isSlash here).filter (· != "") }

def readEnvironment : IO Environment := do
  let mut settings := []
  for name in ["PORT", "TEMP_REPO_PATH", "RUST_LOG"] do
    if let some value ← IO.getEnv name then settings := (name, value) :: settings
  return ⟨settings, ← IO.getEnv "HOME"⟩

/-- The host as far as a command line has to do with it. -/
def pictureFor (env : Environment) (args : List String) : IO Host := do
  let host ← bareHost
  match Command.parse args with
  | .error _ => return host
  | .ok i =>
    let host ← addPlaces [] host (i.configPlaces env)
    match (Config.load host env i.config).value with
    | .error _ => return host
    | .ok config =>
      addPlaces (Exclusions.withExtra config.graph.extraExcludedDirs) host
        (i.task.place? config).toList

end ImportAtlas

open ImportAtlas

def main (args : List String) : IO UInt32 := do
  let started ← IO.monoMsNow
  let env ← readEnvironment
  let host ← pictureFor env args
  let elapsed := toString ((← IO.monoMsNow) - started) ++ "ms"
  let outcome := Command.run
    { workspace := { host, git := Git.absent }, environment := env, elapsed
      serve := fun _ => .unbound "no address is listened on" } args
  (← IO.getStdout).putStr outcome.stdout
  (← IO.getStderr).putStr outcome.stderr
  return outcome.code.toUInt32
