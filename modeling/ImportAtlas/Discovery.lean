import ImportAtlas.Discovery.Exclusions
import ImportAtlas.Discovery.Walk
import ImportAtlas.Language
import ImportAtlas.Log
import ImportAtlas.Scope

/-!
# Discovery of source files

The source files of a repository, or of one folder of it, as paths from the repository root. What
cannot be visited is reported and left out.

A build fails for want of a repository or a scope. That a thread pool cannot be started is no
failure here, since nothing is run in parallel.
-/

namespace ImportAtlas

inductive BuildError where
  | scopeNotFound (folder : String)
  | repositoryNotFound (path : String)
  deriving DecidableEq, Repr, Inhabited

def BuildError.message : BuildError → String
  | scopeNotFound folder => "Folder \"" ++ folder ++ "\" not found in repository"
  | repositoryNotFound path => "Repository not found at " ++ path

structure Discovery where
  excluded : List String := Exclusions.standard
  followLinks : Bool := false
  deriving DecidableEq, Repr, Inhabited

namespace Discovery

open Host

private def say (level : Log.Level) (text : String) : Logged Unit :=
  Logged.tell .discovery level text

/-- The file name of a sighting: that of the walk's start if it is the start. -/
def sightedName (start : String) (path : List String) : String :=
  path.getLast?.getD (Location.fileName start)

/-- The path, seen from `base`, that a sighting adds to the list. -/
def listed? (base start : String) : Sighting → Option String
  | .file path =>
    if isSourceName (sightedName start path) then Location.relative? base start path else none
  | .excluded _ | .failed _ _ => none

def report (base start : String) : Sighting → Logged Unit
  | .file path =>
    if isSourceName (sightedName start path) && (Location.relative? base start path).isNone then
      say .warn ("Skipping " ++ Location.joinAll start path ++ " (outside of " ++ base ++ ")")
    else pure ()
  | .excluded path => say .trace ("Pruning excluded directory: " ++ Location.joinAll start path)
  | .failed path reason =>
    let shown := Location.joinAll start path
    say .warn ("Error reading directory " ++ shown ++ ": " ++ reason.message shown)

/-- The source files at and below `start`, as paths from `base`. -/
def walk (d : Discovery) (host : Host) (start base : String) : Logged (List String) := do
  let met := Walk.run d.excluded host start d.followLinks
  let _ ← Logged.each (report base start) met
  return met.filterMap (listed? base start)

/-- The folder of a scope, which has to exist. -/
def scopeRoot (host : Host) (base : String) (scope : Option String) :
    Logged (Except BuildError String) :=
  match scope with
  | none => pure (.ok base)
  | some folder =>
    match Scope.normalize folder with
    | .error _ => pure (.error (.scopeNotFound folder))
    | .ok none => pure (.ok base)
    | .ok (some normalized) =>
      let root := Location.join base normalized
      if host.isFolder root then do
        say .info ("Analyzing folder: /" ++ normalized)
        return .ok root
      else pure (.error (.scopeNotFound folder))

/-- The source files of a repository, or of a folder of it. -/
def discover (d : Discovery) (host : Host) (base : String) (scope : Option String) :
    Logged (Except BuildError (List String)) := do
  match ← scopeRoot host base scope with
  | .error e => return .error e
  | .ok start => return .ok (← d.walk host start base)

theorem value_walk (d : Discovery) (host : Host) (start base : String) :
    (d.walk host start base).value =
      (Walk.run d.excluded host start d.followLinks).filterMap (listed? base start) := rfl

end Discovery

end ImportAtlas
