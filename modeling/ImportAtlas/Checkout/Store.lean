import ImportAtlas.Checkout.Identity
import ImportAtlas.Discovery
import ImportAtlas.Host.Canonical
import ImportAtlas.Host.Change
import ImportAtlas.Text.Quoted

/-!
# Stored checkouts

The working copies of repositories, each in the folder `owner/name` below one directory: cloning
them with git, deleting them, and reading their files. A checkout that is there is used as it is.
-/

namespace ImportAtlas

open Text

inductive CheckoutError where
  | invalidUrl (url : String)
  | invalidIdentity (part : IdentityPart) (value : String)
  | invalidLocation (path : String)
  | createFailed (path : String) (cause : HostError)
  | launchFailed (cause : HostError)
  | gitFailed (stderr : String)
  | build (e : BuildError)
  | deleteFailed (path : String) (cause : HostError)
  | noFilePath
  | invalidFilePath (path : String)
  | checkoutMissing (owner name : String) (cause : HostError)
  | fileMissing (path : String) (cause : HostError)
  | unreadable (path : String) (cause : HostError)
  deriving DecidableEq, Repr, Inhabited

namespace CheckoutError

def message : CheckoutError → String
  | invalidUrl url => "Invalid GitHub URL format: " ++ url
  | invalidIdentity part value => "Invalid repository " ++ part.label ++ ": " ++ quote value
  | invalidLocation path => "Invalid checkout path: " ++ path
  | createFailed path cause => "Failed to create " ++ path ++ ": " ++ cause.message
  | launchFailed cause => "Failed to execute git clone: " ++ cause.message
  | gitFailed stderr => "git clone failed: " ++ stderr
  | build e => e.message
  | deleteFailed path cause => "Failed to delete " ++ path ++ ": " ++ cause.message
  | noFilePath => "File path is required"
  | invalidFilePath path => "Invalid file path: " ++ path
  | checkoutMissing owner name cause =>
    "Repository not found: " ++ owner ++ "/" ++ name ++ ": " ++ cause.message
  | fileMissing path cause => "File not found: " ++ path ++ ": " ++ cause.message
  | unreadable path cause => "Failed to read file: " ++ path ++ ": " ++ cause.message

/-- What the host said, where the failure comes from the host. -/
def hostCause : CheckoutError → Option HostError
  | createFailed _ cause | launchFailed cause | deleteFailed _ cause | checkoutMissing _ _ cause
  | fileMissing _ cause | unreadable _ cause => some cause
  | _ => none

/-- Whether the failure means that something asked for is not there. -/
def isNotFound : CheckoutError → Bool
  | build _ => true
  | e => e.hostCause == some .notFound

end CheckoutError

/-- What one run of git leaves behind. -/
structure GitResult where
  host : Host
  success : Bool
  stderr : String

/-- The git program: what a run with some arguments does to a host, or why it cannot be launched. -/
abbrev Git := List String → Host → Except HostError GitResult

/-- Launching git where it is not installed. -/
def Git.absent : Git := fun _ _ => .error .notFound

/-- A host with its git program, and the arguments of each run of git so far. -/
structure Workspace where
  host : Host
  git : Git
  launched : List (List String) := []
  /-- The time of day, as it is written down. -/
  clock : String := ""

structure CheckoutInfo where
  owner : String
  name : String
  url : String
  localPath : String
  clonedAt : String
  analyzedFolder : Option String
  deriving DecidableEq, Repr, Inhabited

namespace Checkout

open Host

private def say (text : String) : Logged Unit := Logged.tell .repo .info text

def localPath (reposDir owner name : String) : Except CheckoutError String :=
  if !Identity.isValidPart owner then .error (.invalidIdentity .owner owner)
  else if !Identity.isValidPart name then .error (.invalidIdentity .name name)
  else .ok (Location.join (Location.join reposDir owner) name)

/-- Runs git for a checkout that is not there. -/
def download (ws : Workspace) (url path : String) :
    Logged (Workspace × Except CheckoutError Unit) := do
  match Location.parent? path with
  | none => return (ws, .error (.invalidLocation path))
  | some parent =>
    match ws.host.createFolders parent with
    | (host, .error e) => return ({ ws with host := host }, .error (.createFailed parent e))
    | (host, .ok _) =>
      say ("Cloning repository: " ++ url)
      let args := ["clone", url, path]
      match ws.git args host with
      | .error e => return ({ ws with host := host }, .error (.launchFailed e))
      | .ok result =>
        let ws := { ws with host := result.host, launched := ws.launched ++ [args] }
        if result.success then do
          say ("Successfully cloned to: " ++ path)
          return (ws, .ok ())
        else return (ws, .error (.gitFailed (trim result.stderr)))

/-- The checkout of a repository, cloned unless it is there. A folder, if one is given, has to
exist in it. -/
def clone (reposDir : String) (ws : Workspace) (url : String) (folder : Option String) :
    Logged (Workspace × Except CheckoutError CheckoutInfo) := do
  match Identity.ofGithubUrl? url with
  | none => return (ws, .error (.invalidUrl url))
  | some (owner, name) =>
    match localPath reposDir owner name with
    | .error e => return (ws, .error e)
    | .ok path =>
      let (ws, ready) ←
        if ws.host.fileExists path then do
          say ("Repository already exists at: " ++ path)
          pure (ws, .ok ())
        else download ws url path
      match ready with
      | .error e => return (ws, .error e)
      | .ok () =>
        match ← Discovery.scopeRoot ws.host path folder with
        | .error e => return (ws, .error (.build e))
        | .ok _ => return (ws, .ok ⟨owner, name, url, path, ws.clock, folder⟩)

/-- Removes a checkout; false if there is none. -/
def delete (reposDir : String) (host : Host) (owner name : String) :
    Logged (Host × Except CheckoutError Bool) := do
  match localPath reposDir owner name with
  | .error e => return (host, .error e)
  | .ok path =>
    if host.fileExists path then
      match host.removeTree path with
      | .error e => return (host, .error (.deleteFailed path e))
      | .ok host => do
        say ("Deleted repository: " ++ path)
        return (host, .ok true)
    else return (host, .ok false)

/-- The text of a file of a checkout. The path, and whatever links it leads through, must not lead
out of the checkout. -/
def readSource (reposDir : String) (host : Host) (owner name path : String) :
    Except CheckoutError String := do
  if isAllBlank path then throw .noFilePath
  let normalized := Path.normalize path
  if normalized.isEmpty || Path.leavesRoot normalized then throw (.invalidFilePath path)
  let root ← localPath reposDir owner name
  let realRoot ← (host.canonicalize root).mapError (.checkoutMissing owner name)
  let realFile ←
    (host.canonicalize (Location.join root normalized)).mapError (.fileMissing normalized)
  if !Location.startsWith realFile.place realRoot.place then throw (.invalidFilePath path)
  match realFile.entry with
  | .file content => (decodeText content).mapError (.unreadable normalized)
  | _ => throw (.unreadable normalized .isDirectory)

end Checkout

end ImportAtlas
