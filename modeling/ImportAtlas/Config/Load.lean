import ImportAtlas.Config
import ImportAtlas.Host.Lookup
import ImportAtlas.Log
import ImportAtlas.Text.Blank

/-!
# Loading the configuration

The configuration comes from the file that is asked for, else from one in the working folder, else
from one in the home folder, else it is the default. Two variables of the environment take
precedence over it. A file that is there but cannot be used is an error, never passed over.
-/

namespace ImportAtlas

inductive ConfigError where
  | unreadable (path : String) (cause : HostError)
  | malformed (path : String)
  deriving DecidableEq, Repr, Inhabited

namespace ConfigError

def summary : ConfigError → String
  | unreadable path _ => "Failed to read config file: " ++ path
  | malformed path => "Failed to parse config file: " ++ path

def message (e : ConfigError) : String :=
  match e with
  | unreadable _ cause => e.summary ++ ": " ++ cause.message
  | malformed _ => e.summary

end ConfigError

structure Environment where
  settings : List (String × String) := []
  home : Option String := none
  deriving DecidableEq, Repr, Inhabited

namespace Environment

def get? (env : Environment) (name : String) : Option String :=
  (env.settings.find? (·.1 == name)).map (·.2)

end Environment

namespace Config

open Host

private def say (level : Log.Level) (text : String) : Logged Unit := Logged.tell .config level text

def fromFile (host : Host) (path : String) : Except ConfigError Config :=
  match host.readText path with
  | .error e => .error (.unreadable path e)
  | .ok text =>
    match ofToml? text with
    | some c => .ok c
    | none => .error (.malformed path)

/-- The file looked for in the working folder. -/
def localFile : String := "repograph.toml"

/-- The file looked for in the home folder. -/
def homeFile (home : String) : String :=
  Location.join (Location.join home ".repograph") "config.toml"

/-- The places looked at when no file is asked for. -/
def lookupOrder (env : Environment) : List String :=
  localFile :: (env.home.map homeFile).toList

def findFile? (host : Host) (env : Environment) : Option String :=
  (lookupOrder env).find? host.fileExists

/-- A port as it is written: decimal digits, perhaps behind a plus sign. -/
def readPort? (text : String) : Option UInt16 :=
  let digits :=
    match text.toList with
    | '+' :: ds => ds
    | ds => ds
  if digits.isEmpty || !digits.all Json.isDigit then none
  else
    let n := Json.natOfDigits digits
    if n < 0x10000 then some (UInt16.ofNat n) else none

/-- The configuration with what the environment sets. -/
def applyEnvironment (env : Environment) (c : Config) : Logged Config := do
  let c :=
    match env.get? "TEMP_REPO_PATH" with
    | some dir => if Text.isAllBlank dir then c else { c with reposDir := dir }
    | none => c
  match env.get? "PORT" with
  | none => return c
  | some text =>
    match readPort? text with
    | some port => return { c with server := { c.server with port := port } }
    | none =>
      say .warn ("Ignoring invalid PORT value: " ++ text)
      return c

def loadFile (host : Host) (env : Environment) (explicit : Option String) :
    Logged (Except ConfigError Config) := do
  match explicit with
  | some path => return fromFile host path
  | none =>
    match findFile? host env with
    | some path =>
      say .debug ("Using config file " ++ path)
      return fromFile host path
    | none =>
      say .debug "No config file found, using defaults"
      return .ok {}

def load (host : Host) (env : Environment) (explicit : Option String) :
    Logged (Except ConfigError Config) := do
  match ← loadFile host env explicit with
  | .error e => return .error e
  | .ok c => return .ok (← applyEnvironment env c)

end Config

end ImportAtlas
