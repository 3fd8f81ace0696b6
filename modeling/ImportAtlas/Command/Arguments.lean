import ImportAtlas.Config.Load

/-!
# Arguments

The command line as it is written: options with long and short names, arguments told by their
position, and one subcommand, to whose level the rest belongs. Options of the outer level may be
given at either; those of the inner level then count.
-/

namespace ImportAtlas.Command

/-- Why a command line is refused, or what it asks for instead of a run. -/
inductive ArgumentError where
  | unknownArgument
  | missingRequiredArgument
  | argumentConflict
  | invalidValue
  | valueValidation
  | invalidSubcommand
  | missingSubcommand
  | tooManyValues
  | displayHelp
  | displayHelpOnMissing
  | displayVersion
  deriving DecidableEq, Repr, Inhabited

inductive ValueKind where
  | text
  /-- A path, which is not empty. -/
  | path
  | port
  deriving DecidableEq, Repr, Inhabited

inductive OptionKind where
  | flag
  /-- A flag that may be repeated. -/
  | count
  | value (kind : ValueKind)
  | help
  | version
  deriving DecidableEq, Repr, Inhabited

structure OptionSpec where
  long : String
  short : Option Char := none
  kind : OptionKind
  deriving DecidableEq, Repr, Inhabited

structure LevelSpec where
  name : String
  options : List OptionSpec
  positionals : List (String × ValueKind) := []
  subcommands : List String := []
  deriving DecidableEq, Repr, Inhabited

structure Matches where
  values : List (String × String) := []
  flags : List String := []
  counts : List String := []
  deriving DecidableEq, Repr, Inhabited

namespace Matches

def value? (m : Matches) (name : String) : Option String :=
  (m.values.find? (·.1 == name)).map (·.2)

def has (m : Matches) (name : String) : Bool := m.flags.contains name

def count (m : Matches) (name : String) : Nat := m.counts.count name

end Matches

/-- A port as it is given on the command line: digits behind an optional sign, within 16 bits. -/
def portValue? (s : String) : Option UInt16 :=
  match s.toList with
  | '-' :: ds =>
    if !ds.isEmpty && ds.all (· == '0') then some 0 else none
  | _ => Config.readPort? s

def checkValue (kind : ValueKind) (v : String) : Except ArgumentError Unit :=
  match kind with
  | .text => .ok ()
  | .path => if v.isEmpty then .error .invalidValue else .ok ()
  | .port => if (portValue? v).isSome then .ok () else .error .valueValidation

structure Pending where
  name : String
  kind : ValueKind
  value : Option String
  deriving DecidableEq, Repr, Inhabited

structure Progress where
  found : Matches := {}
  pending : Option Pending := none
  nextPositional : Nat := 0
  /-- Whether `--` was seen, behind which everything is positional. -/
  onlyPositionals : Bool := false
  deriving DecidableEq, Repr, Inhabited

namespace Progress

def awaitsValue (p : Progress) : Bool :=
  match p.pending with
  | some ⟨_, _, none⟩ => true
  | _ => false

def settle (p : Progress) : Except ArgumentError Progress :=
  match p.pending with
  | none => .ok p
  | some ⟨_, _, none⟩ => .error .invalidValue
  | some ⟨name, kind, some v⟩ => do
    if (p.found.value? name).isSome then throw .argumentConflict
    checkValue kind v
    return { p with
      found := { p.found with values := p.found.values ++ [(name, v)] }, pending := none }

/-- Takes in an option, with the value that is attached to it if there is one. -/
def takeOption (p : Progress) (o : OptionSpec) (attached : Option String) :
    Except ArgumentError Progress :=
  match o.kind with
  | .value kind => do
    let p ← p.settle
    return { p with pending := some ⟨o.long, kind, attached⟩ }
  | kind => do
    if attached.isSome then throw .tooManyValues
    let p ← p.settle
    match kind with
    | .help => throw .displayHelp
    | .version => throw .displayVersion
    | .count => return { p with found := { p.found with counts := p.found.counts ++ [o.long] } }
    | _ =>
      if p.found.has o.long then throw .argumentConflict
      return { p with found := { p.found with flags := p.found.flags ++ [o.long] } }

variable (spec : LevelSpec)

/-- An argument that starts with `--`. -/
def takeLong (p : Progress) (body : List Char) : Except ArgumentError Progress :=
  let name := String.ofList (body.takeWhile (· != '='))
  let attached :=
    match body.dropWhile (· != '=') with
    | _ :: v => some (String.ofList v)
    | [] => none
  match spec.options.find? (·.long == name) with
  | some o => p.takeOption o attached
  | none => .error .unknownArgument

/-- An argument that starts with a single dash: flags, the last of which may have the rest as its
value. -/
def takeShort (p : Progress) : List Char → Except ArgumentError Progress
  | [] => .ok p
  | c :: rest =>
    match spec.options.find? (·.short == some c) with
    | none => .error .unknownArgument
    | some o =>
      match o.kind, rest with
      | .value _, [] => p.takeOption o none
      | .value _, '=' :: v => p.takeOption o (some (String.ofList v))
      | .value _, v => p.takeOption o (some (String.ofList v))
      | _, _ => do takeShort (← p.takeOption o none) rest

/-- What an argument is that no position is left for. -/
def surplus (p : Progress) (arg : String) : ArgumentError :=
  if spec.subcommands.isEmpty || (p.onlyPositionals && spec.subcommands.contains arg) then
    .unknownArgument
  else .invalidSubcommand

def takePositional (p : Progress) (arg : String) : Except ArgumentError Progress :=
  match spec.positionals[p.nextPositional]? with
  | none => .error (p.surplus spec arg)
  | some (name, kind) => do
    let p ← p.settle
    return { p with
      pending := some ⟨name, kind, some arg⟩, nextPositional := p.nextPositional + 1 }

def take (p : Progress) (arg : String) : Except ArgumentError Progress :=
  if p.onlyPositionals then p.takePositional spec arg
  else
    match arg.toList with
    | ['-', '-'] => .ok { p with onlyPositionals := true }
    | '-' :: '-' :: body => p.takeLong spec body
    | '-' :: c :: rest => p.takeShort spec (c :: rest)
    | _ =>
      match p.pending with
      | some ⟨name, kind, none⟩ => .ok { p with pending := some ⟨name, kind, some arg⟩ }
      | _ => p.takePositional spec arg

end Progress

/-- Reads one level up to its subcommand: what was found before it, and the subcommand with the
arguments behind it. -/
def readLevel (spec : LevelSpec) (p : Progress) :
    List String → Except ArgumentError (Progress × Option (String × List String))
  | [] => .ok (p, none)
  | arg :: rest =>
    if !p.onlyPositionals && !p.awaitsValue && spec.subcommands.contains arg then
      .ok (p, some (arg, rest))
    else do readLevel spec (← p.take spec arg) rest

def globalOptions : List OptionSpec :=
  [⟨"verbose", some 'v', .count⟩, ⟨"config", none, .value .path⟩, ⟨"help", some 'h', .help⟩]

def graphLevel : LevelSpec where
  name := "graph"
  positionals := [("owner", .text), ("name", .text)]
  options := [⟨"folder", none, .value .text⟩, ⟨"path", none, .value .path⟩,
    ⟨"format", some 'f', .value .text⟩, ⟨"json", none, .flag⟩, ⟨"pretty", none, .flag⟩,
    ⟨"progress", none, .flag⟩, ⟨"plain", none, .flag⟩] ++ globalOptions

def importsLevel : LevelSpec where
  name := "imports"
  positionals := [("file", .path)]
  options := [⟨"json", none, .flag⟩, ⟨"pretty", none, .flag⟩] ++ globalOptions

def cloneLevel : LevelSpec where
  name := "clone"
  positionals := [("url", .text)]
  options := ⟨"folder", none, .value .text⟩ :: globalOptions

def serveLevel : LevelSpec where
  name := "serve"
  options := [⟨"port", some 'p', .value .port⟩, ⟨"host", none, .value .text⟩] ++ globalOptions

def configLevel : LevelSpec where
  name := "config"
  options := globalOptions

def levels : List LevelSpec := [graphLevel, importsLevel, cloneLevel, serveLevel, configLevel]

def rootLevel : LevelSpec where
  name := "rgraph"
  options := ⟨"version", some 'V', .version⟩ :: globalOptions
  subcommands := levels.map LevelSpec.name ++ ["help"]

inductive Task where
  | graph (owner repo : String) (folder path : Option String) (format : String)
      (json pretty progress plain : Bool)
  | imports (file : String) (json pretty : Bool)
  | clone (url : String) (folder : Option String)
  | serve (port : Option UInt16) (host : Option String)
  | config
  deriving DecidableEq, Repr, Inhabited

structure Invocation where
  verbose : Nat
  config : Option String
  task : Task
  deriving DecidableEq, Repr, Inhabited

def required (m : Matches) (name : String) : Except ArgumentError String :=
  match m.value? name with
  | some v => .ok v
  | none => .error .missingRequiredArgument

def taskOf (name : String) (m : Matches) : Except ArgumentError Task :=
  if name == "graph" then do
    return .graph (← required m "owner") (← required m "name") (m.value? "folder")
      (m.value? "path") ((m.value? "format").getD "tree") (m.has "json") (m.has "pretty")
      (m.has "progress") (m.has "plain")
  else if name == "imports" then do
    return .imports (← required m "file") (m.has "json") (m.has "pretty")
  else if name == "clone" then do
    return .clone (← required m "url") (m.value? "folder")
  else if name == "serve" then
    .ok (.serve (m.value? "port" >>= portValue?) (m.value? "host"))
  else .ok .config

/-- What `help` answers: the names behind it have to lead to a subcommand. -/
def helpOn : List String → ArgumentError
  | [] => .displayHelp
  | [name] => if rootLevel.subcommands.contains name then .displayHelp else .invalidSubcommand
  | _ => .invalidSubcommand

def readTask (name : String) (args : List String) : Except ArgumentError (Task × Matches) := do
  match levels.find? (·.name == name) with
  | none => throw .invalidSubcommand
  | some spec =>
    let (p, _) ← readLevel spec {} args
    let p ← p.settle
    return (← taskOf name p.found, p.found)

/-- Flags can be counted up to 255. -/
def maxCount : Nat := 255

def parse (args : List String) : Except ArgumentError Invocation := do
  let (outer, sub) ← readLevel rootLevel {} args
  match sub with
  | none =>
    let outer ← outer.settle
    if outer.found.values.isEmpty && outer.found.counts.isEmpty then throw .displayHelpOnMissing
    throw .missingSubcommand
  | some (name, rest) =>
    if name == "help" then throw (helpOn rest)
    let (task, inner) ← readTask name rest
    let outer := (← outer.settle).found
    let verbose :=
      if inner.count "verbose" == 0 then outer.count "verbose" else inner.count "verbose"
    return ⟨min verbose maxCount, inner.value? "config" <|> outer.value? "config", task⟩

end ImportAtlas.Command
