import ImportAtlas.Analysis
import ImportAtlas.Command.Arguments
import ImportAtlas.Command.LogFilter
import ImportAtlas.Http.Api
import ImportAtlas.Render
import ImportAtlas.Source

/-!
# Running a command line

What the program prints for a command line, and the status it ends with. Results go to the standard
output; the log, and after it the messages to the user, go to the standard error. A run that serves
also answers the requests that reach it.
-/

namespace ImportAtlas.Command

/-- What becomes of a server. -/
inductive Service where
  /-- What it runs on does not start. -/
  | unstarted (reason : String)
  /-- Its address cannot be listened on. -/
  | unbound (reason : String)
  /-- The requests that reach it, each answered before the next one is read, and what breaks the
  service off after them if anything does. -/
  | bound (requests : List Http.Request) (failure : Option String)
  deriving Repr, Inhabited

structure Session where
  workspace : Workspace
  environment : Environment := {}
  /-- How long an analysis takes, as it is written down. -/
  elapsed : String := ""
  /-- What becomes of a server on an address. -/
  serve : String → Service

structure Outcome where
  code : Nat
  stdout : String := ""
  stderr : String := ""
  /-- The answers to the requests of a run that serves. -/
  responses : List Http.Response := []
  workspace : Workspace

/-- What a task gives out, apart from the reason that it fails for. -/
structure Printed where
  stdout : String := ""
  stderr : String := ""
  responses : List Http.Response := []

abbrev TaskResult := Logged (Workspace × Printed × Option String)

def message (styled : String) : String := "\n" ++ styled ++ "\n\n"

def version : String := "rgraph 0.3.0"

def usage : String :=
  "Usage: rgraph [OPTIONS] <COMMAND>\n\nCommands: graph, imports, clone, serve, config, help\n"

/-- The format to print a graph in. `--json` takes precedence over any name. -/
def formatOf (format : String) (json : Bool) : Except String GraphFormat :=
  if json then .ok .json
  else
    match GraphFormat.ofName? format with
    | some f => .ok f
    | none =>
      .error ("Unknown format '" ++ format ++ "'. Supported: tree, table, dot, json")

def summary (stats : GraphStats) (elapsed : String) : String :=
  "Found " ++ toString stats.totalFiles ++ " files, " ++ toString stats.totalImports ++
    " imports (" ++ stats.analyzedFolder ++ ") in " ++ elapsed ++ "\n"

variable (session : Session) (config : Config)

def runGraph (owner repo : String) (folder path : Option String) (format : String)
    (json isPretty : Bool) : TaskResult := do
  let ws := session.workspace
  match formatOf format json with
  | .error e => return (ws, {}, some e)
  | .ok format =>
    let locator :=
      match path with
      | some root => Locator.fixed root
      | none => Locator.store config.reposDir
    match ← (Source.builder config).buildResponse ws.host locator owner repo folder with
    | .error e => return (ws, {}, some e.message)
    | .ok r =>
      return (ws,
        { stdout := Render.graph .plain format isPretty r ++ (if format == .json then "\n" else "")
          stderr := summary r.stats session.elapsed }, none)

def runImports (file : String) (json isPretty : Bool) : TaskResult := do
  let ws := session.workspace
  match ws.host.readText file with
  | .error e => return (ws, {}, some ("Failed to read " ++ file ++ ": " ++ e.message))
  | .ok text =>
    let path := Path.slashed file
    let report := ParseReport.ofImports path (← Source.fileImports path text)
    let warning :=
      if report.language.isNone then
        message (Style.yellow
          (file ++ " is not a JavaScript/TypeScript file (.js, .jsx, .ts, .tsx)"))
      else ""
    if json then
      return (ws,
        { stdout := report.toJson.render (.ofPretty isPretty) ++ "\n", stderr := warning }, none)
    else
      return (ws,
        { stdout := Render.imports .plain report
          stderr := warning ++ "\nFound " ++ toString report.importCount ++ " imports\n" }, none)

def runClone (url : String) (folder : Option String) : TaskResult := do
  match ← Checkout.clone config.reposDir session.workspace url folder with
  | (ws, .error e) => return (ws, {}, some e.message)
  | (ws, .ok c) =>
    return (ws,
      { stdout := "Next: rgraph graph " ++ c.owner ++ " " ++ c.name ++
          (match c.analyzedFolder with
          | some folder => " --folder " ++ folder
          | none => "") ++ "\n"
        stderr := message (Style.green
          ("Repository " ++ c.owner ++ "/" ++ c.name ++ " ready at " ++ c.localPath)) }, none)

def serverLines (address reposDir : String) : List String :=
  ["Starting repograph HTTP server...", "  Address: http://" ++ address, "  Repos:   " ++ reposDir,
    "", "Endpoints:", "  GET  /health",
    "  GET  /api/graph?owner=<owner>&name=<name>&folder=<folder>",
    "  GET  /api/parse/test?owner=<owner>&name=<name>&path=<path>",
    "  GET  /api/file?owner=<owner>&name=<name>&path=<path>", "  POST /api/repo/clone",
    "  DELETE /api/repo?owner=<owner>&name=<name>", "", "Press Ctrl+C to stop."]

def runServe (port : Option UInt16) (host : Option String) : TaskResult := do
  let ws := session.workspace
  let address :=
    host.getD config.server.host ++ ":" ++ toString (port.getD config.server.port).toNat
  let stdout := Text.unlines (serverLines address config.reposDir)
  Logged.tell .cli .info ("Starting HTTP server on " ++ address)
  match session.serve address with
  | .unstarted reason => return (ws, { stdout }, some reason)
  | .unbound reason =>
    return (ws, { stdout }, some ("Failed to bind to " ++ address ++ ": " ++ reason))
  | .bound requests failure =>
    Logged.tell .server .info ("Server listening on " ++ address)
    let (ws, responses) ← Http.Api.respondAll config ws requests
    return (ws, { stdout, responses }, failure.map ("Server error: " ++ ·))

def runConfig : TaskResult :=
  match config.toToml? with
  | some text => pure (session.workspace, { stdout := text }, none)
  | none =>
    pure (session.workspace, {},
      some "Failed to serialize config: out-of-range value for u64 type")

def runTask : Task → TaskResult
  | .graph owner repo folder path format json isPretty _ _ =>
    runGraph session config owner repo folder path format json isPretty
  | .imports file json isPretty => runImports session file json isPretty
  | .clone url folder => runClone session config url folder
  | .serve port host => runServe session config port host
  | .config => runConfig session config

def runInvocation (i : Invocation) : TaskResult := do
  match ← Config.load session.workspace.host session.environment i.config with
  | .error e => return (session.workspace, {}, some e.message)
  | .ok config => runTask session config i.task

def shownLog (verbose : Nat) (log : List Log.Entry) : String :=
  let filter :=
    match session.environment.get? "RUST_LOG" with
    | some text => LogFilter.parse text
    | none => LogFilter.ofVerbosity verbose
  let shown := log.filter fun e => e.level.rank ≤ filter.rankFor (logTarget e.area)
  String.ofList (shown.flatMap fun e => (logLine session.workspace.clock e).toList)

def refuse (e : ArgumentError) : Outcome :=
  let workspace := session.workspace
  match e with
  | .displayVersion => { code := 0, stdout := version ++ "\n", workspace }
  | .displayHelp => { code := 0, stdout := usage, workspace }
  | _ => { code := 2, stderr := usage, workspace }

def run (args : List String) : Outcome :=
  match parse args with
  | .error e => refuse session e
  | .ok i =>
    let ⟨(workspace, printed, failure), log⟩ := runInvocation session i
    let shown := shownLog session i.verbose log ++ printed.stderr
    let { stdout, responses, .. } := printed
    match failure with
    | none => { code := 0, stdout, stderr := shown, responses, workspace }
    | some e =>
      { code := 1, stdout, stderr := shown ++ message (Style.red ("Error: " ++ e)), responses,
        workspace }

end ImportAtlas.Command
