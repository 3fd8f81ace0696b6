import ImportAtlas.Analysis
import ImportAtlas.Http.CloneRequest
import ImportAtlas.Http.Query
import ImportAtlas.Json.Graph
import ImportAtlas.Source

/-!
# The HTTP service

Which request is answered by what. Every failure is answered by a JSON object with its message; the
status tells whether something is missing, was asked for wrongly, or went wrong here. Any origin may
ask.
-/

namespace ImportAtlas.Http

open Text

abbrev Handler := Config → Workspace → Request → Logged (Workspace × Response)

namespace Api

/-- A field that is left out and one that is blank are alike. -/
def nonBlank (value : Option String) : Option String := value.filter (!isAllBlank ·)

/-- The answer to a failure: 404 if something is missing, else a status of the endpoint's own. -/
def failure (fallback : Nat) (e : CheckoutError) : Response :=
  .error (if e.isNotFound then 404 else fallback) e.message

/-- The answer to a query that gives a field twice. -/
def repeatedField (name : String) : Response :=
  .ofText 400 ("Failed to deserialize query string: duplicate field `" ++ name ++ "`")

def withFields (names : List String) (ws : Workspace) (r : Request)
    (answer : (String → Option String) → Logged (Workspace × Response)) :
    Logged (Workspace × Response) :=
  match queryFields names r.query with
  | .error name => pure (ws, repeatedField name)
  | .ok get => answer fun name => nonBlank (get name)

def health : Handler := fun _ ws _ =>
  pure (ws, .ofJson 200 (.obj [("status", .str "OK"), ("message", .str "Server is running")]))

def graph : Handler := fun config ws r =>
  withFields ["owner", "name", "folder"] ws r fun get =>
    match get "owner", get "name" with
    | some owner, some name => do
      match ← (Source.builder config).buildResponse ws.host (.store config.reposDir) owner name
          (get "folder") with
      | .ok g => return (ws, .ofJson 200 g.toJson)
      | .error e =>
        Logged.tell .server .error ("Graph build failed: " ++ e.message)
        return (ws, failure 500 e)
    | _, _ => pure (ws, .error 400 "owner and name query parameters are required")

def withFileFields (ws : Workspace) (r : Request)
    (answer : String → String → String → Logged Response) : Logged (Workspace × Response) :=
  withFields ["owner", "name", "path"] ws r fun get =>
    match get "owner", get "name", get "path" with
    | some owner, some name, some path => do return (ws, ← answer owner name path)
    | _, _, _ => pure (ws, .error 400 "owner, name, and path query parameters are required")

def parseTest : Handler := fun config ws r =>
  withFileFields ws r fun owner name path => do
    match Checkout.readSource config.reposDir ws.host owner name path with
    | .error e => return .error 400 e.message
    | .ok text =>
      let imports ← Source.fileImports path text
      return .ofJson 200 (ParseReport.ofImports path imports).toJson

def file : Handler := fun config ws r =>
  withFileFields ws r fun owner name path => do
    match Checkout.readSource config.reposDir ws.host owner name path with
    | .error e => return failure 400 e
    | .ok text =>
      return .ofJson 200 (.obj [("owner", .str owner), ("name", .str name), ("path", .str path),
        ("content", .str text)])

def checkoutJson (c : CheckoutInfo) : Json :=
  .obj [("owner", .str c.owner), ("name", .str c.name), ("url", .str c.url),
    ("localPath", .str c.localPath), ("clonedAt", .str c.clonedAt),
    ("analyzedFolder", Json.ofOption .str c.analyzedFolder)]

def cloneMessage (c : CheckoutInfo) : String :=
  "Repository cloned successfully" ++
    match c.analyzedFolder with
    | some folder => " (analyzing folder: /" ++ folder ++ ")"
    | none => ""

def clone : Handler := fun config ws r =>
  match CloneRequest.ofRequest r with
  | .error refusal => pure (ws, refusal)
  | .ok request =>
    match nonBlank request.repoUrl with
    | none => pure (ws, .error 400 "repoUrl is required")
    | some url =>
      if (Identity.ofGithubUrl? url).isNone then pure (ws, .error 400 "Invalid GitHub URL")
      else do
        let folder := nonBlank request.folder
        Logged.tell .server .info
          ("Clone request: " ++ url ++ " (" ++ folder.getD "entire repo" ++ ")")
        match ← Checkout.clone config.reposDir ws url folder with
        | (ws, .ok c) =>
          return (ws, .ofJson 200 (.obj [("message", .str (cloneMessage c)),
            ("data", checkoutJson c)]))
        | (ws, .error e) =>
          Logged.tell .server .error ("Clone failed: " ++ e.message)
          return (ws, failure 500 e)

def delete : Handler := fun config ws r =>
  withFields ["owner", "name"] ws r fun get =>
    match get "owner", get "name" with
    | some owner, some name => do
      match ← Checkout.delete config.reposDir ws.host owner name with
      | (host, .ok true) =>
        return ({ ws with host := host },
          .ofJson 200 (.obj [("message",
            .str ("Repository " ++ owner ++ "/" ++ name ++ " deleted"))]))
      | (_, .ok false) => return (ws, .error 404 ("Repository not found: " ++ owner ++ "/" ++ name))
      | (host, .error e) => return ({ ws with host := host }, failure 400 e)
    | _, _ => pure (ws, .error 400 "owner and name query parameters are required")

/-- The endpoint of a path: the method it takes, and what it does. -/
def route? (path : String) : Option (String × Handler) :=
  if path == "/health" then some ("GET", health)
  else if path == "/api/graph" then some ("GET", graph)
  else if path == "/api/parse/test" then some ("GET", parseTest)
  else if path == "/api/file" then some ("GET", file)
  else if path == "/api/repo/clone" then some ("POST", clone)
  else if path == "/api/repo" then some ("DELETE", delete)
  else none

/-- What `HEAD` asks for is what `GET` gives, without its body. -/
def allowed (method : String) : String := if method == "GET" then "GET,HEAD" else method

def withoutBody (r : Response) : Response := { r with body := "" }

/-- The answer before it is opened to other origins. -/
def answer (config : Config) (ws : Workspace) (r : Request) : Logged (Workspace × Response) :=
  match route? r.path with
  | none => pure (ws, .ofStatus (if r.method == "OPTIONS" then 200 else 404))
  | some (method, handler) =>
    if r.method == method then handler config ws r
    else if r.method == "HEAD" && method == "GET" then do
      let (ws, response) ← handler config ws r
      return (ws, withoutBody response)
    else
      pure (ws, { Response.ofStatus (if r.method == "OPTIONS" then 200 else 405) with
        allow := some (allowed method) })

def respond (config : Config) (ws : Workspace) (r : Request) : Logged (Workspace × Response) := do
  let (ws, response) ← answer config ws r
  return (ws, { response with allowOrigin := some "*" })

/-- The answers to requests that come one after another, each from what the ones before it left. -/
def respondAll (config : Config) : Workspace → List Request → Logged (Workspace × List Response)
  | ws, [] => pure (ws, [])
  | ws, r :: rs => do
    let (ws, response) ← respond config ws r
    let (ws, responses) ← respondAll config ws rs
    return (ws, response :: responses)

end Api

end ImportAtlas.Http
