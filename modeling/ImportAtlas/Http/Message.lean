import ImportAtlas.Json.Printer

/-!
# HTTP messages

Requests and responses, as far as the service looks at them.
-/

namespace ImportAtlas.Http

structure Request where
  method : String := "GET"
  uri : String
  headers : List (String × String) := []
  body : String := ""
  deriving Repr, Inhabited

structure Response where
  status : Nat
  contentType : Option String := none
  allow : Option String := none
  allowOrigin : Option String := none
  body : String := ""
  deriving DecidableEq, Repr, Inhabited

namespace Request

/-- The value of a header. Names of headers are alike in either case. -/
def header? (r : Request) (name : String) : Option String :=
  (r.headers.find? fun h => h.1.toList.map Char.toLower == name.toList).map (·.2)

def target (r : Request) : List Char :=
  let cs := r.uri.toList.takeWhile (· != '#')
  match cs with
  | '/' :: _ => cs
  | _ =>
    match cs.dropWhile (· != ':') with
    | ':' :: '/' :: '/' :: rest => rest.dropWhile fun c => c != '/' && c != '?'
    | _ => cs

def path (r : Request) : String :=
  let p := r.target.takeWhile (· != '?')
  if p.isEmpty then "/" else String.ofList p

def query (r : Request) : String := String.ofList ((r.target.dropWhile (· != '?')).drop 1)

end Request

namespace Response

def ofJson (status : Nat) (j : Json) : Response where
  status := status
  contentType := some "application/json"
  body := j.render .compact

def ofText (status : Nat) (text : String) : Response where
  status := status
  contentType := some "text/plain; charset=utf-8"
  body := text

def ofStatus (status : Nat) : Response where
  status := status

def error (status : Nat) (message : String) : Response :=
  ofJson status (.obj [("error", .str message)])

end Response

end ImportAtlas.Http
