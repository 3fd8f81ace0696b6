import ImportAtlas.Http.Message
import ImportAtlas.Json.Reader

/-!
# Requests to clone

The body of a request to clone a repository: an object with an address and perhaps a folder, or an
array of these two. It is judged from front to back: what comes first decides whether the body is no
JSON or is JSON of another kind. What follows the value is not looked at.
-/

namespace ImportAtlas.Http

open Json

structure CloneRequest where
  repoUrl : Option String := none
  folder : Option String := none
  deriving DecidableEq, Repr, Inhabited

inductive BodyError where
  /-- The body is no JSON. -/
  | syntaxError
  /-- The body is JSON, but no request to clone. -/
  | dataError
  deriving DecidableEq, Repr, Inhabited

namespace CloneRequest

/-- A value of another kind than the one asked for. Brackets are not looked into. -/
def otherKind (cs : List Char) : BodyError :=
  match cs with
  | '[' :: _ | '{' :: _ => .dataError
  | _ => if (readValue? 0 cs).isSome then .dataError else .syntaxError

def ofOption {α : Type} : Option α → Except BodyError α
  | some a => .ok a
  | none => .error .syntaxError

def readField (cs : List Char) : Except BodyError (Option String × List Char) :=
  match skipSpace cs with
  | 'n' :: 'u' :: 'l' :: 'l' :: rest => .ok (none, rest)
  | '"' :: rest => do
    let (s, rest) ← ofOption (readString? ('"' :: rest))
    return (some s, rest)
  | rest => .error (otherKind rest)

def readColon (cs : List Char) : Except BodyError (List Char) :=
  match skipSpace cs with
  | ':' :: rest => .ok rest
  | _ => .error .syntaxError

/-- The members of an object from the name of one on. The first argument bounds their number; the
next two are the fields seen so far. -/
def readMembers : Nat → Option (Option String) → Option (Option String) → List Char →
    Except BodyError CloneRequest
  | 0, _, _, _ => .error .syntaxError
  | fuel + 1, url, folder, cs => do
    let (name, rest) ← ofOption (readString? (skipSpace cs))
    if name == "repoUrl" then
      if url.isSome then throw .dataError
      let (value, rest) ← readColon rest >>= readField
      continueWith fuel (some value) folder rest
    else if name == "folder" then
      if folder.isSome then throw .dataError
      let (value, rest) ← readColon rest >>= readField
      continueWith fuel url (some value) rest
    else
      let rest ← readColon rest
      let (_, rest) ← ofOption (readValue? rest.length (skipSpace rest))
      continueWith fuel url folder rest
where
  continueWith (fuel : Nat) (url folder : Option (Option String)) (cs : List Char) :
      Except BodyError CloneRequest :=
    match skipSpace cs with
    | ',' :: rest => readMembers fuel url folder rest
    | '}' :: _ => .ok ⟨url.join, folder.join⟩
    | _ => .error .syntaxError

/-- The two items of an array. -/
def readItems (cs : List Char) : Except BodyError CloneRequest := do
  if (skipSpace cs).head? == some ']' then throw .dataError
  let (url, rest) ← readField cs
  match skipSpace rest with
  | ']' :: _ => throw .dataError
  | ',' :: rest =>
    if (skipSpace rest).head? == some ']' then throw .syntaxError
    let (folder, rest) ← readField rest
    match skipSpace rest with
    | ']' :: _ => return ⟨url, folder⟩
    | _ => throw .syntaxError
  | _ => throw .syntaxError

def parse (body : String) : Except BodyError CloneRequest :=
  match skipSpace body.toList with
  | '[' :: rest => readItems rest
  | '{' :: rest =>
    match skipSpace rest with
    | '}' :: _ => .ok {}
    | rest => readMembers (rest.length + 1) none none rest
  | rest => .error (otherKind rest)

/-- Whether a content type is that of JSON, or of a format that is written in JSON. -/
def isJsonType (contentType : String) : Bool :=
  let cs := (contentType.toList.map Char.toLower).takeWhile (· != ';')
  match cs.dropWhile (· != '/') with
  | _ :: sub =>
    cs.takeWhile (· != '/') == "application".toList &&
      (sub.takeWhile (· != '+') == "json".toList ||
        (sub.contains '+' && (sub.reverse.takeWhile (· != '+')).reverse == "json".toList))
  | [] => false

def ofRequest (r : Request) : Except Response CloneRequest :=
  if !((r.header? "content-type").map isJsonType).getD false then
    .error (.ofText 415 "Expected request with `Content-Type: application/json`")
  else
    match parse r.body with
    | .ok c => .ok c
    | .error .syntaxError => .error (.ofText 400 "Failed to parse the request body as JSON")
    | .error .dataError =>
      .error (.ofText 422 "Failed to deserialize the JSON body into the target type")

end CloneRequest

end ImportAtlas.Http
