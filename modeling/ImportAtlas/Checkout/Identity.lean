import ImportAtlas.Text.Fields
import ImportAtlas.Text.Blank

/-!
# Repository identities

An owner and a name, each of which can stand as one folder name, and the GitHub addresses that give
them.
-/

namespace ImportAtlas

open Text

inductive IdentityPart where
  | owner
  | name
  deriving DecidableEq, Repr, Inhabited

def IdentityPart.label : IdentityPart → String
  | owner => "owner"
  | name => "name"

namespace Identity

def isForbidden (c : Char) : Bool := c == '/' || c == '\\' || c == ':' || c == '\x00'

/-- Whether a text can stand as one folder name below the checkouts. -/
def isValidPart (s : String) : Bool :=
  s != "" && s != "." && s != ".." && !s.toList.any isForbidden

/-- The rest of a text behind a given start. -/
def dropStart? : List Char → List Char → Option (List Char)
  | [], cs => some cs
  | _ :: _, [] => none
  | a :: as, c :: cs => if a == c then dropStart? as cs else none

def dropOptional (start cs : List Char) : List Char := (dropStart? start cs).getD cs

/-- A repository's name: the text without a closing `.git`, unless nothing else is there. -/
def dropGitEnd (cs : List Char) : List Char :=
  match dropStart? ['t', 'i', 'g', '.'] cs.reverse with
  | some (c :: rest) => (c :: rest).reverse
  | _ => cs

/-- The owner and the name in `owner/name`, where the name may end in `.git`. -/
def ownerAndName? (cs : List Char) : Option (String × String) :=
  let owner := cs.takeWhile (· != '/')
  match cs.dropWhile (· != '/') with
  | _ :: tail =>
    if owner.isEmpty || tail.isEmpty || tail.contains '/' then none
    else some (String.ofList owner, String.ofList (dropGitEnd tail))
  | [] => none

/-- The text without one closing slash. -/
def dropClosingSlash (cs : List Char) : List Char :=
  match cs.reverse with
  | '/' :: rest => rest.reverse
  | _ => cs

def webPart? (cs : List Char) : Option (List Char) := do
  let rest ← dropStart? "http".toList cs
  let rest ← dropStart? "://".toList (dropOptional ['s'] rest)
  let rest ← dropStart? "github.com/".toList (dropOptional "www.".toList rest)
  return dropClosingSlash rest

/-- The owner and the name that a GitHub address gives. -/
def ofGithubUrl? (url : String) : Option (String × String) := do
  let cs := stripEnds isBlank url.toList
  let part ← webPart? cs <|> dropStart? "git@github.com:".toList cs
  let (owner, name) ← ownerAndName? part
  if isValidPart owner && isValidPart name then some (owner, name) else none

end Identity

end ImportAtlas
