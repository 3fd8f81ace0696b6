import ImportAtlas.Path
import ImportAtlas.Text.Blank

/-!
# Scopes

A scope is the folder that an analysis is limited to, as a user writes it. Its written form has
plain segments only; the whole repository is the scope without any.
-/

namespace ImportAtlas.Scope

open Text

/-- The segments that count: neither empty nor `.`. -/
def plainSegments (path : String) : List String :=
  (fields Path.isSlash path).filter fun s => !(s == "" || s == ".")

/-- A scope without surrounding blanks and leading slashes, its separators all `/`. -/
def clean (scope : String) : String :=
  String.ofList ((Path.slashed (trim scope)).toList.dropWhile Path.isSlash)

/-- The written form of a scope, `none` for the whole repository. A scope with a `:` or with a `..`
segment is no folder of any repository and is refused. -/
def normalize (scope : String) : Except Unit (Option String) :=
  let cleaned := clean scope
  let segments := plainSegments cleaned
  if cleaned.contains ':' || segments.contains ".." then .error ()
  else if segments.isEmpty then .ok none
  else .ok (some (joinFields '/' segments))

end ImportAtlas.Scope
