import ImportAtlas.Path
import ImportAtlas.Text.Blank

/-!
# Excluded folders

The folder names that a walk does not enter: those of build output and dependencies, and those that
are asked for besides.
-/

namespace ImportAtlas.Exclusions

open Text

def standard : List String := ["node_modules", ".git", "dist", "build", ".next", "coverage"]

/-- A name without surrounding blanks and, inside those, without surrounding slashes. -/
def trimName (name : String) : String :=
  String.ofList (stripEnds Path.isSlash (stripEnds isBlank name.toList))

def add (names : List String) (name : String) : List String :=
  if trimName name == "" || names.contains (trimName name) then names
  else names ++ [trimName name]

def withExtra (extra : List String) : List String := extra.foldl add standard

end ImportAtlas.Exclusions
