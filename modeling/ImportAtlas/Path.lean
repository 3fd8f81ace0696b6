import ImportAtlas.Text.Fields

/-!
# Repository paths

Paths inside a repository are texts whose segments are parted by `/` or `\`. `normalize` gives the
one written form of a path: leading `..` segments that nothing precedes, then plain segments,
joined by `/`.
-/

namespace ImportAtlas.Path

open Text

def isSeparator (c : Char) : Bool := c == '/' || c == '\\'

def isSlash (c : Char) : Bool := c == '/'

/-- The path with `/` as its only separator. -/
def slashed (path : String) : String := replaceChar (· == '\\') '/' path

/-- One segment put on a stack of segments, the last one on top: empty segments and `.` add
nothing, and `..` takes away a plain segment below it. -/
def push (stack : List String) (segment : String) : List String :=
  if segment == "" || segment == "." then stack
  else if segment == ".." then
    match stack with
    | [] => [".."]
    | top :: rest => if top == ".." then ".." :: stack else rest
  else segment :: stack

def foldSegments (segments : List String) : List String := (segments.foldl push []).reverse

def normalize (path : String) : String :=
  joinFields '/' (foldSegments (fields isSeparator path))

/-- The segments of a path in written form. The empty path has none. -/
def segments (path : String) : List String := if path.isEmpty then [] else fields isSlash path

/-- Whether a written form leads out of the folder it starts from. -/
def leavesRoot (normalized : String) : Bool :=
  normalized == ".." || (['.', '.', '/'] : List Char).isPrefixOf normalized.toList

/-- The part before the last `/`. -/
def directory? (path : String) : Option String :=
  (beforeLast? isSlash path.toList).map String.ofList

/-- The part after the last `/`. -/
def lastSegment (path : String) : String := String.ofList (afterLast isSlash path.toList)

/-- The part after the last separator of either kind. -/
def fileName (path : String) : String := String.ofList (afterLast isSeparator path.toList)

/-- What follows the last dot of the file name, if it has one. -/
def extension? (path : String) : Option String :=
  let name := (fileName path).toList
  if name.contains '.' then some (String.ofList (afterLast (· == '.') name)) else none

@[simp] theorem push_empty (stack : List String) : push stack "" = stack := by simp [push]

@[simp] theorem push_dot (stack : List String) : push stack "." = stack := by simp [push]

theorem push_plain (stack : List String) {segment : String} (h₀ : segment ≠ "") (h₁ : segment ≠ ".")
    (h₂ : segment ≠ "..") : push stack segment = segment :: stack := by
  simp [push, h₀, h₁, h₂]

end ImportAtlas.Path
