import ImportAtlas.Path

/-!
# Languages

The two languages a source file may be written in, and the three dialects it may be read with. Both
follow from the extension of the file name alone.
-/

namespace ImportAtlas

inductive Language where
  | javaScript
  | typeScript
  deriving DecidableEq, Repr, Inhabited

namespace Language

def name : Language → String
  | javaScript => "javascript"
  | typeScript => "typescript"

def ofName? (text : String) : Option Language :=
  [javaScript, typeScript].find? (·.name == text)

def ofExtension? (ext : String) : Option Language :=
  if ext == "js" || ext == "jsx" then some javaScript
  else if ext == "ts" || ext == "tsx" then some typeScript
  else none

def ofPath? (path : String) : Option Language := Path.extension? path >>= ofExtension?

@[simp] theorem ofName?_name (l : Language) : ofName? l.name = some l := by
  cases l <;> decide

end Language

/-- How the text of a file is read. JSX belongs to JavaScript and to TSX. -/
inductive Dialect where
  | javaScript
  | typeScript
  | tsx
  deriving DecidableEq, Repr, Inhabited

namespace Dialect

def name : Dialect → String
  | javaScript => "JavaScript"
  | typeScript => "TypeScript"
  | tsx => "Tsx"

def ofName? (text : String) : Option Dialect :=
  [javaScript, typeScript, tsx].find? (·.name == text)

def ofExtension? (ext : String) : Option Dialect :=
  if ext == "js" || ext == "jsx" then some javaScript
  else if ext == "ts" then some typeScript
  else if ext == "tsx" then some tsx
  else none

def ofPath? (path : String) : Option Dialect := Path.extension? path >>= ofExtension?

def hasTypes : Dialect → Bool
  | javaScript => false
  | typeScript | tsx => true

end Dialect

def isSourceName (fileName : String) : Bool := (Dialect.ofPath? fileName).isSome

end ImportAtlas
