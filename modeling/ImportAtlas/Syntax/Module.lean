import ImportAtlas.Syntax.Expression

/-!
# Imports and exports

Statements that tie one file to another. The string that names the other file is the source of the
statement, whatever may be missing before it.
-/

namespace ImportAtlas.Syntax

open ImportAtlas.Syntax.Parser

variable (g : Grammar)

/-- What is told of the imported file behind its name. -/
def importAttributes : Parser Unit := do
  let t ← peek
  if t.is "with" || (t.is "assert" && !t.startsLine) then
    shift
    objectMembers g

def sourceString : Parser Unit := do
  expectKind .string
  label .source

def importSource : Parser Unit := do
  sourceString
  importAttributes g
  semicolon

def entityName : Parser Unit := do
  let b ← beginning
  word
  repeatWhile do
    if ← nextIs "." then
      member b
      return true
    else return false

def nameList : Parser Unit :=
  node .importClause do
    expect "\x7b"
    separated "," "\x7d" do
      repeatWhile do
        let t ← peek
        if t.kind == .word || t.kind == .string then
          shift
          return true
        else return false
    expect "\x7d"

/-- All names of a file, under one that it exports them by. -/
def exportedNamespace : Parser Unit := do
  expect "*"
  if ← accept "as" then
    if (← peek).kind == .string then shift else word

def importedNamespace : Parser Unit := do
  expect "*"
  if (← accept "as") && (← peek).kind == .word then shift

/-- The one name of a file that needs no braces. Further words in its line are passed over. -/
def importedDefault : Parser Unit := do
  word
  repeatWhile do
    let t ← peek
    if t.kind == .word && !t.is "from" && !t.startsLine then
      shift
      return true
    else return false

/-- Another name for a namespace, or for all that a file exports. -/
def importEquals : Parser Unit := do
  let b ← beginning
  word
  expect "="
  if (← nextIs "require") && (← secondIs "(") then
    shift
    shift
    sourceString
    expect ")"
    reduce .importRequireClause b
  else entityName

/-- Whether the next word tells that only types are imported, and is no name itself. -/
def isTypeModifier : Parser Bool := do
  let u ← peekSecond
  return (← nextIsAny ["type", "typeof"]) &&
    (u.isAny ["\x7b", "*"] ||
      (u.kind == .word && (!u.is "from" || u.next.isAny ["from", "=", ","])))

def importStatement : Parser Unit :=
  node .importStatement do
    expect "import"
    if (← peek).kind == .string then importSource g
    else
      if ← isTypeModifier then shift
      if (← secondIs "=") && (← hasTypes) then
        importEquals
        semicolon
      else
        if (← peek).kind == .word then
          importedDefault
          let _ ← accept ","
        if ← nextIs "*" then importedNamespace
        else if ← nextIs "\x7b" then nameList
        let _ ← accept "from"
        importSource g

/-- Another name for a namespace. Only what is not exported may be another name for a file. -/
def namespaceAlias : Parser Unit :=
  node .importStatement do
    expect "import"
    word
    expect "="
    entityName
    semicolon

def exportedDefault : Parser Unit := do
  decorators g
  let u ← peekSecond
  if ← nextIsAny ["function", "class"] then g .statement
  else if (← nextIs "async") && u.is "function" then g .statement
  else if (← hasTypes) && (← nextIsAny ["abstract", "interface"]) && u.kind == .word then
    g .statement
  else
    g (.assignment true)
    semicolon

/-- What another file exports may be exported in turn. -/
def exportedFrom : Parser Unit := do
  if ← accept "from" then
    expectKind .string
    importAttributes g
  semicolon

def exportStatement : Parser Unit :=
  node .exportStatement do
    expect "export"
    let u ← peekSecond
    if ← accept "default" then exportedDefault g
    else if ← nextIs "*" then
      exportedNamespace
      exportedFrom g
    else if ← nextIs "\x7b" then
      nameList
      exportedFrom g
    else if (← hasTypes) && (← nextIs "type") && u.isAny ["\x7b", "*"] then
      shift
      if u.is "*" then exportedNamespace else nameList
      exportedFrom g
    else if (← hasTypes) && (← accept "=") then
      expression g true
      semicolon
    else if (← hasTypes) && (← nextIs "as") && u.is "namespace" then
      shift
      shift
      word
      semicolon
    else if (← hasTypes) && (← nextIs "import") then namespaceAlias
    else g .statement

end ImportAtlas.Syntax
