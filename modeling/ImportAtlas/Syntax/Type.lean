import ImportAtlas.Syntax.Group

/-!
# Types

Types may name a file: `import('./x').Y`, and `typeof` applies to calls. How the operators between
types bind does not matter for that, so they are read from left to right.
-/

namespace ImportAtlas.Syntax

open ImportAtlas.Syntax.Parser

variable (g : Grammar)

/-- A name with dots in it and arguments in angle brackets, or a call of one. -/
def typeQuery : Parser Unit := do
  let b ← beginning
  word
  repeatWhile do
    let t ← peek
    if t.isAny [".", "?."] then
      member b
      return true
    else if t.is "(" && !t.startsLine then
      call g b
      return true
    else return false
  if (← nextIs "<") && !(← peek).startsLine then
    typeArguments g
    reduce .type b

/-- The parameters of a function type, or a type in parentheses. -/
def typeGroup : Parser Unit :=
  node .type do
    expect "("
    separated "," ")" do
      let _ ← accept "..."
      g .type
      let _ ← accept "?"
      let _ ← ascription g
    expect ")"

def functionType : Parser Unit := do
  if ← nextIs "<" then typeArguments g
  typeGroup g
  expect "=>"
  g .type

def tupleType : Parser Unit := do
  expect "["
  separated "," "]" do
    let _ ← accept "..."
    g .type
    let _ ← accept "?"
    if ← ascription g then
      let _ ← accept "?"
  expect "]"

def typeMemberModifiers : List String := ["readonly", "get", "set", "static", "async"]

/-- A member of an object type: a property, a method, a signature, or a rule for all keys. -/
def typeMember : Parser Unit :=
  node .member do
    if ← nextIsAny ["+", "-"] then shift
    memberModifiers typeMemberModifiers
    if ← nextIsAny ["(", "<"] then signature g
    else if (← nextIs "new") && ((← secondIs "(") || (← secondIs "<")) then
      shift
      signature g
    else
      propertyName g
      if ← nextIsAny ["+", "-"] then shift
      let _ ← accept "?"
      if ← nextIsAny ["(", "<"] then signature g
      else
        let _ ← ascription g

def objectType : Parser Unit :=
  node .type do
    expect "\x7b"
    repeatWhile do
      if ← nextIs "\x7d" then return false
      unless ← nextIsAny [";", ","] do typeMember g
      if ← nextIsAny [";", ","] then shift
      return true
    expect "\x7d"

/-- Words that change the type behind them. -/
def typeOperators : List String := ["keyof", "unique", "readonly", "infer", "asserts"]

/-- Whether a word before this token is a name, whatever it means elsewhere. -/
def followsTypeName (t : Token) : Bool :=
  t.isEnd || t.startsLine ||
    t.isAny [":", ",", ")", ">", ";", "=", "|", "&", "]", "\x7d", "=>", ".", "?", "extends", "is"]

def typeWord : Parser Unit := do
  let t ← peek
  let u ← peekSecond
  if followsTypeName u then typeQuery g
  else if t.isAny typeOperators && !u.is "<" then
    shift
    g .type
  else if t.is "typeof" then
    shift
    typeQuery g
  else if t.is "new" || (t.is "abstract" && u.is "new") then
    let _ ← accept "abstract"
    expect "new"
    functionType g
  else if t.is "import" then typeQuery g
  else
    shift
    if ← nextIs "<" then typeArguments g

def typeOperand : Parser Unit := do
  let b ← beginning
  let t ← peek
  match t.kind with
  | .word => typeWord g
  | .string | .number => shift
  | .mark =>
    match t.text with
    | "(" =>
      typeGroup g
      if ← accept "=>" then g .type
    | "<" | "<<" => functionType g
    | "[" => tupleType g
    | "\x7b" => objectType g
    | "\x60" => template (g .type)
    | "-" =>
      shift
      expectKind .number
    | "?" | "*" =>
      shift
      unless followsTypeName (← peek) do g .type
    | _ => giveUp
  | _ => giveUp
  repeatWhile do
    let t ← peek
    if t.is "[" && !t.startsLine then
      shift
      unless ← nextIs "]" do g .type
      expect "]"
      return true
    else return false
  reduce .type b

def type : Parser Unit :=
  node .type do
    if ← nextIsAny ["|", "&"] then shift
    typeOperand g
    repeatWhile do
      if ← nextIsAny ["|", "&"] then
        shift
        typeOperand g
        return true
      else return false
    let t ← peek
    if t.is "is" && !t.startsLine then
      shift
      g .type
    if ← accept "extends" then
      g .type
      if ← accept "?" then
        g .type
        expect ":"
        g .type

end ImportAtlas.Syntax
