import ImportAtlas.Syntax.Class
import ImportAtlas.Syntax.Element

/-!
# Expressions

What is called, and with which arguments, is told exactly. How operators bind does not matter for
that: operands with operators between them are one flat node. Parameters are read as expressions
until an arrow shows what they are.
-/

namespace ImportAtlas.Syntax

open ImportAtlas.Syntax.Parser

/-- A comment that fills the rest of the line may also be opened by one of two marks, where an
operand or a statement may begin. -/
def skipMarkComment : Parser Unit :=
  repeatWhile do
    let t ← peek
    match t.start.rest with
    | '<' :: '!' :: '-' :: '-' :: cs => skip t (4 + lineLength cs)
    | '-' :: '-' :: '>' :: cs => skip t (3 + lineLength cs)
    | _ => return false
where
  skip (t : Token) (length : Nat) : Parser Bool := do
    let gap : Gap := ⟨t.start, t.startsLine, t.comments.reverse⟩
    let gap := Gap.extend t.start.left (gap.withComment length)
    modify fun s => { s with token := .behind usualReading gap }
    return true

variable (g : Grammar)

def arrowBody (b : Beginning) : Parser Unit := do
  expect "=>"
  if ← nextIs "\x7b" then block g else g (.assignment true)
  reduce .functionExpression b

/-- The rest of a function behind its parameters, if there is an arrow. A type may stand before the
arrow, but in the middle of a choice only if the colon of the choice is still to come. -/
def arrowRest (b : Beginning) : Parser Bool := do
  if ← nextIs "=>" then
    arrowBody g b
    return true
  else if (← hasTypes) && (← nextIs ":") then
    if (← get).surroundings.awaitsColon then
      attempt do
        let _ ← ascription g
        if ← nextIs "=>" then
          arrowBody g b
          nextIs ":"
        else return false
    else if ← attempt (do
        let _ ← ascription g
        nextIs "=>") then
      arrowBody g b
      return true
    else return false
  else return false

/-- Parentheses around an expression, or around the parameters of a function. -/
def parenthesesOrArrow : Parser Unit := do
  let b ← beginning
  parameters g .expression
  let _ ← arrowRest g b

def arrayItems : Parser Unit :=
  node .expression do
    expect "["
    bracketed <| repeatWhile do
      if ← nextIs "]" then return false
      if ← accept "," then return true
      node .expression do
        let _ ← accept "..."
        g (.assignment true)
      accept ","
    close "]"

def objectModifiers : List String := ["get", "set", "async"]

/-- A member of an object, or the name of a variable with its default. -/
def objectMember : Parser Unit :=
  node .member do
    if ← accept "..." then g (.assignment true)
    else
      memberModifiers objectModifiers
      propertyName g
      if ← nextIsAny ["(", "<"] then functionRest g
      else if ← nextIsAny [":", "="] then
        shift
        g (.assignment true)

def objectMembers : Parser Unit :=
  node .expression do
    expect "\x7b"
    bracketed (separated "," "\x7d" (objectMember g))
    close "\x7d"

/-- Whether a token may follow the arguments in angle brackets of an expression, which might as
well be two comparisons. -/
def followsTypeArguments (t : Token) : Bool :=
  t.isAny ["(", "\x60"] ||
    (!t.isAny ["<", ">", "+", "-", "[", "\x7b", "!", "~", "++", "--", "@", "/"] &&
      (t.isEnd || t.startsLine || t.kind == .mark ||
        t.isAny ["in", "instanceof", "as", "satisfies"]))

def typeArgumentsOfOperand : Parser Bool := do
  if (← hasTypes) && (← nextIsAny ["<", "<<"]) then
    attempt do
      typeArguments g
      return followsTypeArguments (← peek)
  else return false

/-- What follows `new`. Its arguments belong to it, and so do only members before them. -/
def creation : Parser Unit := do
  let b ← beginning
  expect "new"
  if ← nextIs "." then member b
  else
    let c ← beginning
    match (← peek).text with
    | "(" => parenthesized g
    | "[" => arrayItems g
    | "\x7b" => objectMembers g
    | "class" => classDefinition g
    | "function" => functionDefinition g
    | "new" => g .unary
    | _ => if (← peek).kind == .string then shift else word
    repeatWhile do
      if ← nextIsAny [".", "?."] then
        member c
        return true
      else if ← nextIs "[" then
        shift
        bracketed (expression g true)
        close "]"
        reduce .expression c
        return true
      else return false
    let _ ← typeArgumentsOfOperand g
    if ← nextIs "(" then arguments g
    reduce .newExpression b

/-- The parameters of a function with types of its own, up to the arrow, and all that follows. -/
def genericArrow (b : Beginning) : Parser Bool :=
  attempt do
    typeArguments g
    parameters g .pattern
    let _ ← ascription g
    if ← nextIs "=>" then
      arrowBody g b
      return true
    else return false

/-- A word, which may be the one parameter of a function. -/
def wordOrArrow : Parser Unit := do
  let b ← beginning
  word
  if ← nextIs "=>" then arrowBody g b

/-- What begins with `async`: a function, a call, or just this word. -/
def asyncOperand : Parser Unit := do
  let b ← beginning
  let u ← peekSecond
  if u.startsLine then wordOrArrow g
  else if u.is "function" then functionDefinition g
  else if u.is "(" then
    shift
    label .function
    parameters g .arguments
    unless ← arrowRest g b do
      label .arguments
      reduce .callExpression b
  else if u.kind == .word && u.next.is "=>" then
    shift
    shift
    arrowBody g b
  else if (← hasTypes) && u.is "<" then
    shift
    let _ ← genericArrow g b
  else wordOrArrow g

/-- Whether an angle bracket opens the parameters of a generic function, not an element. -/
def opensGenericArrow : Parser Bool := do
  let name ← peekSecond
  let name := if name.is "const" then name.next else name
  let after := name.next
  return (← hasTypes) && name.kind == .word &&
    (after.isAny [",", "="] || (after.is "extends" && !after.next.isAny ["=", ">", "/"]) ||
      (after.is ">" && after.next.is "("))

def elementOrArrow : Parser Unit := do
  let b ← beginning
  if ← opensGenericArrow then
    unless ← genericArrow g b do g .element
  else g .element

def operandOfWord (t : Token) : Parser Unit := do
  match t.text with
  | "function" => functionDefinition g
  | "class" => classDefinition g
  | "async" => asyncOperand g
  | "new" => creation g
  | "import" =>
    let b ← beginning
    shift
    if ← nextIs "." then member b
    else unless ← nextIs "(" do giveUp
  | _ => wordOrArrow g

def operand : Parser Unit := do
  let t ← peek
  match t.kind with
  | .word => operandOfWord g t
  | .privateName | .number | .string => shift
  | .mark =>
    match t.text with
    | "(" => parenthesesOrArrow g
    | "[" => arrayItems g
    | "\x7b" => objectMembers g
    | "\x60" => template (expression g true)
    | "<" => elementOrArrow g
    | "/" | "/=" =>
      reread fun cs =>
        match regexLength? (cs.drop 1) with
        | some n => (.regex, 1 + n)
        | none => (.malformed, 1)
      expectKind .regex
    | "@" =>
      decorators g
      classDefinition g
    | _ => giveUp
  | _ => giveUp

/-- What applies to the operand that has begun last: members, calls, and marks behind it. -/
def suffix (b : Beginning) : Parser Bool := do
  let t ← peek
  if t.is "." then
    member b
    return true
  else if t.is "?." then
    if ← secondIs "(" then
      label .function
      shift
      arguments g
      label .arguments
      reduce .callExpression b
    else if ← secondIs "[" then
      shift
      shift
      bracketed (expression g true)
      close "]"
      reduce .expression b
    else if (← hasTypes) && (← secondIs "<") then
      label .function
      shift
      typeArguments g
      arguments g
      label .arguments
      reduce .callExpression b
    else member b
    return true
  else if t.is "[" then
    shift
    bracketed (expression g true)
    close "]"
    reduce .expression b
    return true
  else if t.is "(" then
    call g b
    return true
  else if t.is "\x60" then
    label .function
    template (expression g true)
    label .arguments
    reduce .callExpression b
    return true
  else if t.isAny ["++", "--"] && !t.startsLine then
    shift
    reduce .expression b
    return true
  else if t.is "!" && !t.startsLine && (← hasTypes) then
    shift
    reduce .expression b
    return true
  else if t.isAny ["<", "<<"] && (← hasTypes) then
    label .function
    if ← typeArgumentsOfOperand g then
      if ← nextIs "(" then
        arguments g
        label .arguments
        reduce .callExpression b
      else reduce .expression b
      return true
    else return false
  else return false

/-- Operators that stand before their operand. -/
def leadingOperators : List String :=
  ["!", "~", "+", "-", "++", "--", "typeof", "void", "delete", "await"]

def unary : Parser Unit := do
  skipMarkComment
  let b ← beginning
  if ← nextIsAny leadingOperators then
    shift
    g .unary
    reduce .expression b
  else if (← nextIsAny ["<", "<<"]) && (← get).dialect == .typeScript then
    typeArguments g
    g .unary
    reduce .expression b
  else
    operand g
    repeatWhile (suffix g b)

def binaryOperators : List String :=
  ["+", "-", "*", "/", "%", "**", "<", "<=", ">", ">=", "<<", ">>", ">>>", "==", "!=", "===", "!==",
    "&", "|", "^", "&&", "||", "??", "instanceof"]

def assignmentOperators : List String :=
  ["=", "+=", "-=", "*=", "/=", "%=", "**=", "<<=", ">>=", ">>>=", "&=", "|=", "^=", "&&=", "||=",
    "??="]

/-- The longest operator made of angle brackets that close, perhaps with an equals sign. -/
def closingAngles : Reading := fun cs =>
  let n := (cs.takeWhile (· == '>')).length
  let n := min n 3
  match cs.drop n with
  | '=' :: _ => (.mark, n + 1)
  | _ => (.mark, n)

def operation (hasIn : Bool) : Parser Bool := do
  if ← nextIs ">" then reread closingAngles
  let t ← peek
  if t.isAny binaryOperators || (hasIn && t.is "in") then
    shift
    unary g
    return true
  else if (← hasTypes) && t.isAny ["as", "satisfies"] && !(← lineEndsStatement) then
    shift
    g .type
    return true
  else return false

def operations (hasIn : Bool) : Parser Unit := do
  let b ← beginning
  unary g
  if ← operation g hasIn then
    repeatWhile (operation g hasIn)
    reduce .expression b

/-- Whether a question mark makes a parameter optional, and opens no choice. -/
def marksOptional : Parser Bool := do
  return (← hasTypes) && (← peekSecond).isAny [":", ",", ")", "="]

def assignment (hasIn : Bool) : Parser Unit := do
  skipMarkComment
  let b ← beginning
  if ← nextIs "yield" then
    shift
    let isAll ← accept "*"
    if isAll || !(← expressionEnds) then g (.assignment hasIn)
    reduce .expression b
  else
    operations g hasIn
    if ← nextIsAny assignmentOperators then
      shift
      g (.assignment hasIn)
      reduce .expression b
    else if (← nextIs "?") && !(← marksOptional) then
      shift
      within { (← get).surroundings with awaitsColon := true } (g (.assignment true))
      expect ":"
      g (.assignment hasIn)
      reduce .expression b

end ImportAtlas.Syntax
