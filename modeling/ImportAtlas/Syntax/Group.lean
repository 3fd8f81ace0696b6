import ImportAtlas.Syntax.Parser

/-!
# What stands in brackets

Blocks, arguments, parameters, templates and the names of members, which all rules make use of.
A statement with a mistake in it does not spoil its block: what is sound in it stays, and the block
goes on behind the mistake.
-/

namespace ImportAtlas.Syntax

open ImportAtlas.Syntax.Parser

/-- Runs a parser. If it gives up, its finished trees are kept, and some token is consumed. -/
def recovering (p : Parser Unit) : Parser Unit := do
  let b ← beginning
  fun s =>
    match p s with
    | .ok _ s' => .ok () s'
    | .error _ s' =>
      let s' := if s'.token.start.left == s.token.start.left then s'.shift else s'
      reduce .error b { s' with surroundings := s.surroundings }

variable (g : Grammar)

def expression (hasIn : Bool) : Parser Unit := do
  let b ← beginning
  g (.assignment hasIn)
  if ← nextIs "," then
    repeatWhile do
      if ← accept "," then
        g (.assignment hasIn)
        return true
      else return false
    reduce .expression b

/-- Statements up to the end of the text or a token of some kind. -/
def statements (isStop : Token → Bool) : Parser Unit :=
  repeatWhile do
    let t ← peek
    if t.isEnd || isStop t then return false
    recovering (g .statement)
    return true

def block : Parser Unit :=
  node .block do
    expect "\x7b"
    within ⟨false, false⟩ (statements g (·.is "\x7d"))
    expect "\x7d"

def arguments : Parser Unit :=
  node .arguments do
    expect "("
    bracketed <| separated "," ")" do
      if ← nextIs "..." then
        node .expression do
          shift
          g (.assignment true)
      else g (.assignment true)
    close ")"

def parenthesized : Parser Unit :=
  node .expression do
    expect "("
    bracketed (expression g true)
    close ")"

def call (b : Beginning) : Parser Unit := do
  label .function
  arguments g
  label .arguments
  reduce .callExpression b

def memberName : Parser Unit := do
  if (← peek).kind == .privateName then shift else word

def member (b : Beginning) : Parser Unit := do
  shift
  memberName
  reduce .memberExpression b

/-- A template holds raw text up to the next substitution or its end. -/
def templateReading : Reading
  | [] => (.endOfText, 0)
  | '\x60' :: _ => (.mark, 1)
  | '$' :: '{' :: _ => (.mark, 2)
  | cs => (.text, templateTextLength cs)

/-- A template whose substitutions are all of some form. -/
def template (substitution : Parser Unit) : Parser Unit :=
  node .template do
    expect "\x60"
    repeatWhile do
      rereadRest templateReading
      let t ← peek
      if t.isEnd then giveUp
      else if t.is "\x60" then return false
      else if t.is "$\x7b" then
        node .expression do
          shift
          bracketed substitution
          expect "\x7d"
        return true
      else
        shift
        return true
    expect "\x60"

/-- A type behind a colon. Tells whether there was one. -/
def ascription : Parser Bool := do
  if (← hasTypes) && (← nextIs ":") then
    shift
    g .type
    return true
  else return false

/-- Parameters and arguments of a type, in angle brackets. -/
def typeArguments : Parser Unit :=
  node .type do
    if ← nextIs "<<" then reread fun _ => (.mark, 1)
    expect "<"
    separated "," ">" do
      repeatWhile do
        if (← nextIsAny ["const", "in", "out"]) && (← peekSecond).kind == .word then
          shift
          return true
        else return false
      g .type
      if ← accept "=" then g .type
    expect ">"

def decorator : Parser Unit :=
  node .decorator do
    expect "@"
    let b ← beginning
    if ← nextIs "(" then parenthesized g else word
    repeatWhile do
      if ← nextIs "." then
        member b
        return true
      else if ← nextIs "(" then
        call g b
        return true
      else if (← hasTypes) && (← nextIs "<") then
        label .function
        typeArguments g
        return true
      else return false

def decorators : Parser Unit :=
  repeatWhile do
    if ← nextIs "@" then
      decorator g
      return true
    else return false

/-- Words that make a parameter a field, when a name follows. -/
def parameterModifiers : List String := ["public", "private", "protected", "readonly", "override"]

/-- A parameter, or an expression that may turn out to be one. -/
def parameter : Parser Unit := do
  let b ← beginning
  let isDecorated ← nextIs "@"
  decorators g
  let isField := (← hasTypes) && (← nextIsAny parameterModifiers) && (← peekSecond).kind == .word
  if isField then
    repeatWhile do
      if (← nextIsAny parameterModifiers) && (← peekSecond).kind == .word then
        shift
        return true
      else return false
  let isRest ← accept "..."
  g (.assignment true)
  let isOptional ← if ← hasTypes then accept "?" else pure false
  let isTyped ← ascription g
  let hasDefault ← accept "="
  if hasDefault then g (.assignment true)
  if isDecorated || isField || isRest || isOptional || isTyped || hasDefault then
    reduce .pattern b

/-- Parameters in parentheses, or expressions that may turn out to be parameters. -/
def parameters (kind : Kind) : Parser Unit :=
  node kind do
    expect "("
    bracketed (separated "," ")" (parameter g))
    close ")"

/-- All of a function but its name and its body. -/
def signature : Parser Unit := do
  if (← hasTypes) && (← nextIs "<") then typeArguments g
  parameters g .pattern
  let _ ← ascription g

/-- The rest of a function behind its name. Where there are types, it may lack a body. -/
def functionRest : Parser Unit := do
  signature g
  if ← nextIs "\x7b" then block g
  else if ← hasTypes then semicolon
  else giveUp

def functionDefinition : Parser Unit :=
  node .functionExpression do
    let _ ← accept "async"
    expect "function"
    let _ ← accept "*"
    if (← peek).kind == .word then shift
    functionRest g

/-- A name in square brackets, which may be computed, or tell the type of all keys. -/
def keyInBrackets : Parser Unit :=
  node .member do
    expect "["
    if (← hasTypes) && (← peek).kind == .word && (← secondIs ":") then
      shift
      shift
      g .type
    else if (← hasTypes) && (← peek).kind == .word && (← secondIs "in") then
      shift
      shift
      g .type
      if ← accept "as" then g .type
    else bracketed (expression g true)
    close "]"

def propertyName : Parser Unit := do
  let t ← peek
  if t.is "[" then keyInBrackets g
  else if t.kind == .word || t.kind == .string || t.kind == .number || t.kind == .privateName then
    shift
  else giveUp

/-- Whether the name of a member may start with a token. -/
def startsName (t : Token) : Bool :=
  t.kind == .word || t.kind == .string || t.kind == .number || t.kind == .privateName || t.is "["

/-- Words of a list, and asterisks, as long as the name of a member follows them. -/
def memberModifiers (modifiers : List String) : Parser Unit := do
  repeatWhile do
    if (← nextIsAny modifiers) && (startsName (← peekSecond) || (← secondIs "*")) then
      shift
      return true
    else accept "*"

end ImportAtlas.Syntax
