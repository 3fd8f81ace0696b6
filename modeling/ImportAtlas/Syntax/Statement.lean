import ImportAtlas.Syntax.Declaration
import ImportAtlas.Syntax.Module

/-!
# Statements
-/

namespace ImportAtlas.Syntax

open ImportAtlas.Syntax.Parser

variable (g : Grammar)

/-- Whether the next word begins the declaration of variables. -/
def opensVariables : Parser Bool := do
  let u ← peekSecond
  return (← nextIsAny ["var", "const"]) ||
    ((← nextIs "let") &&
      ((u.kind == .word && !u.isAny ["in", "instanceof"]) || u.isAny ["[", "\x7b"]))

def ifStatement : Parser Unit := do
  expect "if"
  parenthesized g
  g .statement
  if ← accept "else" then g .statement

/-- What stands in the parentheses of a loop: a variable and what it runs through, or a start, a
condition and a step. -/
def loopHead : Parser Unit := do
  expect "("
  bracketed do
    unless ← nextIs ";" do
      if ← opensVariables then variableDeclaration g false else expression g false
    if ← nextIsAny ["of", "in"] then
      shift
      expression g true
    else
      expect ";"
      unless ← nextIs ";" do expression g true
      expect ";"
      unless ← nextIs ")" do expression g true
  close ")"

def forStatement : Parser Unit := do
  expect "for"
  let _ ← accept "await"
  loopHead g
  g .statement

def doStatement : Parser Unit := do
  expect "do"
  g .statement
  expect "while"
  parenthesized g
  semicolon

def switchStatement : Parser Unit := do
  expect "switch"
  parenthesized g
  expect "\x7b"
  within ⟨false, false⟩ <| repeatWhile do
    if ← accept "case" then expression g true
    else if ← nextIs "default" then shift
    else return false
    expect ":"
    statements g (·.isAny ["case", "default", "\x7d"])
    return true
  expect "\x7d"

def tryStatement : Parser Unit := do
  expect "try"
  block g
  if ← accept "catch" then
    if ← nextIs "(" then parameters g .pattern
    block g
  if ← accept "finally" then block g

/-- A word with an expression behind it, which may be missing. -/
def jump : Parser Unit := do
  shift
  unless ← expressionEnds do expression g true
  semicolon

def expressionStatement : Parser Unit := do
  expression g true
  semicolon

/-- A statement that a word may begin, if it does. -/
def statementOfWord (t : Token) : Parser Unit := do
  let u := t.next
  if u.is ":" && !t.is "default" then
    shift
    shift
    g .statement
  else if (← hasTypes) && opensTypedDeclaration t u then typedDeclaration g t
  else if ← opensVariables then
    variableDeclaration g true
    semicolon
  else
    match t.text with
    | "import" => if u.isAny ["(", "."] then expressionStatement g else importStatement g
    | "export" => exportStatement g
    | "function" => functionDefinition g
    | "async" =>
      if u.is "function" && !u.startsLine then functionDefinition g else expressionStatement g
    | "class" => classDefinition g
    | "if" => ifStatement g
    | "for" => forStatement g
    | "while" | "with" =>
      shift
      parenthesized g
      g .statement
    | "do" => doStatement g
    | "switch" => switchStatement g
    | "try" => tryStatement g
    | "return" | "throw" | "break" | "continue" => jump g
    | "debugger" =>
      shift
      semicolon
    | _ => expressionStatement g

def statement : Parser Unit := do
  skipMarkComment
  let t ← peek
  if t.is "\x7b" then block g
  else
    node .statement do
      if t.is ";" then shift
      else if t.is "@" then
        decorators g
        if ← nextIs "export" then exportStatement g else classDefinition g
      else if t.kind == .word then statementOfWord g t
      else expressionStatement g

end ImportAtlas.Syntax
