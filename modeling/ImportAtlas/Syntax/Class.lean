import ImportAtlas.Syntax.Group

/-!
# Classes
-/

namespace ImportAtlas.Syntax

open ImportAtlas.Syntax.Parser

variable (g : Grammar)

def classModifiers : List String :=
  ["public", "private", "protected", "static", "abstract", "override", "readonly", "declare",
    "accessor", "async", "get", "set"]

/-- A field, a method, or a block that runs when the class is made. -/
def classMember : Parser Unit :=
  node .member do
    decorators g
    if (← nextIs "static") && (← secondIs "\x7b") then
      shift
      block g
    else
      memberModifiers classModifiers
      propertyName g
      if ← nextIsAny ["?", "!"] then shift
      if ← nextIsAny ["(", "<"] then functionRest g
      else
        let _ ← ascription g
        if ← accept "=" then g (.assignment true)
        semicolon

def classBody : Parser Unit :=
  node .block do
    expect "\x7b"
    within ⟨false, false⟩ <| repeatWhile do
      let t ← peek
      if t.isEnd || t.is "\x7d" then return false
      if t.isAny [";", ","] then shift else recovering (classMember g)
      return true
    expect "\x7d"

/-- What a class extends, and the types that it implements. -/
def heritage : Parser Unit :=
  repeatWhile do
    if ← accept "extends" then
      g .unary
      if (← hasTypes) && (← nextIs "<") then typeArguments g
      return true
    else if (← hasTypes) && (← nextIs "implements") then
      shift
      g .type
      return true
    else if (← hasTypes) && (← nextIs ",") then
      shift
      g .type
      return true
    else return false

def classDefinition : Parser Unit :=
  node .classExpression do
    let _ ← accept "abstract"
    expect "class"
    if (← peek).kind == .word && !(← nextIsAny ["extends", "implements"]) then shift
    if (← hasTypes) && (← nextIs "<") then typeArguments g
    heritage g
    classBody g

end ImportAtlas.Syntax
