import ImportAtlas.Syntax.Expression
import ImportAtlas.Syntax.Type

/-!
# Declarations

Variables, and what exists only where there are types: interfaces, names of types, enumerations,
namespaces, and promises that something is declared elsewhere.
-/

namespace ImportAtlas.Syntax

open ImportAtlas.Syntax.Parser

variable (g : Grammar)

/-- A variable, or several in the form of an array or an object. -/
def declaredName : Parser Unit := do
  if ← nextIs "[" then arrayItems g
  else if ← nextIs "\x7b" then objectMembers g
  else word

def declarators (hasIn : Bool) : Parser Unit :=
  repeatWhile do
    node .pattern do
      declaredName g
      if (← hasTypes) && (← nextIs "!") then shift
      let _ ← ascription g
      if ← accept "=" then g (.assignment hasIn)
    accept ","

def variableDeclaration (hasIn : Bool) : Parser Unit :=
  node .declaration do
    shift
    declarators g hasIn

def interfaceDeclaration : Parser Unit :=
  node .declaration do
    expect "interface"
    word
    if ← nextIs "<" then typeArguments g
    if ← accept "extends" then
      repeatWhile do
        g .type
        accept ","
    objectType g

def typeDeclaration : Parser Unit :=
  node .declaration do
    expect "type"
    word
    if ← nextIs "<" then typeArguments g
    expect "="
    g .type
    semicolon

def enumDeclaration : Parser Unit :=
  node .declaration do
    let _ ← accept "const"
    expect "enum"
    word
    expect "\x7b"
    bracketed <| separated "," "\x7d" do
      node .member do
        propertyName g
        if ← accept "=" then g (.assignment true)
    expect "\x7d"

/-- A namespace or a module, which may lack a body. -/
def namespaceDeclaration : Parser Unit :=
  node .declaration do
    if ← accept "global" then block g
    else
      shift
      if (← peek).kind == .string then shift
      else
        word
        repeatWhile do
          if ← accept "." then
            word
            return true
          else return false
      if ← nextIs "\x7b" then block g else semicolon

/-- Whether a statement begins that declares something where there are types. -/
def opensTypedDeclaration (t u : Token) : Bool :=
  !u.startsLine &&
    ((t.isAny ["interface", "enum", "type", "declare"] && u.kind == .word &&
        !u.isAny ["in", "instanceof", "as", "satisfies"]) ||
      (t.isAny ["namespace", "module"] && (u.kind == .word || u.kind == .string)) ||
      (t.is "global" && u.is "\x7b") || (t.is "abstract" && u.is "class") ||
      (t.is "const" && u.is "enum"))

def typedDeclaration (t : Token) : Parser Unit := do
  match t.text with
  | "interface" => interfaceDeclaration g
  | "type" => typeDeclaration g
  | "enum" | "const" => enumDeclaration g
  | "declare" =>
    node .declaration do
      shift
      g .statement
  | "abstract" => classDefinition g
  | _ => namespaceDeclaration g

end ImportAtlas.Syntax
