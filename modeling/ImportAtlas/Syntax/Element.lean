import ImportAtlas.Syntax.Group

/-!
# Elements

Elements of a page in the midst of the code. Between tags there is text, in which quotes and
comments mean nothing; code comes back in braces.
-/

namespace ImportAtlas.Syntax

open ImportAtlas.Syntax.Parser

variable (g : Grammar)

/-- Between tags, text reaches to the next angle bracket or brace. -/
def elementReading : Reading
  | [] => (.endOfText, 0)
  | c :: cs =>
    if isElementMark c then (.mark, 1)
    else (.text, 1 + (cs.takeWhile (!isElementMark ·)).length)
where
  isElementMark (c : Char) : Bool := c == '<' || c == '>' || c == '{' || c == '}'

/-- A name may have dashes in it. -/
def elementNameReading : Reading := fun cs =>
  (.word, wordLength cs + dashed (cs.drop (wordLength cs)))
where
  dashed (cs : List Char) : Nat :=
    match cs with
    | '-' :: _ => (cs.takeWhile fun c => isWordPart c || c == '-').length
    | _ => 0

/-- A backslash means nothing in the string of an attribute, which may have line ends in it. -/
def attributeReading : Reading
  | [] => (.endOfText, 0)
  | quote :: cs =>
    let n := (cs.takeWhile (· != quote)).length
    if (quote == '"' || quote == '\'') && n < cs.length then (.string, n + 2) else (.malformed, 1)

/-- A name with dashes, and with other names behind dots or colons. -/
def elementName : Parser Unit := do
  let b ← beginning
  part
  repeatWhile do
    if ← nextIsAny [".", ":"] then
      shift
      part
      return true
    else return false
  reduce .identifier b
where
  part : Parser Unit := do
    if (← peek).kind == .word then
      reread elementNameReading
      shift
    else giveUp

/-- Code in braces, or nothing but a comment. -/
def codeInBraces : Parser Unit :=
  node .expression do
    expect "\x7b"
    bracketed do
      unless ← nextIs "\x7d" do
        let _ ← accept "..."
        expression g true
    expect "\x7d"

def tagAttribute : Parser Unit := do
  if ← nextIs "\x7b" then codeInBraces g
  else
    node .member do
      elementName
      if ← nextIs "=" then
        shift
        if ← nextIs "\x7b" then codeInBraces g
        else if ← nextIs "<" then g .element
        else
          reread attributeReading
          expectKind .string

def elementContent : Parser Unit :=
  repeatWhile do
    rereadRest elementReading
    let t ← peek
    if t.is "<" then
      if ← secondIs "/" then return false
      g .element
      return true
    else if t.is "\x7b" then
      codeInBraces g
      return true
    else if t.kind == .text then
      shift
      return true
    else giveUp

def closingTag : Parser Unit := do
  expect "<"
  expect "/"
  unless ← nextIs ">" do elementName
  expect ">"

def element : Parser Unit :=
  node .element do
    expect "<"
    if ← accept ">" then
      elementContent g
      closingTag
    else
      elementName
      if (← hasTypes) && (← nextIs "<") then typeArguments g
      repeatWhile do
        if ← nextIsAny ["/", ">"] then return false
        tagAttribute g
        return true
      if ← accept "/" then expect ">"
      else
        expect ">"
        elementContent g
        closingTag

end ImportAtlas.Syntax
