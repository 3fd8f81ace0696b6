import ImportAtlas.Syntax.Statement

/-!
# Reading a source text

The tree of any text, in any dialect. There is always one; what the grammar does not allow lies in
error nodes.
-/

namespace ImportAtlas.Syntax

open ImportAtlas.Syntax.Parser

/-- What a rule stands for, given what the rules in it stand for. -/
def ruleOf (g : Grammar) : Rule → Parser Unit
  | .statement => statement g
  | .assignment hasIn => assignment g hasIn
  | .unary => unary g
  | .type => type g
  | .element => element g

/-- The grammar, with rules nested in each other to some depth. -/
def grammar : Nat → Grammar
  | 0 => fun _ => giveUp
  | depth + 1 => ruleOf (grammar depth)

/-- The place behind a first line that names an interpreter, with that line as a comment. -/
def afterInterpreter (c : Cursor) : Gap :=
  let gap : Gap := ⟨c, false, []⟩
  match c.rest with
  | '#' :: '!' :: cs => gap.withComment (2 + (cs.takeWhile (· != '\n')).length)
  | _ => gap

def State.start (dialect : Dialect) (text : String) : State :=
  let c := Cursor.ofChars text.toList
  { dialect
    token := .behind usualReading (Gap.extend c.left (afterInterpreter c))
    last := c
    done := []
    count := 0
    surroundings := ⟨false, false⟩ }

/-- How deep rules can be nested in a text: at most two of them begin at the same token. -/
def depthBound (text : String) : Nat := 4 * (text.length + 2)

def parse (dialect : Dialect) (text : String) : Tree :=
  let s := State.start dialect text
  let program := statements (grammar (depthBound text)) fun _ => false
  match program s with
  | .ok _ s' | .error _ s' =>
    .node .program none ⟨0, s'.token.stop.row⟩ text s'.keepComments.done.reverse

end ImportAtlas.Syntax
