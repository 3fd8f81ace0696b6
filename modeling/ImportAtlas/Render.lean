import ImportAtlas.Json.Graph
import ImportAtlas.Json.Printer
import ImportAtlas.Render.Dot
import ImportAtlas.Render.Table
import ImportAtlas.Render.Tree

/-!
# Renderings

A graph in each of the formats it is printed in, and the listing of the imports of one file.
-/

namespace ImportAtlas

inductive GraphFormat where
  | tree
  | table
  | dot
  | json
  deriving DecidableEq, Repr, Inhabited

namespace GraphFormat

def name : GraphFormat → String
  | tree => "tree"
  | table => "table"
  | dot => "dot"
  | json => "json"

/-- The format of a name, in letters of either case. -/
def ofName? (text : String) : Option GraphFormat :=
  [tree, table, dot, json].find? (·.name.toList == text.toList.map Char.toLower)

end GraphFormat

namespace Render

open Text

def graph (style : Style) (format : GraphFormat) (isPretty : Bool) (r : GraphResponse) : String :=
  match format with
  | .tree => tree style r.graph
  | .table => table style r.graph
  | .dot => dot r.graph
  | .json => r.toJson.render (.ofPretty isPretty)

def importLine (style : Style) (i : ImportStatement) : String :=
  "  └─ " ++ style.cyan i.specifier ++ " " ++ style.dim ("[" ++ i.kind.name ++ "]") ++ " (line " ++
    toString i.line ++ ")"

def imports (style : Style) (report : ParseReport) : String :=
  unlines (style.bold (report.file ++ " (" ++
      ((report.language.map Language.name).getD "unsupported") ++ ")") ::
    report.imports.map (importLine style))

end Render

end ImportAtlas
