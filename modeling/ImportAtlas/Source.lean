import ImportAtlas.Config
import ImportAtlas.Graph.Build
import ImportAtlas.Syntax.Extract
import ImportAtlas.Syntax.Parse

/-!
# Imports of source files

The imports of a source text, and of a file by the dialect that its name gives it.
-/

namespace ImportAtlas.Source

def imports (dialect : Dialect) (text : String) : List ImportStatement :=
  Syntax.extractImports (Syntax.parse dialect text)

/-- The imports of a file. A file that is no source file has none. -/
def fileImports (path text : String) : Logged (List ImportStatement) := do
  match Dialect.ofPath? path with
  | some dialect => return imports dialect text
  | none =>
    Logged.tell .parsers .debug ("Skipping imports of non JS/TS file: " ++ path)
    return []

/-- Reads the imports of any text; it never fails. -/
def reader : ImportReader := fun path text => .ok <$> fileImports path text

def builder (c : Config) : GraphBuilder where
  discovery := ⟨Exclusions.withExtra c.graph.extraExcludedDirs, c.graph.followSymlinks⟩
  order := c.graph.resolutionOrder
  maxFileSize := c.graph.maxFileSize
  reader := reader

end ImportAtlas.Source
