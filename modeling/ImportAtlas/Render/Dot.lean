import ImportAtlas.Graph.Basic
import ImportAtlas.Text.Lines

/-!
# Graphviz text

A directed graph with one cluster for each folder group. Quotes and backslashes inside names are
escaped; nothing else is.
-/

namespace ImportAtlas.Render

open Text

def dotEscape (s : List Char) : List Char :=
  s.flatMap fun c => if c == '\\' || c == '"' then ['\\', c] else [c]

def dotQuote (s : String) : String := String.ofList ('"' :: dotEscape s.toList ++ ['"'])

def edgeStyle : ImportKind → String
  | .importFrom => "solid"
  | .require => "dashed"
  | .dynamic => "dotted"

variable (g : FileGraph)

def dotNode (id : String) : String :=
  "    " ++ dotQuote id ++ " [label=" ++ dotQuote (g.labelOf id) ++ "];"

def dotCluster (n : Nat) (group : FolderGroup) : List String :=
  ("  subgraph cluster_" ++ toString n ++ " \x7b") ::
    ("    label=" ++ dotQuote group.path ++ ";") :: group.fileIds.map (dotNode g) ++ ["  \x7d"]

def dotEdge (e : FileEdge) : String :=
  "  " ++ dotQuote e.source ++ " -> " ++ dotQuote e.target ++ " [style=" ++ edgeStyle e.kind ++ "];"

def dotLines : List String :=
  "digraph dependencies \x7b" :: "  rankdir=LR;" :: "  node [shape=box, fontname=\"Helvetica\"];" ::
    (g.folderGroups.zipIdx.flatMap fun (group, n) => dotCluster g n group) ++
    g.edges.map dotEdge ++ ["\x7d"]

def dot : String := unlines (dotLines g)

end ImportAtlas.Render
