import ImportAtlas.Graph.Basic
import ImportAtlas.Render.Style
import ImportAtlas.Text.Lines

/-!
# Tree listing

The files of a graph folder by folder, each followed by the files it imports.
-/

namespace ImportAtlas.Render

open Text

variable (style : Style) (g : FileGraph)

def arrowLine (isLast : Bool) (e : FileEdge) : String :=
  "  " ++ (if isLast then "  " else "│ ") ++ "   → " ++ e.target ++ " " ++
    style.dim ("[" ++ e.kind.name ++ "]")

def fileLine (isLast : Bool) (id : String) : String :=
  "  " ++ (if isLast then "└─" else "├─") ++ " " ++ style.cyan (g.labelOf id)

def fileLines (isLast : Bool) (id : String) : List String :=
  fileLine style g isLast id :: (g.edgesFrom id).map (arrowLine style isLast)

/-- The files of a folder. Only the last one closes the branch. -/
def branchLines : List String → List String
  | [] => []
  | [id] => fileLines style g true id
  | id :: ids => fileLines style g false id ++ branchLines ids

def headerLine (group : FolderGroup) : String :=
  style.bold (group.path ++ "/ (" ++ toString group.fileIds.length ++ " files)")

def groupLines (group : FolderGroup) : List String :=
  headerLine style group :: branchLines style g group.fileIds ++ [""]

def noFilesLine : String := "No JavaScript/TypeScript files found."

def treeLines : List String :=
  g.folderGroups.flatMap (groupLines style g) ++ if g.nodes.isEmpty then [noFilesLine] else []

def tree : String := unlines (treeLines style g)

end ImportAtlas.Render
