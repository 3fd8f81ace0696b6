import ImportAtlas.Import

/-!
# Dependency graphs

One node for each source file, one edge for each import that names another file of the graph, and
the nodes once more by the folder that holds them.
-/

namespace ImportAtlas

structure FileNode where
  id : String
  path : String
  label : String
  language : Language
  deriving DecidableEq, Repr, Inhabited

def FileNode.ofPath (path : String) : FileNode where
  id := path
  path := path
  label := Path.lastSegment path
  language := (Language.ofPath? path).getD .javaScript

@[simp] theorem FileNode.id_ofPath (path : String) : (FileNode.ofPath path).id = path := rfl

structure FileEdge where
  id : String
  source : String
  target : String
  kind : ImportKind
  deriving DecidableEq, Repr, Inhabited

structure FolderGroup where
  id : String
  name : String
  path : String
  fileIds : List String
  deriving DecidableEq, Repr, Inhabited

structure FileGraph where
  nodes : List FileNode
  edges : List FileEdge
  folderGroups : List FolderGroup
  deriving DecidableEq, Repr, Inhabited

namespace FileGraph

def node? (g : FileGraph) (id : String) : Option FileNode := g.nodes.find? (·.id == id)

def edgesFrom (g : FileGraph) (id : String) : List FileEdge := g.edges.filter (·.source == id)

/-- The text shown for a file: the label of its node, or the id itself if there is no such node. -/
def labelOf (g : FileGraph) (id : String) : String := ((g.node? id).map FileNode.label).getD id

end FileGraph

structure GraphStats where
  totalFiles : Nat
  totalImports : Nat
  analyzedFolder : String
  deriving DecidableEq, Repr, Inhabited

def GraphStats.ofGraph (g : FileGraph) (folder : Option String) : GraphStats where
  totalFiles := g.nodes.length
  totalImports := g.edges.length
  analyzedFolder :=
    match folder with
    | some f => "/" ++ f
    | none => "entire repository"

structure GraphResponse where
  owner : String
  name : String
  folder : Option String
  graph : FileGraph
  stats : GraphStats
  deriving DecidableEq, Repr, Inhabited

def GraphResponse.ofGraph (owner name : String) (folder : Option String) (g : FileGraph) :
    GraphResponse where
  owner := owner
  name := name
  folder := folder
  graph := g
  stats := .ofGraph g folder

end ImportAtlas
