import ImportAtlas.Graph.Basic

/-!
# Grouping by folder

The files of a list by the folder part of their paths. Groups stand in the order in which their
first file does, and files keep their order within a group.
-/

namespace ImportAtlas

/-- The key of the files that lie in no folder. -/
def rootFolder : String := "root"

def folderKey (path : String) : String := (Path.directory? path).getD rootFolder

namespace FolderGroup

def single (key path : String) : FolderGroup where
  id := key
  name := Path.lastSegment key
  path := key
  fileIds := [path]

/-- One more file put into its group, which is opened at the end if it is not there yet. -/
def insert (groups : List FolderGroup) (path : String) : List FolderGroup :=
  match groups with
  | [] => [single (folderKey path) path]
  | g :: gs =>
    if g.id == folderKey path then { g with fileIds := g.fileIds ++ [path] } :: gs
    else g :: insert gs path

def ofPaths (paths : List String) : List FolderGroup := paths.foldl insert []

@[simp] theorem ofPaths_nil : ofPaths [] = [] := rfl

theorem ofPaths_append_singleton (paths : List String) (path : String) :
    ofPaths (paths ++ [path]) = insert (ofPaths paths) path := by
  simp [ofPaths, List.foldl_append]

end FolderGroup

end ImportAtlas
