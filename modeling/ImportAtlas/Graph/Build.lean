import ImportAtlas.Discovery
import ImportAtlas.Graph.Grouping
import ImportAtlas.Resolution

/-!
# Building graphs

A graph has a node for each discovered file and, file after file, an edge for each import that
names a discovered file. A file that cannot be read or understood keeps its node and loses its
imports; nothing but a missing repository or scope stops a build.

Files are processed one after another. The setting for the number of threads has no part in a
build, and the failure to start that many threads, which the graph does not depend on, is left out.
-/

namespace ImportAtlas

/-- Finds the imports of a file from its path and text, or says why it cannot. -/
abbrev ImportReader := String → String → Logged (Except String (List ImportStatement))

structure GraphBuilder where
  discovery : Discovery := {}
  order : SuffixOrder := .javascriptFirst
  /-- Larger files are not read for imports. Zero is no limit. -/
  maxFileSize : Nat := 0
  reader : ImportReader

namespace GraphBuilder

open Host

private def say (level : Log.Level) (text : String) : Logged Unit := Logged.tell .graph level text

def fileImports (b : GraphBuilder) (host : Host) (root path : String) :
    Logged (List ImportStatement) := do
  match host.readBytes (Location.join root path) with
  | .error e =>
    say .warn ("Failed to read " ++ path ++ ": " ++ e.message)
    return []
  | .ok content =>
    if 0 < b.maxFileSize && b.maxFileSize < content.size then
      say .debug ("Skipping imports of large file " ++ path ++ " (" ++ toString content.size ++
        " bytes > " ++ toString b.maxFileSize ++ " limit)")
      return []
    else
      match decodeText content with
      | .error e =>
        say .warn ("Failed to read " ++ path ++ ": " ++ e.message)
        return []
      | .ok source =>
        match ← b.reader path source with
        | .error reason =>
          say .warn ("Failed to parse " ++ path ++ ": " ++ reason)
          return []
        | .ok imports =>
          say .debug ("Found " ++ toString imports.length ++ " imports in " ++ path)
          return imports

/-- The file that an import names, with the kind of the import. -/
def importTarget (b : GraphBuilder) (set : FileSet) (path : String) (i : ImportStatement) :
    Logged (Option (String × ImportKind)) := do
  match SpecifierKind.of i.specifier with
  | .external => return none
  | .relative =>
    let tried := Resolution.tried set (Resolution.candidates b.order path i.specifier)
    let _ ← Logged.each (fun candidate => Logged.tell .resolver .trace
      ("  trying " ++ candidate ++ " for '" ++ i.specifier ++ "' from " ++ path)) tried
    match Resolution.resolve b.order set path i.specifier with
    | some target => return some (target, i.kind)
    | none =>
      say .debug ("Unresolved import '" ++ i.specifier ++ "' in " ++ path ++ ":" ++ toString i.line)
      return none

def fileEdges (b : GraphBuilder) (host : Host) (root : String) (set : FileSet) (path : String) :
    Logged (List (String × ImportKind)) := do
  let imports ← b.fileImports host root path
  return (← Logged.each (b.importTarget set path) imports).filterMap id

/-- The edges of a graph: those of each file in order, numbered from zero. -/
def numberEdges (batches : List (String × List (String × ImportKind))) : List FileEdge :=
  (batches.flatMap fun (source, batch) => batch.map (source, ·)).zipIdx.map
    fun ((source, target, kind), n) => ⟨"edge-" ++ toString n, source, target, kind⟩

/-- The graph of a list of files, given the resolved imports of each. -/
def assemble (files : List String) (batches : List (List (String × ImportKind))) : FileGraph where
  nodes := files.map FileNode.ofPath
  edges := numberEdges (files.zip batches)
  folderGroups := FolderGroup.ofPaths files

def buildFromRoot (b : GraphBuilder) (host : Host) (root : String) (scope : Option String) :
    Logged (Except BuildError FileGraph) := do
  if !host.isFolder root then return .error (.repositoryNotFound root)
  match ← b.discovery.discover host root scope with
  | .error e => return .error e
  | .ok files =>
    say .info ("Found " ++ toString files.length ++ " files to analyze")
    let batches ← Logged.each (b.fileEdges host root ⟨files⟩) files
    let g := assemble files batches
    say .info ("Graph built: " ++ toString g.nodes.length ++ " nodes, " ++
      toString g.edges.length ++ " edges, " ++ toString g.folderGroups.length ++ " folders")
    return .ok g

end GraphBuilder

end ImportAtlas
