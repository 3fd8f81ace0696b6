import ImportAtlas.Graph.Basic
import ImportAtlas.Json.Record

/-!
# Graphs and reports as JSON

The JSON value of each part of a graph and of a report, and the way back.
-/

namespace ImportAtlas

open Json

namespace Language

def toJson (l : Language) : Json := str l.name

def ofJson? : Json → Option Language := asName? ofName?

end Language

namespace ImportKind

def toJson (k : ImportKind) : Json := str k.name

def ofJson? : Json → Option ImportKind := asName? ofName?

end ImportKind

namespace ImportStatement

def toJson (i : ImportStatement) : Json :=
  obj [("importedPath", str i.specifier), ("line", nat i.line), ("type", i.kind.toJson)]

def ofJson? (j : Json) : Option ImportStatement := do
  let r ← record? 3 j
  return {
    specifier := ← r.required 0 "importedPath" asString?
    line := ← r.required 1 "line" (asNat? countBound)
    kind := ← r.required 2 "type" ImportKind.ofJson? }

end ImportStatement

namespace ParseReport

def toJson (p : ParseReport) : Json :=
  obj [("file", str p.file), ("language", ofOption Language.toJson p.language),
    ("imports", arr (p.imports.map ImportStatement.toJson)), ("importCount", nat p.importCount)]

def ofJson? (j : Json) : Option ParseReport := do
  let r ← record? 4 j
  return {
    file := ← r.required 0 "file" asString?
    language := ← r.optional 1 "language" Language.ofJson?
    imports := ← r.required 2 "imports" (asList? ImportStatement.ofJson?)
    importCount := ← r.required 3 "importCount" (asNat? countBound) }

end ParseReport

namespace FileNode

def toJson (n : FileNode) : Json :=
  obj [("id", str n.id), ("path", str n.path), ("label", str n.label),
    ("language", n.language.toJson)]

def ofJson? (j : Json) : Option FileNode := do
  let r ← record? 4 j
  return {
    id := ← r.required 0 "id" asString?
    path := ← r.required 1 "path" asString?
    label := ← r.required 2 "label" asString?
    language := ← r.required 3 "language" Language.ofJson? }

end FileNode

namespace FileEdge

def toJson (e : FileEdge) : Json :=
  obj [("id", str e.id), ("source", str e.source), ("target", str e.target),
    ("importType", e.kind.toJson)]

def ofJson? (j : Json) : Option FileEdge := do
  let r ← record? 4 j
  return {
    id := ← r.required 0 "id" asString?
    source := ← r.required 1 "source" asString?
    target := ← r.required 2 "target" asString?
    kind := ← r.required 3 "importType" ImportKind.ofJson? }

end FileEdge

namespace FolderGroup

def toJson (g : FolderGroup) : Json :=
  obj [("id", str g.id), ("name", str g.name), ("path", str g.path),
    ("fileIds", strings g.fileIds)]

def ofJson? (j : Json) : Option FolderGroup := do
  let r ← record? 4 j
  return {
    id := ← r.required 0 "id" asString?
    name := ← r.required 1 "name" asString?
    path := ← r.required 2 "path" asString?
    fileIds := ← r.required 3 "fileIds" (asList? asString?) }

end FolderGroup

namespace FileGraph

def toJson (g : FileGraph) : Json :=
  obj [("nodes", arr (g.nodes.map FileNode.toJson)), ("edges", arr (g.edges.map FileEdge.toJson)),
    ("folderGroups", arr (g.folderGroups.map FolderGroup.toJson))]

def ofJson? (j : Json) : Option FileGraph := do
  let r ← record? 3 j
  return {
    nodes := ← r.required 0 "nodes" (asList? FileNode.ofJson?)
    edges := ← r.required 1 "edges" (asList? FileEdge.ofJson?)
    folderGroups := ← r.required 2 "folderGroups" (asList? FolderGroup.ofJson?) }

end FileGraph

namespace GraphStats

def toJson (s : GraphStats) : Json :=
  obj [("totalFiles", nat s.totalFiles), ("totalImports", nat s.totalImports),
    ("analyzedFolder", str s.analyzedFolder)]

def ofJson? (j : Json) : Option GraphStats := do
  let r ← record? 3 j
  return {
    totalFiles := ← r.required 0 "totalFiles" (asNat? countBound)
    totalImports := ← r.required 1 "totalImports" (asNat? countBound)
    analyzedFolder := ← r.required 2 "analyzedFolder" asString? }

end GraphStats

namespace GraphResponse

def toJson (g : GraphResponse) : Json :=
  obj [("owner", str g.owner), ("name", str g.name), ("folder", ofOption str g.folder),
    ("graph", g.graph.toJson), ("stats", g.stats.toJson)]

def ofJson? (j : Json) : Option GraphResponse := do
  let r ← record? 5 j
  return {
    owner := ← r.required 0 "owner" asString?
    name := ← r.required 1 "name" asString?
    folder := ← r.optional 2 "folder" asString?
    graph := ← r.required 3 "graph" FileGraph.ofJson?
    stats := ← r.required 4 "stats" GraphStats.ofJson? }

end GraphResponse

end ImportAtlas
