import ImportAtlas.Json.Record
import ImportAtlas.Resolution
import ImportAtlas.Toml.Printer
import ImportAtlas.Toml.Reader

/-!
# Configuration

The settings of the program, their defaults, and their form as TOML and as JSON. A setting that a
document leaves out has its default.
-/

namespace ImportAtlas

structure GraphConfig where
  extraExcludedDirs : List String := []
  followSymlinks : Bool := false
  /-- In bytes; zero is no limit. -/
  maxFileSize : Nat := 0
  /-- Zero leaves the choice to the program. -/
  parallelThreads : Nat := 0
  resolutionOrder : SuffixOrder := .javascriptFirst
  deriving DecidableEq, Repr, Inhabited

structure ServerConfig where
  host : String := "127.0.0.1"
  port : UInt16 := 5000
  deriving DecidableEq, Repr, Inhabited

structure Config where
  reposDir : String := "./temp/repos"
  graph : GraphConfig := {}
  server : ServerConfig := {}
  deriving DecidableEq, Repr, Inhabited

open Json

/-- Ports are numbers of 16 bits. -/
def asPort? (j : Json) : Option UInt16 := (asNat? 0x10000 j).map UInt16.ofNat

namespace GraphConfig

def toJson (c : GraphConfig) : Json :=
  obj [("extra_excluded_dirs", strings c.extraExcludedDirs),
    ("follow_symlinks", bool c.followSymlinks), ("max_file_size", nat c.maxFileSize),
    ("parallel_threads", nat c.parallelThreads), ("resolution_order", str c.resolutionOrder.name)]

def ofJson? (j : Json) : Option GraphConfig := do
  let r ← record? 5 j
  return {
    extraExcludedDirs := ← r.withDefault 0 "extra_excluded_dirs" (asList? asString?) []
    followSymlinks := ← r.withDefault 1 "follow_symlinks" asBool? false
    maxFileSize := ← r.withDefault 2 "max_file_size" (asNat? countBound) 0
    parallelThreads := ← r.withDefault 3 "parallel_threads" (asNat? countBound) 0
    resolutionOrder :=
      ← r.withDefault 4 "resolution_order" (asName? SuffixOrder.ofName?) .javascriptFirst }

end GraphConfig

namespace ServerConfig

def toJson (c : ServerConfig) : Json := obj [("host", str c.host), ("port", nat c.port.toNat)]

def ofJson? (j : Json) : Option ServerConfig := do
  let r ← record? 2 j
  return {
    host := ← r.withDefault 0 "host" asString? "127.0.0.1"
    port := ← r.withDefault 1 "port" asPort? 5000 }

end ServerConfig

namespace Config

def toJson (c : Config) : Json :=
  obj [("repos_dir", str c.reposDir), ("graph", c.graph.toJson), ("server", c.server.toJson)]

def ofJson? (j : Json) : Option Config := do
  let r ← record? 3 j
  return {
    reposDir := ← r.withDefault 0 "repos_dir" asString? "./temp/repos"
    graph := ← r.withDefault 1 "graph" GraphConfig.ofJson? {}
    server := ← r.withDefault 2 "server" ServerConfig.ofJson? {} }

def ofToml? (text : String) : Option Config := Toml.parse? text >>= fun t => ofJson? t.toJson

/-- The greatest number that TOML can hold. -/
def maxTomlNat : Nat := 0x7fffffffffffffff

def tomlText (c : Config) : String :=
  String.ofList <|
    Toml.renderPair "repos_dir" (Toml.renderString c.reposDir) ++
    Toml.renderHeader "graph" ++
    Toml.renderPair "extra_excluded_dirs" (Toml.renderStrings c.graph.extraExcludedDirs) ++
    Toml.renderPair "follow_symlinks" (Toml.renderBool c.graph.followSymlinks) ++
    Toml.renderPair "max_file_size" (Toml.renderNat c.graph.maxFileSize) ++
    Toml.renderPair "parallel_threads" (Toml.renderNat c.graph.parallelThreads) ++
    Toml.renderPair "resolution_order" (Toml.renderString c.graph.resolutionOrder.name) ++
    Toml.renderHeader "server" ++
    Toml.renderPair "host" (Toml.renderString c.server.host) ++
    Toml.renderPair "port" (Toml.renderNat c.server.port.toNat)

/-- The configuration as TOML, unless a number is too great for it. -/
def toToml? (c : Config) : Option String :=
  if c.graph.maxFileSize ≤ maxTomlNat && c.graph.parallelThreads ≤ maxTomlNat then some c.tomlText
  else none

end Config

end ImportAtlas
