import ImportAtlas.Config.Load
import ImportAtlas.Proofs.Host.Lookup
import ImportAtlas.Proofs.Json.Record
import ImportAtlas.Proofs.Toml.Document

/-!
# The configuration written and read back

A configuration whose numbers TOML can hold is the one that is read from its text.
-/

namespace ImportAtlas

open Json hiding renderString
open Toml

variable {c : Config}

theorem GraphConfig.ofJson?_toJson {c : GraphConfig} (hsize : c.maxFileSize < countBound)
    (hthreads : c.parallelThreads < countBound) : GraphConfig.ofJson? c.toJson = some c := by
  simp [GraphConfig.ofJson?, GraphConfig.toJson, record?, Record.withDefault, Json.get?,
    asNat?_nat hsize, asNat?_nat hthreads]

theorem asPort?_nat (port : UInt16) : asPort? (nat port.toNat) = some port := by
  rw [asPort?, asNat?_nat port.toNat_lt, Option.map_some, UInt16.ofNat_toNat]

theorem ServerConfig.ofJson?_toJson (c : ServerConfig) :
    ServerConfig.ofJson? c.toJson = some c := by
  simp [ServerConfig.ofJson?, ServerConfig.toJson, record?, Record.withDefault, Json.get?,
    asPort?_nat]

namespace Config

/-- The numbers of a configuration are such as TOML can hold. -/
structure NumbersFit (c : Config) : Prop where
  maxFileSize : c.graph.maxFileSize ≤ maxTomlNat
  parallelThreads : c.graph.parallelThreads ≤ maxTomlNat

theorem ofJson?_toJson (h : c.NumbersFit) : Config.ofJson? c.toJson = some c := by
  have hgraph : GraphConfig.ofJson? c.graph.toJson = some c.graph :=
    GraphConfig.ofJson?_toJson (Nat.lt_of_le_of_lt h.maxFileSize (by decide))
      (Nat.lt_of_le_of_lt h.parallelThreads (by decide))
  simp [Config.ofJson?, Config.toJson, record?, Record.withDefault, Json.get?, hgraph,
    ServerConfig.ofJson?_toJson]

/-- The lines of a configuration, with what their values mean. -/
def lines (c : Config) : List Line :=
  [.pair "repos_dir" (renderString c.reposDir) (.str c.reposDir),
    .header "graph",
    .pair "extra_excluded_dirs" (renderStrings c.graph.extraExcludedDirs)
      (.array (c.graph.extraExcludedDirs.map .str)),
    .pair "follow_symlinks" (renderBool c.graph.followSymlinks) (.bool c.graph.followSymlinks),
    .pair "max_file_size" (renderNat c.graph.maxFileSize) (.int c.graph.maxFileSize),
    .pair "parallel_threads" (renderNat c.graph.parallelThreads) (.int c.graph.parallelThreads),
    .pair "resolution_order" (renderString c.graph.resolutionOrder.name)
      (.str c.graph.resolutionOrder.name),
    .header "server",
    .pair "host" (renderString c.server.host) (.str c.server.host),
    .pair "port" (renderNat c.server.port.toNat) (.int c.server.port.toNat)]

theorem tomlText_eq (c : Config) : c.tomlText = String.ofList (c.lines.flatMap Line.render) := by
  simp [tomlText, lines, Line.render]

/-- The names of the settings and of their tables need no quotes. -/
theorem isBareKey_of_mem : ∀ key ∈ ["repos_dir", "graph", "extra_excluded_dirs",
    "follow_symlinks", "max_file_size", "parallel_threads", "resolution_order", "server", "host",
    "port"], IsBareKey key := by
  simp [IsBareKey, isKeyChar]

theorem isReadable_of_mem_lines (h : c.NumbersFit) : ∀ line ∈ c.lines, line.IsReadable := by
  have hport : c.server.port.toNat < 0x8000000000000000 :=
    Nat.lt_trans c.server.port.toNat_lt (by decide)
  simp only [lines, List.forall_mem_cons]
  refine ⟨Line.isReadable_str ?_ _, ?_, Line.isReadable_strings ?_ _, Line.isReadable_bool ?_ _,
    Line.isReadable_nat ?_ (Nat.lt_succ_of_le h.maxFileSize),
    Line.isReadable_nat ?_ (Nat.lt_succ_of_le h.parallelThreads), Line.isReadable_str ?_ _, ?_,
    Line.isReadable_str ?_ _, Line.isReadable_nat ?_ hport, by simp⟩
  all_goals exact isBareKey_of_mem _ (by decide)

/-- The tables that the lines of a configuration make up. -/
def document (c : Config) : Toml :=
  .table false false
    [("repos_dir", .str c.reposDir),
      ("graph", .table false false
        [("extra_excluded_dirs", .array (c.graph.extraExcludedDirs.map .str)),
          ("follow_symlinks", .bool c.graph.followSymlinks),
          ("max_file_size", .int c.graph.maxFileSize),
          ("parallel_threads", .int c.graph.parallelThreads),
          ("resolution_order", .str c.graph.resolutionOrder.name)]),
      ("server", .table false false
        [("host", .str c.server.host), ("port", .int c.server.port.toNat)])]

theorem foldlM_lines (c : Config) :
    c.lines.foldlM Line.apply ⟨.table false false [], []⟩ = some ⟨c.document, ["server"]⟩ := by
  rfl

theorem toJsonItems_map_str (ss : List String) : toJsonItems (ss.map .str) = ss.map Json.str := by
  induction ss with
  | nil => rfl
  | cons s ss ih => rw [List.map_cons, toJsonItems, ih, List.map_cons, Toml.toJson]

theorem toJson_document (c : Config) : c.document.toJson = c.toJson := by
  simp [document, Toml.toJson, toJsonMembers, toJsonItems_map_str, Config.toJson,
    GraphConfig.toJson, ServerConfig.toJson, strings, nat]

theorem ofToml?_tomlText (h : c.NumbersFit) : ofToml? c.tomlText = some c := by
  rw [ofToml?, tomlText_eq, parse?_lines (isReadable_of_mem_lines h), foldlM_lines,
    Option.map_some, Option.bind_eq_bind, Option.bind_some, toJson_document, ofJson?_toJson h]

theorem toToml?_of_numbersFit (h : c.NumbersFit) : c.toToml? = some c.tomlText := by
  rw [toToml?, if_pos (by simp [h.maxFileSize, h.parallelThreads])]

/-- A configuration whose numbers TOML can hold has a text, and every file that holds this text is
read as the configuration. -/
theorem fromFile_of_toToml (hsize : c.graph.maxFileSize ≤ maxTomlNat)
    (hthreads : c.graph.parallelThreads ≤ maxTomlNat) :
    ∃ text, c.toToml? = some text ∧ ofToml? text = some c ∧
      ∀ (host : Host) (path : String), host.readBytes path = .ok text.toUTF8 →
        fromFile host path = .ok c := by
  have hfit : c.NumbersFit := ⟨hsize, hthreads⟩
  refine ⟨c.tomlText, toToml?_of_numbersFit hfit, ofToml?_tomlText hfit, fun host path hbytes => ?_⟩
  rw [fromFile, Host.readText_of_readBytes hbytes]
  simp only [ofToml?_tomlText hfit]

/-! ### Strings that need every form, and the greatest number -/

def strange : Config where
  reposDir := "it's \"here\": C:\\\n\x7f"
  graph := {
    extraExcludedDirs := ["", "'", "\"\"\"", "\r\n'''"]
    followSymlinks := true
    maxFileSize := maxTomlNat
    resolutionOrder := .typescriptFirst }
  server := { host := "\t\x00ä" }

def hostWith (text : String) : Host := ⟨.folder [("c.toml", .file text.toUTF8)], []⟩

theorem readBytes_hostWith (text : String) :
    (hostWith text).readBytes "/c.toml" = .ok text.toUTF8 := by
  cbv

theorem fromFile_strange : strange.graph.maxFileSize ≤ maxTomlNat ∧
    strange.graph.parallelThreads ≤ maxTomlNat ∧
    ∃ text, strange.toToml? = some text ∧
      fromFile (hostWith text) "/c.toml" = .ok strange := by
  have hsize : strange.graph.maxFileSize ≤ maxTomlNat := by decide
  have hthreads : strange.graph.parallelThreads ≤ maxTomlNat := by decide
  obtain ⟨text, htext, _, hfile⟩ := fromFile_of_toToml hsize hthreads
  exact ⟨hsize, hthreads, text, htext, hfile _ _ (readBytes_hostWith text)⟩

end Config

end ImportAtlas
