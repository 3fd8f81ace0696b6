import ImportAtlas.Proofs.Config

/-!
# Settings one by one

A layer has values for some of the settings. A document holds a layer if it writes just these, be it
among other keys and in whatever way its tables are put; reading it takes every setting by itself,
and one that is not written has its default, whether the key, its table or all is missing. Each
layer whose numbers TOML can hold is the layer of some text.
-/

namespace ImportAtlas

open Json hiding renderString
open Toml

/-- Values for some of the settings. -/
structure Layer where
  reposDir : Option String := none
  extraExcludedDirs : Option (List String) := none
  followSymlinks : Option Bool := none
  maxFileSize : Option Nat := none
  parallelThreads : Option Nat := none
  resolutionOrder : Option SuffixOrder := none
  host : Option String := none
  port : Option UInt16 := none

namespace Layer

variable {α : Type} {l : Layer} {doc table j : Json}

/-- Each setting has its own value in the layer, else its default. -/
def config (l : Layer) : Config where
  reposDir := l.reposDir.getD "./temp/repos"
  graph := {
    extraExcludedDirs := l.extraExcludedDirs.getD []
    followSymlinks := l.followSymlinks.getD false
    maxFileSize := l.maxFileSize.getD 0
    parallelThreads := l.parallelThreads.getD 0
    resolutionOrder := l.resolutionOrder.getD .javascriptFirst }
  server := {
    host := l.host.getD "127.0.0.1"
    port := l.port.getD 5000 }

/-! ## Documents that hold a layer -/

/-- The value of a key in a table of a document. -/
def inTable? (table key : String) (doc : Json) : Option Json := doc.get? table >>= Json.get? key

def IsTable (j : Json) : Prop := ∃ members, j = .obj members

/-- The document gives the settings of the layer their values, and no others. -/
structure IsIn (l : Layer) (doc : Json) : Prop where
  root : IsTable doc
  graph : ∀ j ∈ doc.get? "graph", IsTable j
  server : ∀ j ∈ doc.get? "server", IsTable j
  reposDir : doc.get? "repos_dir" = l.reposDir.map .str
  extraExcludedDirs : inTable? "graph" "extra_excluded_dirs" doc = l.extraExcludedDirs.map strings
  followSymlinks : inTable? "graph" "follow_symlinks" doc = l.followSymlinks.map .bool
  maxFileSize : inTable? "graph" "max_file_size" doc = l.maxFileSize.map nat
  parallelThreads : inTable? "graph" "parallel_threads" doc = l.parallelThreads.map nat
  resolutionOrder : inTable? "graph" "resolution_order" doc =
    l.resolutionOrder.map fun order => .str order.name
  host : inTable? "server" "host" doc = l.host.map .str
  port : inTable? "server" "port" doc = l.port.map fun port => nat port.toNat

/-- Counts are numbers of 64 bits. -/
structure CountsFit (l : Layer) : Prop where
  maxFileSize : ∀ n ∈ l.maxFileSize, n < countBound
  parallelThreads : ∀ n ∈ l.parallelThreads, n < countBound

theorem withDefault_of_map {r : Record} {i : Nat} {name : String} {value : Json → Option α}
    {o : Option α} {toJson : α → Json} {default : α} (hget : r.get? i name = o.map toJson)
    (hvalue : ∀ a ∈ o, value (toJson a) = some a) :
    r.withDefault i name value default = some (o.getD default) := by
  rw [Record.withDefault, hget]
  cases o with
  | none => rfl
  | some a => exact hvalue a rfl

theorem exists_record (size : Nat) (hj : IsTable j) :
    ∃ r, record? size j = some r ∧ ∀ i key, r.get? i key = j.get? key := by
  obtain ⟨members, rfl⟩ := hj
  exact ⟨_, rfl, fun _ _ => rfl⟩

theorem inTable?_of_some {table : String} (htable : doc.get? table = some j) (key : String) :
    inTable? table key doc = j.get? key := by
  rw [inTable?, htable]
  rfl

theorem asName?_name (order : SuffixOrder) :
    asName? SuffixOrder.ofName? (.str order.name) = some order :=
  SuffixOrder.ofName?_name order

theorem graph_of_some (h : l.IsIn doc) (hfit : l.CountsFit) (hgraph : doc.get? "graph" = some j) :
    GraphConfig.ofJson? j = some l.config.graph := by
  obtain ⟨r, hrecord, hr⟩ := exists_record 5 (h.graph j hgraph)
  have hget (i : Nat) (key : String) : r.get? i key = inTable? "graph" key doc := by
    rw [hr, inTable?_of_some hgraph]
  have hdirs := (hget 0 _).trans h.extraExcludedDirs
  have hlinks := (hget 1 _).trans h.followSymlinks
  have hsize := (hget 2 _).trans h.maxFileSize
  have hthreads := (hget 3 _).trans h.parallelThreads
  have horder := (hget 4 _).trans h.resolutionOrder
  rw [GraphConfig.ofJson?, hrecord]
  simp only [bind, pure, Option.bind_some, withDefault_of_map hdirs fun ss _ => asList?_strings ss,
    withDefault_of_map hlinks fun b _ => asBool?_bool b,
    withDefault_of_map hsize fun n hn => asNat?_nat (hfit.maxFileSize n hn),
    withDefault_of_map hthreads fun n hn => asNat?_nat (hfit.parallelThreads n hn),
    withDefault_of_map horder fun order _ => asName?_name order]
  rfl

theorem server_of_some (h : l.IsIn doc) (hserver : doc.get? "server" = some j) :
    ServerConfig.ofJson? j = some l.config.server := by
  obtain ⟨r, hrecord, hr⟩ := exists_record 2 (h.server j hserver)
  have hget (i : Nat) (key : String) : r.get? i key = inTable? "server" key doc := by
    rw [hr, inTable?_of_some hserver]
  have hhost := (hget 0 _).trans h.host
  have hport := (hget 1 _).trans h.port
  rw [ServerConfig.ofJson?, hrecord]
  simp only [bind, pure, Option.bind_some, withDefault_of_map hhost fun s _ => asString?_str s,
    withDefault_of_map hport fun port _ => asPort?_nat port]
  rfl

/-- Where a table is missing, so are the settings in it. -/
theorem eq_none_of_missing {table key : String} {o : Option α} {toJson : α → Json}
    (htable : doc.get? table = none) (ho : inTable? table key doc = o.map toJson) : o = none := by
  rw [inTable?, htable] at ho
  exact Option.map_eq_none_iff.mp ho.symm

theorem graph_of_none (h : l.IsIn doc) (hgraph : doc.get? "graph" = none) :
    l.config.graph = {} := by
  simp [config, eq_none_of_missing hgraph h.extraExcludedDirs,
    eq_none_of_missing hgraph h.followSymlinks, eq_none_of_missing hgraph h.maxFileSize,
    eq_none_of_missing hgraph h.parallelThreads, eq_none_of_missing hgraph h.resolutionOrder]

theorem server_of_none (h : l.IsIn doc) (hserver : doc.get? "server" = none) :
    l.config.server = {} := by
  simp [config, eq_none_of_missing hserver h.host, eq_none_of_missing hserver h.port]

theorem withDefault_of_table {r : Record} {i : Nat} {name : String} {value : Json → Option α}
    {a default : α} (hsome : ∀ j, r.get? i name = some j → value j = some a)
    (hnone : r.get? i name = none → a = default) :
    r.withDefault i name value default = some a := by
  rw [Record.withDefault]
  cases hget : r.get? i name with
  | none => rw [hnone hget]
  | some j => exact hsome j hget

/-- A document is read as the settings of the layer that it holds. -/
theorem ofJson?_of_isIn (h : l.IsIn doc) (hfit : l.CountsFit) :
    Config.ofJson? doc = some l.config := by
  obtain ⟨r, hrecord, hget⟩ := exists_record 3 h.root
  have hdir := (hget 0 _).trans h.reposDir
  have hgraph : r.withDefault 1 "graph" GraphConfig.ofJson? {} = some l.config.graph := by
    refine withDefault_of_table (fun j hj => ?_) fun hnone => ?_
    · exact graph_of_some h hfit ((hget _ _).symm.trans hj)
    · exact graph_of_none h ((hget _ _).symm.trans hnone)
  have hserver : r.withDefault 2 "server" ServerConfig.ofJson? {} = some l.config.server := by
    refine withDefault_of_table (fun j hj => ?_) fun hnone => ?_
    · exact server_of_some h ((hget _ _).symm.trans hj)
    · exact server_of_none h ((hget _ _).symm.trans hnone)
  rw [Config.ofJson?, hrecord]
  simp only [bind, pure, Option.bind_some, withDefault_of_map hdir fun s _ => asString?_str s,
    hgraph, hserver]
  rfl

/-- The text is TOML, and its document gives the settings of the layer values that fit. -/
def IsWrittenIn (l : Layer) (text : String) : Prop :=
  l.CountsFit ∧ ∃ t, Toml.parse? text = some t ∧ l.IsIn t.toJson

theorem ofToml?_of_isWrittenIn {text : String} (h : l.IsWrittenIn text) :
    Config.ofToml? text = some l.config := by
  obtain ⟨hfit, t, hparse, hin⟩ := h
  rw [Config.ofToml?, hparse, Option.bind_eq_bind, Option.bind_some, ofJson?_of_isIn hin hfit]

/-! ## A text for each layer -/

/-- A key of a table, with the text and the meaning of its value if it is written. -/
abbrev Setting := String × Option (List Char × Toml)

def pairs (settings : List Setting) : List Line :=
  settings.filterMap fun s => s.2.map fun v => .pair s.1 v.1 v.2

def members (settings : List Setting) : List (String × Toml) :=
  settings.filterMap fun s => s.2.map fun v => (s.1, v.2)

theorem isReadable_of_mem_pairs {settings : List Setting}
    (h : ∀ s ∈ settings, ∀ v ∈ s.2, (Line.pair s.1 v.1 v.2).IsReadable) :
    ∀ line ∈ pairs settings, line.IsReadable := by
  intro line hline
  obtain ⟨s, hs, hmap⟩ := List.mem_filterMap.mp hline
  obtain ⟨v, hv, rfl⟩ := Option.map_eq_some_iff.mp hmap
  exact h s hs v hv

theorem key_notMem_members {settings : List Setting} {key : String}
    (h : key ∉ settings.map Prod.fst) : key ∉ (members settings).map Prod.fst := by
  intro hkey
  obtain ⟨m, hm, rfl⟩ := List.mem_map.mp hkey
  obtain ⟨s, hs, hmap⟩ := List.mem_filterMap.mp hm
  obtain ⟨v, -, rfl⟩ := Option.map_eq_some_iff.mp hmap
  exact h (List.mem_map_of_mem hs)

/-- Lines add to the table that is open, whichever one of the document that is. -/
theorem foldlM_pairs (opened : List (String × Toml) → Document) (settings : List Setting)
    (inner : List (String × Toml))
    (hopened : ∀ inner key text value, key ∉ inner.map Prod.fst →
      (Line.pair key text value).apply (opened inner) = some (opened (inner ++ [(key, value)])))
    (hnodup : (inner.map Prod.fst ++ settings.map Prod.fst).Nodup) :
    (pairs settings).foldlM Line.apply (opened inner) =
      some (opened (inner ++ members settings)) := by
  induction settings generalizing inner with
  | nil => simp [pairs, members]
  | cons s settings ih =>
      obtain ⟨key, value⟩ := s
      cases value with
      | none =>
          refine ih inner (hnodup.sublist ?_)
          exact (List.sublist_cons_self _ _).append_left _
      | some v =>
          have hkey : key ∉ inner.map Prod.fst := fun hmem =>
            (List.nodup_append.mp hnodup).2.2 key hmem key List.mem_cons_self rfl
          have hrest := ih (inner ++ [(key, v.2)]) (by simpa using hnodup)
          rw [List.append_assoc] at hrest
          change ((Line.pair key v.1 v.2) :: pairs settings).foldlM Line.apply (opened inner) = _
          rw [List.foldlM_cons, hopened inner key v.1 v.2 hkey]
          exact hrest

theorem find?_eq_none {key : String} {ms : List (String × Toml)} (h : key ∉ ms.map Prod.fst) :
    Toml.find? key ms = none := by
  rw [Toml.find?, Option.map_eq_none_iff, List.find?_eq_none]
  intro m hm hkey
  exact h (List.mem_map.mpr ⟨m, hm, by simpa using hkey⟩)

theorem find?_append_singleton {name : String} {ms : List (String × Toml)}
    (h : name ∉ ms.map Prod.fst) (t : Toml) : Toml.find? name (ms ++ [(name, t)]) = some t := by
  have hms := find?_eq_none h
  rw [Toml.find?, Option.map_eq_none_iff] at hms
  simp [Toml.find?, List.find?_append, hms]

theorem set_append_singleton {name : String} {ms : List (String × Toml)}
    (h : name ∉ ms.map Prod.fst) (t u : Toml) :
    Toml.set name u (ms ++ [(name, t)]) = ms ++ [(name, u)] := by
  induction ms with
  | nil => simp [Toml.set]
  | cons m ms ih =>
      simp only [List.map_cons, List.mem_cons, not_or] at h
      simp [Toml.set, Ne.symm h.1, ih h.2]

theorem insertPair?_table {key : String} {ms : List (String × Toml)} (h : key ∉ ms.map Prod.fst)
    (value : Toml) :
    insertPair? (.table false false ms) ([key], value) =
      some (.table false false (ms ++ [(key, value)])) := by
  simp [insertPair?, Toml.insert, alterAt, insert.add, find?_eq_none h]

theorem apply_pair_root {key : String} {ms : List (String × Toml)} (h : key ∉ ms.map Prod.fst)
    (text : List Char) (value : Toml) :
    (Line.pair key text value).apply ⟨.table false false ms, []⟩ =
      some ⟨.table false false (ms ++ [(key, value)]), []⟩ := by
  rw [Line.apply, alterAt, insertPair?_table h, Option.map_some]

theorem apply_pair_table {name key : String} {ms inner : List (String × Toml)}
    (hname : name ∉ ms.map Prod.fst) (hkey : key ∉ inner.map Prod.fst) (text : List Char)
    (value : Toml) :
    (Line.pair key text value).apply
        ⟨.table false false (ms ++ [(name, .table false false inner)]), [name]⟩ =
      some ⟨.table false false (ms ++ [(name, .table false false (inner ++ [(key, value)]))]),
        [name]⟩ := by
  simp [Line.apply, alterAt, find?_append_singleton hname, set_append_singleton hname,
    insertPair?_table hkey]

theorem apply_header {name : String} {ms : List (String × Toml)} (h : name ∉ ms.map Prod.fst)
    (path : List String) :
    (Line.header name).apply ⟨.table false false ms, path⟩ =
      some ⟨.table false false (ms ++ [(name, .table false false [])]), [name]⟩ := by
  simp [Line.apply, openTable, alterAt, openTable.opened, find?_eq_none h]

theorem toJsonMembers_eq (ms : List (String × Toml)) :
    toJsonMembers ms = ms.map fun m => (m.1, m.2.toJson) := by
  induction ms with
  | nil => rfl
  | cons m ms ih => rw [toJsonMembers, ih, List.map_cons]

theorem get?_members {settings : List Setting} {key : String} {value : Option (List Char × Toml)}
    (hnodup : (settings.map Prod.fst).Nodup) (hmem : (key, value) ∈ settings) :
    (Toml.table false false (members settings)).toJson.get? key =
      value.map fun v => v.2.toJson := by
  rw [Toml.toJson, toJsonMembers_eq, Json.get?, ← List.map_reverse, List.find?_map,
    Option.map_map]
  cases hfind : (members settings).reverse.find? ((·.1 == key) ∘ fun m => (m.1, m.2.toJson)) with
  | none =>
      cases value with
      | none => rfl
      | some v =>
          have hmember : (key, v.2) ∈ members settings := List.mem_filterMap.mpr ⟨_, hmem, rfl⟩
          exact absurd (List.find?_eq_none.mp hfind _ (List.mem_reverse.mpr hmember)) (by simp)
  | some m =>
      have hm := List.mem_reverse.mp (List.mem_of_find?_eq_some hfind)
      obtain ⟨s, hs, hmap⟩ := List.mem_filterMap.mp hm
      obtain ⟨v, hv, rfl⟩ := Option.map_eq_some_iff.mp hmap
      have hkey : s.1 = key := by simpa using List.find?_some hfind
      obtain rfl : s = (key, value) := List.inj_on_of_nodup_map hnodup hs hmem hkey
      rw [show value = some v from hv]
      rfl

theorem get?_members_map {settings : List Setting} {key : String} {o : Option α}
    {f : α → List Char × Toml} (hnodup : (settings.map Prod.fst).Nodup)
    (hmem : (key, o.map f) ∈ settings) :
    (Toml.table false false (members settings)).toJson.get? key =
      o.map fun a => (f a).2.toJson := by
  rw [get?_members hnodup hmem, Option.map_map]
  rfl

def rootSettings (l : Layer) : List Setting :=
  [("repos_dir", l.reposDir.map fun s => (renderString s, .str s))]

def graphSettings (l : Layer) : List Setting :=
  [("extra_excluded_dirs",
      l.extraExcludedDirs.map fun ss => (renderStrings ss, .array (ss.map .str))),
    ("follow_symlinks", l.followSymlinks.map fun b => (renderBool b, .bool b)),
    ("max_file_size", l.maxFileSize.map fun n => (renderNat n, .int n)),
    ("parallel_threads", l.parallelThreads.map fun n => (renderNat n, .int n)),
    ("resolution_order",
      l.resolutionOrder.map fun order => (renderString order.name, .str order.name))]

def serverSettings (l : Layer) : List Setting :=
  [("host", l.host.map fun s => (renderString s, .str s)),
    ("port", l.port.map fun port => (renderNat port.toNat, .int port.toNat))]

def lines (l : Layer) : List Line :=
  pairs l.rootSettings ++ .header "graph" :: (pairs l.graphSettings ++
    .header "server" :: pairs l.serverSettings)

/-- The settings of the whole document, its two tables among them. -/
def documentSettings (l : Layer) : List Setting :=
  l.rootSettings ++
    [("graph", some ([], .table false false (members l.graphSettings))),
      ("server", some ([], .table false false (members l.serverSettings)))]

/-- What the lines make up. -/
def document (l : Layer) : Toml := .table false false (members l.documentSettings)

/-- The numbers of the layer are such as TOML can hold. -/
structure NumbersFit (l : Layer) : Prop where
  maxFileSize : ∀ n ∈ l.maxFileSize, n ≤ Config.maxTomlNat
  parallelThreads : ∀ n ∈ l.parallelThreads, n ≤ Config.maxTomlNat

theorem NumbersFit.countsFit (h : l.NumbersFit) : l.CountsFit where
  maxFileSize n hn := Nat.lt_of_le_of_lt (h.maxFileSize n hn) (by decide)
  parallelThreads n hn := Nat.lt_of_le_of_lt (h.parallelThreads n hn) (by decide)

theorem isReadable_of_mem_lines (h : l.NumbersFit) : ∀ line ∈ l.lines, line.IsReadable := by
  have hbare := Config.isBareKey_of_mem
  have hport (port : UInt16) : port.toNat < 0x8000000000000000 :=
    Nat.lt_trans port.toNat_lt (by decide)
  simp only [lines, List.forall_mem_append, List.forall_mem_cons]
  refine ⟨isReadable_of_mem_pairs ?_, hbare _ (by decide), isReadable_of_mem_pairs ?_,
    hbare _ (by decide), isReadable_of_mem_pairs ?_⟩
  · simp only [rootSettings, List.forall_mem_singleton, Option.forall_mem_map]
    exact fun s _ => Line.isReadable_str (hbare _ (by decide)) s
  · simp only [graphSettings, List.forall_mem_cons, Option.forall_mem_map]
    exact ⟨fun ss _ => Line.isReadable_strings (hbare _ (by decide)) ss,
      fun b _ => Line.isReadable_bool (hbare _ (by decide)) b,
      fun n hn => Line.isReadable_nat (hbare _ (by decide))
        (Nat.lt_succ_of_le (h.maxFileSize n hn)),
      fun n hn => Line.isReadable_nat (hbare _ (by decide))
        (Nat.lt_succ_of_le (h.parallelThreads n hn)),
      fun order _ => Line.isReadable_str (hbare _ (by decide)) order.name, List.forall_mem_nil _⟩
  · simp only [serverSettings, List.forall_mem_cons, Option.forall_mem_map]
    exact ⟨fun s _ => Line.isReadable_str (hbare _ (by decide)) s,
      fun port _ => Line.isReadable_nat (hbare _ (by decide)) (hport port), List.forall_mem_nil _⟩

theorem foldlM_lines (l : Layer) :
    l.lines.foldlM Line.apply ⟨.table false false [], []⟩ = some ⟨l.document, ["server"]⟩ := by
  have hgraph : "graph" ∉ (members l.rootSettings).map Prod.fst :=
    key_notMem_members (by simp [rootSettings])
  have hserver (t : Toml) : "server" ∉ (members l.rootSettings ++ [("graph", t)]).map Prod.fst := by
    rw [List.map_append, List.mem_append, not_or]
    exact ⟨key_notMem_members (by simp [rootSettings]), by simp⟩
  have hroot := foldlM_pairs (fun ms => ⟨.table false false ms, []⟩) l.rootSettings []
    (fun _ _ text value hkey => apply_pair_root hkey text value) (by simp [rootSettings])
  have hinner := foldlM_pairs _ l.graphSettings []
    (fun _ _ text value hkey => apply_pair_table hgraph hkey text value) (by simp [graphSettings])
  have hlast := foldlM_pairs _ l.serverSettings []
    (fun _ _ text value hkey =>
      apply_pair_table (hserver (.table false false (members l.graphSettings))) hkey text value)
    (by simp [serverSettings])
  simp only [List.nil_append] at hroot hinner hlast
  rw [lines, List.foldlM_append, hroot]
  simp only [bind, Option.bind_some, List.foldlM_cons, List.foldlM_append, apply_header hgraph,
    hinner, apply_header (hserver _), hlast]
  simp [document, documentSettings, members]

/-- The text that has a line for each setting of the layer. -/
def text (l : Layer) : String := String.ofList (l.lines.flatMap Line.render)

theorem isIn_document (l : Layer) : l.IsIn l.document.toJson := by
  have hkeys : (l.documentSettings.map Prod.fst).Nodup := by
    simp [documentSettings, rootSettings]
  have hinner (table : String) (ms : List (String × Toml))
      (hmem : (table, some ([], .table false false ms)) ∈ l.documentSettings) :
      l.document.toJson.get? table = some (Toml.table false false ms).toJson := by
    rw [document, get?_members hkeys hmem, Option.map_some]
  have hgraph := hinner "graph" (members l.graphSettings) (by simp [documentSettings])
  have hserver := hinner "server" (members l.serverSettings) (by simp [documentSettings])
  have hinroot {α : Type} {key : String} {o : Option α} {f : α → List Char × Toml}
      (hmem : (key, o.map f) ∈ l.rootSettings) :
      l.document.toJson.get? key = o.map fun a => (f a).2.toJson :=
    get?_members_map hkeys (List.mem_append_left _ hmem)
  have hingraph {α : Type} {key : String} {o : Option α} {f : α → List Char × Toml}
      (hmem : (key, o.map f) ∈ l.graphSettings) :
      inTable? "graph" key l.document.toJson = o.map fun a => (f a).2.toJson :=
    (inTable?_of_some hgraph key).trans (get?_members_map (by simp [graphSettings]) hmem)
  have hinserver {α : Type} {key : String} {o : Option α} {f : α → List Char × Toml}
      (hmem : (key, o.map f) ∈ l.serverSettings) :
      inTable? "server" key l.document.toJson = o.map fun a => (f a).2.toJson :=
    (inTable?_of_some hserver key).trans (get?_members_map (by simp [serverSettings]) hmem)
  have htable (ms : List (String × Toml)) : IsTable (Toml.table false false ms).toJson :=
    ⟨toJsonMembers ms, by rw [Toml.toJson]⟩
  have hstrings (ss : List String) : (Toml.array (ss.map .str)).toJson = strings ss := by
    rw [Toml.toJson, Config.toJsonItems_map_str, strings]
  constructor
  case root => exact htable _
  case graph =>
    rw [hgraph]
    rintro _ ⟨⟩
    exact htable _
  case server =>
    rw [hserver]
    rintro _ ⟨⟩
    exact htable _
  case reposDir => exact hinroot (.head _)
  case extraExcludedDirs =>
    have hdirs := hingraph (.head _)
    simp only [hstrings] at hdirs
    exact hdirs
  case followSymlinks => exact hingraph (.tail _ (.head _))
  case maxFileSize => exact hingraph (.tail _ (.tail _ (.head _)))
  case parallelThreads => exact hingraph (.tail _ (.tail _ (.tail _ (.head _))))
  case resolutionOrder => exact hingraph (.tail _ (.tail _ (.tail _ (.tail _ (.head _)))))
  case host => exact hinserver (.head _)
  case port => exact hinserver (.tail _ (.head _))

theorem isWrittenIn_text (h : l.NumbersFit) : l.IsWrittenIn l.text := by
  refine ⟨h.countsFit, l.document, ?_, isIn_document l⟩
  rw [text, parse?_lines (isReadable_of_mem_lines h), foldlM_lines, Option.map_some]

end Layer

end ImportAtlas
