import ImportAtlas.Graph.Build
import ImportAtlas.Proofs.Discovery.Listing
import ImportAtlas.Proofs.Graph.Batches

/-!
# What a build consists of

A build that succeeds gives one node to each discovered file and, file after file, one edge to
each import that resolves in the set of all discovered files. The edges are numbered from zero and
lead from nodes to nodes.
-/

namespace ImportAtlas

open Host

def FileEdge.triple (e : FileEdge) : String × String × ImportKind := (e.source, e.target, e.kind)

namespace FileGraph

def ids (g : FileGraph) : List String := g.nodes.map FileNode.id

def triples (g : FileGraph) : List (String × String × ImportKind) := g.edges.map FileEdge.triple

end FileGraph

namespace GraphBuilder

variable {b : GraphBuilder} {host : Host} {root : String} {scope : Option String}
  {files : List String} {g : FileGraph}

/-- The imports of a file, if it can be read, is not too large, is text, and is understood. -/
def imports? (b : GraphBuilder) (host : Host) (root path : String) :
    Option (List ImportStatement) := do
  let content ← (host.readBytes (Location.join root path)).toOption
  guard (b.maxFileSize = 0 ∨ content.size ≤ b.maxFileSize)
  let source ← (decodeText content).toOption
  (b.reader path source).value.toOption

def importsOf (b : GraphBuilder) (host : Host) (root path : String) : List ImportStatement :=
  (b.imports? host root path).getD []

/-- What one import of a file adds to the graph of a set of files. -/
def triple? (b : GraphBuilder) (files : List String) (path : String) (i : ImportStatement) :
    Option (String × String × ImportKind) :=
  (Resolution.resolve b.order ⟨files⟩ path i.specifier).map fun target => (path, target, i.kind)

/-! ## Values of the stages -/

theorem value_fileImports (b : GraphBuilder) (host : Host) (root path : String) :
    (b.fileImports host root path).value = b.importsOf host root path := by
  rw [fileImports, importsOf, imports?]
  cases host.readBytes (Location.join root path) with
  | error e => rfl
  | ok content =>
      simp only [Except.toOption, Option.bind_eq_bind, Option.bind_some]
      by_cases hsize : b.maxFileSize = 0 ∨ content.size ≤ b.maxFileSize
      · have hlimit :
            (decide (0 < b.maxFileSize) && decide (b.maxFileSize < content.size)) = false := by
          rw [Bool.and_eq_false_iff, decide_eq_false_iff_not, decide_eq_false_iff_not]
          omega
        simp only [hlimit, hsize, guard_true, Bool.false_eq_true, if_false, Option.pure_def,
          Option.bind_some]
        cases decodeText content with
        | error e => rfl
        | ok source =>
            simp only [Logged.value_bind, Option.bind_some]
            cases (b.reader path source).value <;> rfl
      · have hlimit :
            (decide (0 < b.maxFileSize) && decide (b.maxFileSize < content.size)) = true := by
          rw [Bool.and_eq_true, decide_eq_true_iff, decide_eq_true_iff]
          omega
        simp only [hlimit, hsize, guard_false, if_true]
        rfl

theorem value_importTarget (b : GraphBuilder) (set : FileSet) (path : String)
    (i : ImportStatement) :
    (b.importTarget set path i).value =
      (Resolution.resolve b.order set path i.specifier).map fun target => (target, i.kind) := by
  rw [importTarget]
  cases hkind : SpecifierKind.of i.specifier with
  | external => simp [Resolution.resolve, hkind]
  | relative =>
      simp only [Logged.value_bind]
      cases hres : Resolution.resolve b.order set path i.specifier <;> rfl

theorem value_fileEdges (b : GraphBuilder) (host : Host) (root path : String) (set : FileSet) :
    (b.fileEdges host root set path).value =
      (b.importsOf host root path).filterMap fun i =>
        (Resolution.resolve b.order set path i.specifier).map fun target => (target, i.kind) := by
  rw [fileEdges, Logged.value_bind, Logged.value_bind, Logged.value_pure, Logged.value_each,
    value_fileImports, List.filterMap_map]
  simp only [Function.comp_def, value_importTarget, id]

theorem value_buildFromRoot (b : GraphBuilder) (host : Host) (root : String)
    (scope : Option String) :
    (b.buildFromRoot host root scope).value =
      if host.isFolder root then
        (b.discovery.discover host root scope).value.map fun files =>
          assemble files (files.map fun path => (b.fileEdges host root ⟨files⟩ path).value)
      else .error (.repositoryNotFound root) := by
  rw [buildFromRoot]
  cases hroot : host.isFolder root with
  | false => rfl
  | true =>
      simp only [Bool.not_true, Bool.false_eq_true, if_false, if_true, Logged.value_bind]
      cases hfiles : (b.discovery.discover host root scope).value with
      | error e => simp [Except.map]
      | ok files => simp [Except.map]

/-! ## The assembled graph -/

/-- The triples of a graph of files: file after file, what each import adds. -/
def triplesOf (b : GraphBuilder) (host : Host) (root : String) (files : List String) :
    List (String × String × ImportKind) :=
  files.flatMap fun path => (b.importsOf host root path).filterMap (b.triple? files path)

def graphOf (b : GraphBuilder) (host : Host) (root : String) (files : List String) : FileGraph :=
  assemble files (files.map fun path => (b.fileEdges host root ⟨files⟩ path).value)

@[simp] theorem ids_assemble (files : List String)
    (batches : List (List (String × ImportKind))) : (assemble files batches).ids = files := by
  simp [FileGraph.ids, assemble, Function.comp_def]

theorem ids_graphOf (b : GraphBuilder) (host : Host) (root : String) (files : List String) :
    (b.graphOf host root files).ids = files := ids_assemble _ _

theorem triples_numberEdges (batches : List (String × List (String × ImportKind))) :
    (numberEdges batches).map FileEdge.triple =
      batches.flatMap fun (source, batch) => batch.map (source, ·) := by
  rw [numberEdges, List.map_map]
  exact List.zipIdx_map_fst 0 _

theorem ids_numberEdges (batches : List (String × List (String × ImportKind))) :
    (numberEdges batches).map FileEdge.id =
      (List.range (numberEdges batches).length).map fun n => "edge-" ++ toString n := by
  rw [numberEdges, List.map_map, List.length_map, List.length_zipIdx, List.range_eq_range',
    ← List.zipIdx_map_snd 0, List.map_map]
  rfl

theorem triples_graphOf (b : GraphBuilder) (host : Host) (root : String) (files : List String) :
    (b.graphOf host root files).triples = b.triplesOf host root files := by
  rw [FileGraph.triples, graphOf, assemble, triples_numberEdges, ← List.map_prod_left_eq_zip,
    List.flatMap_map, triplesOf]
  refine List.flatMap_congr fun path _ => ?_
  simp only [value_fileEdges, List.map_filterMap, Option.map_map]
  rfl

theorem mem_triplesOf {t : String × String × ImportKind} :
    t ∈ b.triplesOf host root files ↔ t.1 ∈ files ∧ ∃ i ∈ b.importsOf host root t.1,
      Resolution.resolve b.order ⟨files⟩ t.1 i.specifier = some t.2.1 ∧ i.kind = t.2.2 := by
  obtain ⟨source, target, kind⟩ := t
  simp only [triplesOf, List.mem_flatMap, List.mem_filterMap, triple?, Option.map_eq_some_iff,
    Prod.mk.injEq]
  constructor
  · rintro ⟨path, hpath, i, hi, found, hres, rfl, rfl, hkind⟩
    exact ⟨hpath, i, hi, hres, hkind⟩
  · rintro ⟨hsource, i, hi, hres, hkind⟩
    exact ⟨source, hsource, i, hi, target, hres, rfl, rfl, hkind⟩

/-- Whether a specifier is a path, not the name of a package. -/
def IsPathSpecifier (specifier : String) : Prop :=
  specifier.toList.head? = some '.' ∨ specifier.toList.head? = some '/'

theorem isPathSpecifier_of_resolve {order : SuffixOrder} {set : FileSet}
    {importer specifier target : String}
    (h : Resolution.resolve order set importer specifier = some target) :
    IsPathSpecifier specifier := by
  rw [Resolution.resolve] at h
  split at h
  · cases h
  next hkind =>
    rw [SpecifierKind.of] at hkind
    rw [IsPathSpecifier]
    split at hkind <;> simp_all

theorem pairwise_idxOf_flatMap {α : Type} {xs : List String} (hxs : xs.Nodup)
    {f : String → List α} {source : α → String} (hf : ∀ x ∈ xs, ∀ a ∈ f x, source a = x) :
    (xs.flatMap f).Pairwise fun a c => xs.idxOf (source a) ≤ xs.idxOf (source c) := by
  rw [List.pairwise_flatMap]
  constructor
  · intro x hx
    refine List.pairwise_iff_forall_sublist.mpr fun {a c} hac => ?_
    rw [hf x hx a (hac.mem (by simp)), hf x hx c (hac.mem (by simp))]
  · refine List.pairwise_iff_getElem.mpr fun i j hi hj hij a ha c hc => ?_
    rw [hf _ (List.getElem_mem hi) a ha, hf _ (List.getElem_mem hj) c hc, hxs.idxOf_getElem,
      hxs.idxOf_getElem]
    exact hij.le

def batchAt (b : GraphBuilder) (host : Host) (root : String) (files : List String) (n : Nat) :
    List (String × ImportKind) :=
  match files[n]? with
  | some path => (b.fileEdges host root ⟨files⟩ path).value
  | none => []

theorem map_batchAt (b : GraphBuilder) (host : Host) (root : String) (files : List String) :
    (List.range files.length).map (b.batchAt host root files) =
      files.map fun path => (b.fileEdges host root ⟨files⟩ path).value := by
  apply List.ext_getElem
  · simp
  · intro n hn _
    have hfile : n < files.length := by simpa using hn
    simp [batchAt, List.getElem?_eq_getElem hfile]

def graphInOrder? (b : GraphBuilder) (host : Host) (root : String) (files : List String)
    (order : List Nat) : Option FileGraph :=
  (Slots.run (b.batchAt host root files) files.length order).collect?.map (assemble files)

theorem graphInOrder?_eq {order : List Nat} (horder : order.Perm (List.range files.length)) :
    b.graphInOrder? host root files order = some (b.graphOf host root files) := by
  rw [graphInOrder?, Slots.collect?_run horder, map_batchAt, Option.map_some, graphOf]

/-- A graph is put together from a list of discovered files as it should be. -/
structure Assembles (b : GraphBuilder) (host : Host) (root : String) (files : List String)
    (g : FileGraph) : Prop where
  nodes : g.nodes = files.map FileNode.ofPath
  ids_nodup : g.ids.Nodup
  /-- The edges are those of each file's imports in order, resolved in the set of all files. -/
  triples : g.triples = b.triplesOf host root files
  edge_ids : g.edges.map FileEdge.id =
    (List.range g.edges.length).map fun n => "edge-" ++ toString n
  closed : ∀ e ∈ g.edges, e.source ∈ g.ids ∧ e.target ∈ g.ids
  /-- Each edge belongs to an import of its source that is a path. -/
  path_specifiers : ∀ e ∈ g.edges, ∃ i ∈ b.importsOf host root e.source,
    IsPathSpecifier i.specifier ∧ b.triple? files e.source i = some e.triple
  package_specifiers : ∀ path i, ¬ IsPathSpecifier i.specifier → b.triple? files path i = none
  source_order : g.edges.Pairwise fun e f => g.ids.idxOf e.source ≤ g.ids.idxOf f.source
  /-- It does not matter which file's imports are looked at first. -/
  any_order : ∀ order, order.Perm (List.range files.length) →
    b.graphInOrder? host root files order = some g

theorem assembles_graphOf (hfiles : files.Nodup) :
    b.Assembles host root files (b.graphOf host root files) := by
  have hids := ids_graphOf b host root files
  have htriples := triples_graphOf b host root files
  have hmem {e : FileEdge} (he : e ∈ (b.graphOf host root files).edges) :
      e.triple ∈ b.triplesOf host root files :=
    htriples ▸ List.mem_map_of_mem (f := FileEdge.triple) he
  refine
    { nodes := rfl
      ids_nodup := by rwa [hids]
      triples := htriples
      edge_ids := ids_numberEdges _
      closed := fun e he => ?_
      path_specifiers := fun e he => ?_
      package_specifiers := fun path i hi => ?_
      source_order := ?_
      any_order := fun order horder => graphInOrder?_eq horder }
  · obtain ⟨hsource, i, _, hres, _⟩ := mem_triplesOf.mp (hmem he)
    rw [hids]
    exact ⟨hsource, Resolution.mem_of_resolve hres⟩
  · obtain ⟨_, i, hi, hres, hkind⟩ := mem_triplesOf.mp (hmem he)
    refine ⟨i, hi, isPathSpecifier_of_resolve hres, ?_⟩
    rw [triple?, show e.source = e.triple.1 from rfl, hres, hkind]
    rfl
  · rw [triple?, Option.map_eq_none_iff, Option.eq_none_iff_forall_ne_some]
    exact fun target hres => hi (isPathSpecifier_of_resolve hres)
  · have hsorted : (b.triplesOf host root files).Pairwise fun s t =>
        files.idxOf s.1 ≤ files.idxOf t.1 := by
      refine pairwise_idxOf_flatMap hfiles fun path _ t ht => ?_
      obtain ⟨i, _, hi⟩ := List.mem_filterMap.mp ht
      obtain ⟨_, _, rfl⟩ := Option.map_eq_some_iff.mp hi
      rfl
    rw [← htriples, FileGraph.triples, List.pairwise_map] at hsorted
    rw [hids]
    exact hsorted

theorem buildFromRoot_ok (hg : (b.buildFromRoot host root scope).value = .ok g) :
    host.isFolder root = true ∧ ∃ files, (b.discovery.discover host root scope).value = .ok files ∧
      g = b.graphOf host root files := by
  rw [value_buildFromRoot] at hg
  split at hg
  next hfolder =>
    cases hfiles : (b.discovery.discover host root scope).value with
    | error e =>
        rw [hfiles] at hg
        cases hg
    | ok files =>
        rw [hfiles] at hg
        exact ⟨hfolder, files, rfl, (Except.ok.inj hg).symm⟩
  next => cases hg

theorem value_buildFromRoot_of_isFolder {segs : List String}
    (hroot : host.root.WellFormed) (hrepo : host.isFolder root = true)
    (hsegs : Discovery.scopeFolders? scope = some segs)
    (hstart : host.isFolder (Location.joinAll root segs) = true) :
    (b.buildFromRoot host root scope).value =
      .ok (b.graphOf host root (b.discovery.listing host root segs)) := by
  rw [value_buildFromRoot, if_pos hrepo, Discovery.value_discover_of_isFolder hroot
    (Discovery.ne_empty_of_isFolder hrepo) hsegs hstart]
  rfl

/-- Whatever the tree, the scope, the suffix order, the excluded names and the reader of imports, a
build that succeeds puts its graph together from what was discovered. -/
theorem assembles_of_buildFromRoot (hroot : host.root.WellFormed)
    (hg : (b.buildFromRoot host root scope).value = .ok g) :
    ∃ files, (b.discovery.discover host root scope).value = .ok files ∧
      b.Assembles host root files g := by
  obtain ⟨hfolder, files, hfiles, rfl⟩ := buildFromRoot_ok hg
  exact ⟨files, hfiles, assembles_graphOf (Discovery.nodup_of_discover hroot hfolder hfiles)⟩

/-! ### A repository with an excluded folder, a link and a file that is too large -/

def sampleEntries : List (String × Entry) :=
  [("app.js", .file ⟨#[0x3b]⟩), ("big.js", .file ⟨#[0x20, 0x20]⟩),
    ("dist", .folder [("out.js", .file ⟨#[]⟩)]), ("latest", .link "dist")]

def sampleHost : Host := ⟨.folder [("repo", .folder sampleEntries)], []⟩

def sampleBuilder : GraphBuilder where
  maxFileSize := 1
  reader := fun _ _ => pure (.ok [⟨"react", 1, .importFrom⟩, ⟨"./big", 2, .importFrom⟩])

theorem resolve_sample : sampleHost.resolve "/repo" = .ok ⟨["repo"], .folder sampleEntries⟩ := by
  cbv

theorem discover_sample : (sampleBuilder.discovery.discover sampleHost "/repo" none).value =
    .ok ["app.js", "big.js"] := by
  have hmet : Walk.sightings Exclusions.standard [] (.folder sampleEntries) =
      [.file ["app.js"], .file ["big.js"], .excluded ["dist"]] := by
    rw [Walk.sightings_of_sorted (by decide)]
    simp [sampleEntries, Walk.sightingsAt, Entry.isFolder, Exclusions.standard]
  have hnone : Discovery.scopeFolders? none = some [] := rfl
  rw [Discovery.value_discover_of_isFolder (by decide) (by decide) hnone (by cbv),
    Discovery.listing_of_resolve rfl resolve_sample,
    show sampleBuilder.discovery.excluded = Exclusions.standard from rfl, hmet]
  cbv

theorem triples_sample : sampleBuilder.triplesOf sampleHost "/repo" ["app.js", "big.js"] =
    [("app.js", "big.js", .importFrom)] := by
  have happ : sampleBuilder.importsOf sampleHost "/repo" "app.js" =
      [⟨"react", 1, .importFrom⟩, ⟨"./big", 2, .importFrom⟩] := by
    have hpath : Location.join "/repo" "app.js" = Location.joinAll "/repo" ["app.js"] := rfl
    rw [importsOf, imports?, hpath,
      readBytes_joinAll_at (c := ⟨#[0x3b]⟩) resolve_sample (by decide) rfl (by decide)]
    decide
  have hbig : sampleBuilder.importsOf sampleHost "/repo" "big.js" = [] := by
    have hpath : Location.join "/repo" "big.js" = Location.joinAll "/repo" ["big.js"] := rfl
    rw [importsOf, imports?, hpath,
      readBytes_joinAll_at (c := ⟨#[0x20, 0x20]⟩) resolve_sample (by decide) rfl (by decide)]
    decide
  rw [triplesOf, List.flatMap_cons, List.flatMap_cons, happ, hbig]
  cbv

theorem assembles_sample : ∃ g,
    (sampleBuilder.buildFromRoot sampleHost "/repo" none).value = .ok g ∧
    g.ids = ["app.js", "big.js"] ∧ g.triples = [("app.js", "big.js", .importFrom)] ∧
    ∃ files, (sampleBuilder.discovery.discover sampleHost "/repo" none).value = .ok files ∧
      sampleBuilder.Assembles sampleHost "/repo" files g := by
  have hg : (sampleBuilder.buildFromRoot sampleHost "/repo" none).value =
      .ok (sampleBuilder.graphOf sampleHost "/repo" ["app.js", "big.js"]) := by
    rw [value_buildFromRoot, if_pos (by cbv), discover_sample]
    rfl
  exact ⟨_, hg, ids_graphOf _ _ _ _, (triples_graphOf _ _ _ _).trans triples_sample,
    assembles_of_buildFromRoot (by decide) hg⟩

end GraphBuilder

end ImportAtlas
