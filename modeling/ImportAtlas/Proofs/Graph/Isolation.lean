import ImportAtlas.Proofs.Discovery.Contents
import ImportAtlas.Proofs.Graph.Assembly

/-!
# Files that fail

A file that cannot be read, is too large, is no text or is refused by the reader keeps its node and
can still be imported; it only adds no edges. What a file adds to a graph depends on its own text
and on the list of all files, and not on what the others hold: so two builds that come upon the same
files differ only in the edges from those files that differ.
-/

namespace ImportAtlas

open Host

namespace FileEdge

def number (triples : List (String × String × ImportKind)) : List FileEdge :=
  triples.zipIdx.map fun (t, n) => ⟨"edge-" ++ toString n, t.1, t.2.1, t.2.2⟩

/-- The same edges with new ids, counted from zero. -/
def renumber (edges : List FileEdge) : List FileEdge :=
  edges.zipIdx.map fun (e, n) => { e with id := "edge-" ++ toString n }

theorem renumber_eq (edges : List FileEdge) : renumber edges = number (edges.map triple) := by
  rw [renumber, number, List.zipIdx_map, List.map_map]
  rfl

theorem map_triple_number (triples : List (String × String × ImportKind)) :
    (number triples).map triple = triples := by
  rw [number, List.map_map]
  exact List.zipIdx_map_fst 0 triples

end FileEdge

namespace FileGraph

def outgoing (g : FileGraph) (path : String) : List (String × ImportKind) :=
  (g.edgesFrom path).map fun e => (e.target, e.kind)

theorem outgoing_eq (g : FileGraph) (path : String) :
    g.outgoing path = (g.triples.filter fun t => t.1 == path).map Prod.snd := by
  rw [outgoing, edgesFrom, triples, List.filter_map, List.map_map]
  rfl

end FileGraph

namespace GraphBuilder

/-- What a build looks at: a folder of a host, and what the reader makes of the files in it. -/
structure Subject where
  host : Host
  root : String
  scope : Option String
  reader : ImportReader

variable {b : GraphBuilder} {s s' : Subject} {files : List String} {path : String}

/-- The subject with other bytes in its files, and another reader for them. -/
def Subject.rewrite (s : Subject) (change : List String → ByteArray → ByteArray)
    (reader : ImportReader) : Subject :=
  { s with host := s.host.rewrite change, reader := reader }

def reading (b : GraphBuilder) (s : Subject) : GraphBuilder := { b with reader := s.reader }

def build (b : GraphBuilder) (s : Subject) : Except BuildError FileGraph :=
  ((b.reading s).buildFromRoot s.host s.root s.scope).value

def Discovers (b : GraphBuilder) (s : Subject) (files : List String) : Prop :=
  s.host.isFolder s.root = true ∧
    (b.discovery.discover s.host s.root s.scope).value = .ok files

/-- A file has the same bytes in two subjects, and their readers make the same of its text. -/
structure SameFile (s s' : Subject) (path : String) : Prop where
  bytes : (s.host.readBytes (Location.join s.root path)).toOption =
    (s'.host.readBytes (Location.join s'.root path)).toOption
  imports : ∀ content text, s.host.readBytes (Location.join s.root path) = .ok content →
    decodeText content = .ok text →
    (s.reader path text).value.toOption = (s'.reader path text).value.toOption

/-- The reasons for a file to add no edges at all. -/
inductive Fails (b : GraphBuilder) (s : Subject) (path : String) : Prop
  | unreadable (e : HostError) (h : s.host.readBytes (Location.join s.root path) = .error e)
  | tooLarge (content : ByteArray)
      (h : s.host.readBytes (Location.join s.root path) = .ok content)
      (hlimit : b.maxFileSize ≠ 0) (hsize : b.maxFileSize < content.size)
  | notText (content : ByteArray) (e : HostError)
      (h : s.host.readBytes (Location.join s.root path) = .ok content)
      (htext : decodeText content = .error e)
  | refused (content : ByteArray) (text reason : String)
      (h : s.host.readBytes (Location.join s.root path) = .ok content)
      (htext : decodeText content = .ok text)
      (hreader : (s.reader path text).value = .error reason)

def importsFor? (b : GraphBuilder) (s : Subject) (path : String) : Option (List ImportStatement) :=
  (b.reading s).imports? s.host s.root path

theorem importsFor?_of_error {e : HostError}
    (h : s.host.readBytes (Location.join s.root path) = .error e) :
    b.importsFor? s path = none := by
  rw [importsFor?, imports?, h]
  rfl

theorem importsFor?_of_ok {content : ByteArray}
    (h : s.host.readBytes (Location.join s.root path) = .ok content) :
    b.importsFor? s path =
      if b.maxFileSize = 0 ∨ content.size ≤ b.maxFileSize then
        (decodeText content).toOption.bind fun text => (s.reader path text).value.toOption
      else none := by
  rw [importsFor?, imports?, h]
  by_cases hsize : b.maxFileSize = 0 ∨ content.size ≤ b.maxFileSize
  · rw [if_pos hsize]
    simp [reading, hsize, Except.toOption, guard]
  · rw [if_neg hsize]
    simp [reading, hsize, Except.toOption, guard]

theorem importsFor?_congr (h : SameFile s s' path) :
    b.importsFor? s path = b.importsFor? s' path := by
  have hbytes := h.bytes
  cases hread : s.host.readBytes (Location.join s.root path) with
  | error e =>
      cases hread' : s'.host.readBytes (Location.join s'.root path) with
      | error e' => rw [importsFor?_of_error hread, importsFor?_of_error hread']
      | ok content' =>
          rw [hread, hread'] at hbytes
          cases hbytes
  | ok content =>
      cases hread' : s'.host.readBytes (Location.join s'.root path) with
      | error e' =>
          rw [hread, hread'] at hbytes
          cases hbytes
      | ok content' =>
          rw [hread, hread'] at hbytes
          cases hbytes
          rw [importsFor?_of_ok hread, importsFor?_of_ok hread']
          congr 1
          cases hdecoded : decodeText content with
          | error e => rfl
          | ok text => exact h.imports content text hread hdecoded

/-- There are no other reasons to fail. -/
theorem importsFor?_eq_none_iff : b.importsFor? s path = none ↔ b.Fails s path := by
  constructor
  · intro hnone
    cases hread : s.host.readBytes (Location.join s.root path) with
    | error e => exact .unreadable e hread
    | ok content =>
        rw [importsFor?_of_ok hread] at hnone
        by_cases hsize : b.maxFileSize = 0 ∨ content.size ≤ b.maxFileSize
        · rw [if_pos hsize] at hnone
          cases hdecoded : decodeText content with
          | error e => exact .notText content e hread hdecoded
          | ok text =>
              cases hreader : (s.reader path text).value with
              | error reason =>
                  exact .refused content text reason hread hdecoded hreader
              | ok imports =>
                  rw [hdecoded] at hnone
                  simp only [Except.toOption, Option.bind_some, hreader] at hnone
                  cases hnone
        · rw [not_or, Nat.not_le] at hsize
          exact .tooLarge content hread hsize.1 hsize.2
  · rintro (⟨e, hread⟩ | ⟨content, hread, hlimit, hsize⟩ | ⟨content, e, hread, htext⟩ |
      ⟨content, text, reason, hread, htext, hreader⟩)
    · exact importsFor?_of_error hread
    · rw [importsFor?_of_ok hread, if_neg]
      omega
    · rw [importsFor?_of_ok hread, htext]
      exact ite_self none
    · rw [importsFor?_of_ok hread, htext]
      simp only [Except.toOption, Option.bind_some, hreader]
      exact ite_self none

/-- What a file adds to the graph of a list of files. -/
def added (b : GraphBuilder) (s : Subject) (files : List String) (path : String) :
    List (String × String × ImportKind) :=
  ((b.importsFor? s path).getD []).filterMap (b.triple? files path)

theorem source_of_mem_added {t : String × String × ImportKind} (h : t ∈ b.added s files path) :
    t.1 = path := by
  obtain ⟨i, _, hi⟩ := List.mem_filterMap.mp h
  obtain ⟨target, _, rfl⟩ := Option.map_eq_some_iff.mp hi
  rfl

theorem added_congr (h : SameFile s s' path) : b.added s files path = b.added s' files path := by
  rw [added, added, importsFor?_congr h]

theorem added_of_fails (h : b.Fails s path) : b.added s files path = [] := by
  rw [added, importsFor?_eq_none_iff.mpr h]
  rfl

theorem numberEdges_eq (batches : List (String × List (String × ImportKind))) :
    numberEdges batches =
      FileEdge.number (batches.flatMap fun (source, batch) => batch.map (source, ·)) := rfl

def graphIn (b : GraphBuilder) (s : Subject) (files : List String) : FileGraph :=
  (b.reading s).graphOf s.host s.root files

theorem triples_graphIn (b : GraphBuilder) (s : Subject) (files : List String) :
    (b.graphIn s files).triples = files.flatMap (b.added s files) :=
  triples_graphOf _ _ _ _

theorem edges_graphIn (b : GraphBuilder) (s : Subject) (files : List String) :
    (b.graphIn s files).edges = FileEdge.number (files.flatMap (b.added s files)) := by
  rw [← triples_graphIn, FileGraph.triples, graphIn, graphOf, assemble, numberEdges_eq,
    FileEdge.map_triple_number]

theorem build_of_discovers (h : b.Discovers s files) : b.build s = .ok (b.graphIn s files) := by
  rw [build, value_buildFromRoot, if_pos h.1, reading, h.2]
  rfl

theorem outgoing_graphIn (b : GraphBuilder) (s : Subject) (files : List String) (path : String) :
    (b.graphIn s files).outgoing path =
      files.flatMap fun p => if p = path then (b.added s files path).map Prod.snd else [] := by
  rw [FileGraph.outgoing_eq, triples_graphIn, List.filter_flatMap, List.map_flatMap]
  apply List.flatMap_congr
  intro p _
  by_cases hp : p = path
  · rw [if_pos hp, hp, List.filter_eq_self.mpr]
    intro t ht
    exact beq_iff_eq.mpr (source_of_mem_added ht)
  · rw [if_neg hp, List.filter_eq_nil_iff.mpr, List.map_nil]
    intro t ht
    rw [source_of_mem_added ht, beq_iff_eq]
    exact hp

/-- The edges from a file are those that its own imports add. -/
theorem outgoing_graphOf (b : GraphBuilder) (host : Host) (root : String) (hfiles : files.Nodup)
    (hpath : path ∈ files) :
    (b.graphOf host root files).outgoing path =
      (b.importsOf host root path).filterMap fun i =>
        (Resolution.resolve b.order ⟨files⟩ path i.specifier).map fun target =>
          (target, i.kind) := by
  have hadded : (b.added ⟨host, root, none, b.reader⟩ files path).map Prod.snd =
      (b.importsOf host root path).filterMap fun i =>
        (Resolution.resolve b.order ⟨files⟩ path i.specifier).map fun target =>
          (target, i.kind) := by
    rw [added, List.map_filterMap]
    simp only [triple?, Option.map_map]
    rfl
  have houtgoing := outgoing_graphIn b ⟨host, root, none, b.reader⟩ files path
  obtain ⟨before, after, rfl⟩ := List.append_of_mem hpath
  rw [List.nodup_middle, List.nodup_cons, List.mem_append, not_or] at hfiles
  have hothers {ps : List String} (hps : path ∉ ps) (ts : List (String × ImportKind)) :
      (ps.flatMap fun p => if p = path then ts else []) = [] :=
    List.flatMap_eq_nil_iff.mpr fun p hp => if_neg fun he : p = path => hps (he ▸ hp)
  rw [List.flatMap_append, List.flatMap_cons, if_pos rfl, hothers hfiles.1.1, hothers hfiles.1.2,
    List.nil_append, List.append_nil, hadded] at houtgoing
  exact houtgoing

/-- Where some files fail, the rest add what they would have added anyway. -/
theorem filter_added {failing : List String} (hfail : ∀ path ∈ failing, b.Fails s path)
    (hsame : ∀ path ∈ files, path ∉ failing → SameFile s s' path) :
    (files.flatMap (b.added s' files)).filter (fun t => t.1 ∉ failing) =
      files.flatMap (b.added s files) := by
  rw [List.filter_flatMap]
  apply List.flatMap_congr
  intro path hpath
  by_cases hfailing : path ∈ failing
  · rw [added_of_fails (hfail path hfailing), List.filter_eq_nil_iff]
    intro t ht
    rw [source_of_mem_added ht]
    simpa using hfailing
  · rw [added_congr (hsame path hpath hfailing), List.filter_eq_self]
    intro t ht
    rw [source_of_mem_added ht]
    simpa using hfailing

/-- Two graphs differ only in the edges from files that differ, and not at all in their nodes. -/
structure Isolates (b : GraphBuilder) (s s' : Subject) (files : List String) (g g' : FileGraph) :
    Prop where
  nodes : g.nodes = g'.nodes
  folderGroups : g.folderGroups = g'.folderGroups
  outgoing : ∀ path, SameFile s s' path → g.outgoing path = g'.outgoing path
  /-- Without the edges from files that fail here, the other graph's edges are those of this. -/
  edges : ∀ failing : List String, (∀ path ∈ failing, b.Fails s path) →
    (∀ path ∈ files, path ∉ failing → SameFile s s' path) →
    g.edges = FileEdge.renumber (g'.edges.filter fun e => e.source ∉ failing)

theorem isolates_graphIn (b : GraphBuilder) (s s' : Subject) (files : List String) :
    b.Isolates s s' files (b.graphIn s files) (b.graphIn s' files) where
  nodes := rfl
  folderGroups := rfl
  outgoing path hsame := by
    rw [outgoing_graphIn, outgoing_graphIn, added_congr hsame]
  edges failing hfail hsame := by
    have hfilter : ((b.graphIn s' files).edges.filter fun e => e.source ∉ failing).map
        FileEdge.triple = ((b.graphIn s' files).triples.filter fun t => t.1 ∉ failing) := by
      rw [FileGraph.triples, List.filter_map]
      rfl
    rw [FileEdge.renumber_eq, hfilter, triples_graphIn, filter_added hfail hsame, edges_graphIn]

theorem discovers_rewrite (h : b.Discovers s files)
    (change : List String → ByteArray → ByteArray) (reader : ImportReader) :
    b.Discovers (s.rewrite change reader) files := by
  obtain ⟨hroot, hfiles⟩ := h
  constructor
  · exact (isFolder_rewrite s.host s.root).trans hroot
  · rw [Subject.rewrite, Discovery.discover_rewrite, hfiles]

theorem sameFile_rewrite {change : List String → ByteArray → ByteArray}
    (hkept : ∀ place content, s.host.resolve (Location.join s.root path) =
      .ok ⟨place, .file content⟩ → change place content = content) :
    SameFile s (s.rewrite change s.reader) path where
  bytes := by
    rw [Subject.rewrite, readBytes_rewrite, readBytes]
    cases hfound : s.host.resolve (Location.join s.root path) with
    | error e => rfl
    | ok f =>
        obtain ⟨place, e⟩ := f
        cases e with
        | file content =>
            simp only [hkept place content hfound]
            rfl
        | link target => rfl
        | folder es => rfl
  imports _ _ _ _ := rfl

/-- A build never fails over what files hold, and no file has a say in the edges of another. -/
theorem isolates_of_discovers (h : b.Discovers s files) :
    (∀ change reader, b.Discovers (s.rewrite change reader) files) ∧
      ∀ s', b.Discovers s' files → ∃ g g', b.build s = .ok g ∧ b.build s' = .ok g' ∧
        b.Isolates s s' files g g' := by
  refine ⟨discovers_rewrite h, fun s' h' => ?_⟩
  exact ⟨_, _, build_of_discovers h, build_of_discovers h', isolates_graphIn b s s' files⟩

/-! ### The file that is too large, made smaller -/

def sampleSubject : Subject := ⟨sampleHost, "/repo", none, sampleBuilder.reader⟩

def shortened (place : List String) (content : ByteArray) : ByteArray :=
  if place = ["repo", "big.js"] then ⟨#[0x3b]⟩ else content

def shortSubject : Subject := sampleSubject.rewrite shortened sampleBuilder.reader

theorem discovers_sample : sampleBuilder.Discovers sampleSubject ["app.js", "big.js"] := by
  refine ⟨?_, discover_sample⟩
  exact isFolder_iff.mpr ⟨_, _, resolve_sample⟩

theorem resolve_sample_app : sampleHost.resolve (Location.join "/repo" "app.js") =
    .ok ⟨["repo", "app.js"], .file ⟨#[0x3b]⟩⟩ := by
  have hpath : Location.join "/repo" "app.js" = Location.joinAll "/repo" ["app.js"] := rfl
  rw [hpath, resolve_joinAll_at resolve_sample (by decide) rfl (by simp)]
  exact if_pos (by decide)

theorem resolve_sample_big : sampleHost.resolve (Location.join "/repo" "big.js") =
    .ok ⟨["repo", "big.js"], .file ⟨#[0x20, 0x20]⟩⟩ := by
  have hpath : Location.join "/repo" "big.js" = Location.joinAll "/repo" ["big.js"] := rfl
  rw [hpath, resolve_joinAll_at resolve_sample (by decide) rfl (by simp)]
  exact if_pos (by decide)

theorem fails_sample_big : sampleBuilder.Fails sampleSubject "big.js" := by
  have hread : sampleHost.readBytes (Location.join "/repo" "big.js") = .ok ⟨#[0x20, 0x20]⟩ := by
    rw [readBytes, resolve_sample_big]
    rfl
  exact .tooLarge _ hread (by decide) (by decide)

theorem sameFile_sample_app : SameFile sampleSubject shortSubject "app.js" := by
  apply sameFile_rewrite
  intro place content hfound
  have hplace := hfound.symm.trans resolve_sample_app
  cases hplace
  decide

theorem triples_short : (sampleBuilder.graphIn shortSubject ["app.js", "big.js"]).triples =
    [("app.js", "big.js", .importFrom), ("big.js", "big.js", .importFrom)] := by
  have happ : shortSubject.host.readBytes (Location.join "/repo" "app.js") = .ok ⟨#[0x3b]⟩ := by
    rw [shortSubject, Subject.rewrite, readBytes_rewrite, sampleSubject, resolve_sample_app]
    rfl
  have hbig : shortSubject.host.readBytes (Location.join "/repo" "big.js") = .ok ⟨#[0x3b]⟩ := by
    rw [shortSubject, Subject.rewrite, readBytes_rewrite, sampleSubject, resolve_sample_big]
    rfl
  rw [triples_graphIn, List.flatMap_cons, List.flatMap_cons, List.flatMap_nil, added, added,
    importsFor?_of_ok happ, importsFor?_of_ok hbig]
  cbv

theorem isolates_sample : ∃ g g', sampleBuilder.build sampleSubject = .ok g ∧
    sampleBuilder.build shortSubject = .ok g' ∧
    g'.triples = [("app.js", "big.js", .importFrom), ("big.js", "big.js", .importFrom)] ∧
    g.outgoing "app.js" = g'.outgoing "app.js" ∧
    g.edges = FileEdge.renumber (g'.edges.filter fun e => e.source ∉ ["big.js"]) := by
  obtain ⟨hdiscovers, hruns⟩ := isolates_of_discovers discovers_sample
  have hshort : sampleBuilder.Discovers shortSubject ["app.js", "big.js"] :=
    hdiscovers shortened sampleBuilder.reader
  obtain ⟨g, g', hg, hg', hisolates⟩ := hruns shortSubject hshort
  have hfail : ∀ path ∈ ["big.js"], sampleBuilder.Fails sampleSubject path := by
    intro path hpath
    rw [List.mem_singleton.mp hpath]
    exact fails_sample_big
  have hsame : ∀ path ∈ ["app.js", "big.js"], path ∉ ["big.js"] →
      SameFile sampleSubject shortSubject path := by
    intro path hpath hnot
    rcases List.mem_cons.mp hpath with rfl | hpath
    · exact sameFile_sample_app
    · exact absurd hpath hnot
  refine ⟨g, g', hg, hg', ?_, hisolates.outgoing "app.js" sameFile_sample_app,
    hisolates.edges ["big.js"] hfail hsame⟩
  rw [build_of_discovers hshort, Except.ok.injEq] at hg'
  rw [← hg']
  exact triples_short

end GraphBuilder

end ImportAtlas
