import ImportAtlas.Proofs.Graph.Isolation
import ImportAtlas.Proofs.Graph.Restriction

/-!
# Changing the order of suffixes

Every order tries the same candidates. So an import that resolves in one order resolves in any
other, the edges of two graphs stand for the same imports place by place, and two of them can have
different targets only if the import has a choice: two of its candidates are in the set of files.
-/

namespace ImportAtlas

theorem SuffixOrder.suffixes_perm (order order' : SuffixOrder) :
    order.suffixes.Perm order'.suffixes := by
  cases order <;> cases order' <;> decide

namespace Resolution

variable {order order' : SuffixOrder} {set : FileSet} {importer specifier target target' : String}

theorem candidates_perm (order order' : SuffixOrder) (importer specifier : String) :
    (candidates order importer specifier).Perm (candidates order' importer specifier) :=
  ((order.suffixes_perm order').map _).filter _

theorem isSome_resolve_iff :
    (resolve order set importer specifier).isSome = true ↔ SpecifierKind.of specifier = .relative ∧
      ∃ c ∈ candidates order importer specifier, set.contains c = true := by
  rw [resolve]
  cases SpecifierKind.of specifier with
  | external => simp
  | relative => simp [FileSet.contains]

theorem isSome_resolve_congr (order order' : SuffixOrder) (set : FileSet)
    (importer specifier : String) :
    (resolve order set importer specifier).isSome =
      (resolve order' set importer specifier).isSome := by
  have hmem : ∀ c, c ∈ candidates order importer specifier ↔
      c ∈ candidates order' importer specifier :=
    fun c => (candidates_perm order order' importer specifier).mem_iff
  rw [Bool.eq_iff_iff, isSome_resolve_iff, isSome_resolve_iff]
  simp only [hmem]

/-- Two different candidates of an import are in the set. -/
def HasChoice (set : FileSet) (importer specifier : String) : Prop :=
  ∃ c c', c ≠ c' ∧ (∀ order, c ∈ candidates order importer specifier) ∧
    (∀ order, c' ∈ candidates order importer specifier) ∧
    set.contains c = true ∧ set.contains c' = true

theorem exists_candidate_of_resolve
    (h : resolve order set importer specifier = some target) :
    ∃ c, (∀ other, c ∈ candidates other importer specifier) ∧ set.get? c = some target := by
  obtain ⟨_, hfound⟩ := resolve_eq_some_iff.mp h
  obtain ⟨c, hc, hget⟩ := List.exists_of_findSome?_eq_some hfound
  refine ⟨c, ?_, hget⟩
  intro other
  exact (candidates_perm order other importer specifier).mem_iff.mp hc

theorem hasChoice_of_ne (h : resolve order set importer specifier = some target)
    (h' : resolve order' set importer specifier = some target') (hne : target ≠ target') :
    HasChoice set importer specifier := by
  obtain ⟨c, hc, hget⟩ := exists_candidate_of_resolve h
  obtain ⟨c', hc', hget'⟩ := exists_candidate_of_resolve h'
  have hdistinct : c ≠ c' := by
    rintro rfl
    exact hne (Option.some.inj (hget.symm.trans hget'))
  refine ⟨c, c', hdistinct, hc, hc', ?_, ?_⟩
  · rw [FileSet.contains, hget, Option.isSome_some]
  · rw [FileSet.contains, hget', Option.isSome_some]

end Resolution

namespace FileEdge

variable {R : String × String × ImportKind → String × String × ImportKind → Prop}
  {ts ts' : List (String × String × ImportKind)}

/-- Numbering goes by the position alone. -/
theorem forall₂_number (h : List.Forall₂ R ts ts') :
    List.Forall₂ (fun e e' => e.id = e'.id ∧ R e.triple e'.triple) (number ts) (number ts') := by
  rw [List.forall₂_iff_get] at h ⊢
  obtain ⟨hlength, hrel⟩ := h
  refine ⟨by simpa [number] using hlength, ?_⟩
  intro n hn hn'
  have hts : n < ts.length := by simpa [number] using hn
  have hts' : n < ts'.length := by simpa [number] using hn'
  have hat := hrel n hts hts'
  simp only [List.get_eq_getElem] at hat
  simpa [number, triple] using hat

end FileEdge

namespace GraphBuilder

open Host

variable {b : GraphBuilder} {host : Host} {root : String} {scope : Option String}
  {files : List String}

def withOrder (b : GraphBuilder) (order : SuffixOrder) : GraphBuilder := { b with order := order }

/-- Two edges for one import, which may differ in the target if the import has a choice. -/
structure SameImport (b : GraphBuilder) (host : Host) (root : String) (order order' : SuffixOrder)
    (files : List String) (e e' : FileEdge) : Prop where
  id : e.id = e'.id
  source : e.source = e'.source
  kind : e.kind = e'.kind
  behind : ∃ i ∈ b.importsOf host root e.source, i.kind = e.kind ∧
    Resolution.resolve order ⟨files⟩ e.source i.specifier = some e.target ∧
    Resolution.resolve order' ⟨files⟩ e.source i.specifier = some e'.target ∧
    (e.target ≠ e'.target → Resolution.HasChoice ⟨files⟩ e.source i.specifier)

/-- Two graphs that differ in targets alone. -/
structure SameButTargets (b : GraphBuilder) (host : Host) (root : String)
    (order order' : SuffixOrder) (g g' : FileGraph) : Prop where
  nodes : g.nodes = g'.nodes
  folderGroups : g.folderGroups = g'.folderGroups
  edges : List.Forall₂ (b.SameImport host root order order' g.ids) g.edges g'.edges

theorem importsIn_withOrder (b : GraphBuilder) (order : SuffixOrder) (host : Host) (root : String)
    (files : List String) : (b.withOrder order).importsIn host root files =
      b.importsIn host root files := rfl

theorem edges_graphOf (b : GraphBuilder) (host : Host) (root : String) (files : List String) :
    (b.graphOf host root files).edges = FileEdge.number (b.triplesOf host root files) := by
  rw [← triples_graphOf, FileGraph.triples, graphOf, assemble, numberEdges_eq,
    FileEdge.map_triple_number]

/-- The same for triples, which have no number yet. -/
def SameTriple (b : GraphBuilder) (host : Host) (root : String) (order order' : SuffixOrder)
    (files : List String) (t t' : String × String × ImportKind) : Prop :=
  t.1 = t'.1 ∧ t.2.2 = t'.2.2 ∧ ∃ i ∈ b.importsOf host root t.1, i.kind = t.2.2 ∧
    Resolution.resolve order ⟨files⟩ t.1 i.specifier = some t.2.1 ∧
    Resolution.resolve order' ⟨files⟩ t.1 i.specifier = some t'.2.1

/-- One import adds nothing in either order, or an edge in both. -/
theorem rel_triple? {path : String} {i : ImportStatement} (hi : i ∈ b.importsOf host root path)
    (order order' : SuffixOrder) (files : List String) :
    Option.Rel (b.SameTriple host root order order' files)
      ((b.withOrder order).triple? files path i) ((b.withOrder order').triple? files path i) := by
  have hsome := Resolution.isSome_resolve_congr order order' ⟨files⟩ path i.specifier
  simp only [triple?, withOrder]
  cases hres : Resolution.resolve order ⟨files⟩ path i.specifier with
  | none =>
      rw [hres, Option.isSome_none, eq_comm, Option.isSome_eq_false_iff, Option.isNone_iff_eq_none]
        at hsome
      rw [hsome]
      exact .none
  | some target =>
      rw [hres, Option.isSome_some, eq_comm, Option.isSome_iff_exists] at hsome
      obtain ⟨target', hres'⟩ := hsome
      rw [hres']
      exact .some ⟨rfl, rfl, i, hi, rfl, hres, hres'⟩

theorem forall₂_triplesOf (order order' : SuffixOrder) :
    List.Forall₂ (b.SameTriple host root order order' files)
      ((b.withOrder order).triplesOf host root files)
      ((b.withOrder order').triplesOf host root files) := by
  rw [triplesOf_eq, triplesOf_eq, importsIn_withOrder, importsIn_withOrder]
  have himports : List.Forall₂ (fun x y => x = y ∧ x ∈ b.importsIn host root files)
      (b.importsIn host root files) (b.importsIn host root files) :=
    List.forall₂_same.mpr fun x hx => ⟨rfl, hx⟩
  refine List.rel_filterMap ?_ himports
  rintro x _ ⟨rfl, hx⟩
  exact rel_triple? (mem_importsIn.mp hx).2 order order' files

theorem sameButTargets_graphOf (order order' : SuffixOrder) :
    b.SameButTargets host root order order' ((b.withOrder order).graphOf host root files)
      ((b.withOrder order').graphOf host root files) := by
  refine ⟨rfl, rfl, ?_⟩
  rw [edges_graphOf, edges_graphOf, ids_graphOf]
  refine (FileEdge.forall₂_number (forall₂_triplesOf order order')).imp ?_
  rintro e e' ⟨hid, hsource, hkind, i, hi, hikind, hres, hres'⟩
  refine ⟨hid, hsource, hkind, i, hi, hikind, hres, hres', ?_⟩
  intro hne
  exact Resolution.hasChoice_of_ne hres hres' hne

/-- Whatever is built, another order of suffixes leads to the same failure, or to a graph with the
same nodes, groups and edges but for the targets of imports that have a choice. -/
theorem sameButTargets_of_withOrder (b : GraphBuilder) (host : Host) (root : String)
    (scope : Option String) (order order' : SuffixOrder) :
    (∃ e, ((b.withOrder order).buildFromRoot host root scope).value = .error e ∧
        ((b.withOrder order').buildFromRoot host root scope).value = .error e) ∨
      ∃ g g', ((b.withOrder order).buildFromRoot host root scope).value = .ok g ∧
        ((b.withOrder order').buildFromRoot host root scope).value = .ok g' ∧
        b.SameButTargets host root order order' g g' := by
  rw [value_buildFromRoot, value_buildFromRoot]
  by_cases hroot : host.isFolder root = true
  · rw [if_pos hroot, if_pos hroot]
    cases hfiles : (b.discovery.discover host root scope).value with
    | error e =>
        refine Or.inl ⟨e, ?_, ?_⟩
        · rw [withOrder, hfiles]
          rfl
        · rw [withOrder, hfiles]
          rfl
    | ok files =>
        refine Or.inr ⟨(b.withOrder order).graphOf host root files,
          (b.withOrder order').graphOf host root files, ?_, ?_, sameButTargets_graphOf order order'⟩
        · rw [withOrder, hfiles]
          rfl
        · rw [withOrder, hfiles]
          rfl
  · rw [if_neg hroot, if_neg hroot]
    exact Or.inl ⟨_, rfl, rfl⟩

/-! ### A name with two endings -/

def endingsEntries : List (String × Entry) :=
  [("a.js", .file ⟨#[0x3b]⟩), ("lib.js", .file ⟨#[0x3b]⟩), ("lib.ts", .file ⟨#[0x3b]⟩)]

def endingsHost : Host := ⟨.folder [("repo", .folder endingsEntries)], []⟩

/-- Reads one import, of a name that two files bear but for their endings. -/
def endingsBuilder : GraphBuilder where
  reader := fun path _ =>
    pure (.ok (if path == "a.js" then [⟨"./lib", 1, .importFrom⟩] else []))

theorem resolve_endings :
    endingsHost.resolve "/repo" = .ok ⟨["repo"], .folder endingsEntries⟩ := by cbv

theorem listing_endings : endingsBuilder.discovery.listing endingsHost "/repo" [] =
    ["a.js", "lib.js", "lib.ts"] := by
  have hmet : Walk.sightings Exclusions.standard [] (.folder endingsEntries) =
      [.file ["a.js"], .file ["lib.js"], .file ["lib.ts"]] := by
    rw [Walk.sightings_of_sorted (by decide)]
    simp [endingsEntries, Walk.sightingsAt, Walk.sightings, Entry.isFolder]
  rw [Discovery.listing_of_resolve rfl resolve_endings,
    show endingsBuilder.discovery.excluded = Exclusions.standard from rfl, hmet]
  cbv

theorem importsIn_endings :
    endingsBuilder.importsIn endingsHost "/repo" ["a.js", "lib.js", "lib.ts"] =
      [("a.js", ⟨"./lib", 1, .importFrom⟩)] := by
  have hread {path : String} (hpath : IsEntryName path)
      (hat : (Entry.folder endingsEntries).at? [path] = some (.file ⟨#[0x3b]⟩))
      (hfits : Fits (Location.join "/repo" path) [path]) :
      endingsBuilder.importsOf endingsHost "/repo" path =
        if path == "a.js" then [⟨"./lib", 1, .importFrom⟩] else [] := by
    have hplain : ∀ n ∈ [path], IsEntryName n := by simpa using hpath
    have hbytes : endingsHost.readBytes (Location.join "/repo" path) = .ok ⟨#[0x3b]⟩ :=
      readBytes_joinAll_at resolve_endings hplain hat hfits
    rw [importsOf, imports?, hbytes]
    rfl
  rw [importsIn_cons, importsIn_cons, importsIn_cons, hread (by decide) rfl (by decide),
    hread (by decide) rfl (by decide), hread (by decide) rfl (by decide)]
  decide

theorem build_endings (order : SuffixOrder) :
    ((endingsBuilder.withOrder order).buildFromRoot endingsHost "/repo" none).value =
      .ok ((endingsBuilder.withOrder order).graphOf endingsHost "/repo"
        ["a.js", "lib.js", "lib.ts"]) := by
  have hisFolder : endingsHost.isFolder "/repo" = true := isFolder_iff.mpr ⟨_, _, resolve_endings⟩
  have hnone : Discovery.scopeFolders? none = some [] := rfl
  rw [value_buildFromRoot_of_isFolder (by decide) hisFolder hnone hisFolder]
  exact congrArg (fun files => Except.ok (graphOf _ endingsHost "/repo" files)) listing_endings

theorem edges_endings {order : SuffixOrder} {target : String}
    (h : Resolution.resolve order ⟨["a.js", "lib.js", "lib.ts"]⟩ "a.js" "./lib" = some target) :
    ((endingsBuilder.withOrder order).graphOf endingsHost "/repo"
      ["a.js", "lib.js", "lib.ts"]).edges = [⟨"edge-0", "a.js", target, .importFrom⟩] := by
  have htriple : (endingsBuilder.withOrder order).triple? ["a.js", "lib.js", "lib.ts"] "a.js"
      ⟨"./lib", 1, .importFrom⟩ = some ("a.js", target, .importFrom) := by
    rw [triple?, withOrder, h]
    rfl
  rw [edges_graphOf, triplesOf_eq, importsIn_withOrder, importsIn_endings, List.filterMap_cons,
    htriple]
  rfl

/-- The order decides which of the two files the import leads to. -/
theorem sameButTargets_endings : ∃ g g',
    ((endingsBuilder.withOrder .javascriptFirst).buildFromRoot endingsHost "/repo" none).value =
        .ok g ∧
      ((endingsBuilder.withOrder .typescriptFirst).buildFromRoot endingsHost "/repo" none).value =
        .ok g' ∧
      endingsBuilder.SameButTargets endingsHost "/repo" .javascriptFirst .typescriptFirst g g' ∧
      g.edges = [⟨"edge-0", "a.js", "lib.js", .importFrom⟩] ∧
      g'.edges = [⟨"edge-0", "a.js", "lib.ts", .importFrom⟩] :=
  ⟨_, _, build_endings _, build_endings _, sameButTargets_graphOf _ _,
    edges_endings (by cbv), edges_endings (by cbv)⟩

end GraphBuilder

end ImportAtlas
