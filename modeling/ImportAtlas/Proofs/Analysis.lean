import ImportAtlas.Analysis
import ImportAtlas.Proofs.Graph.Assembly

/-!
# Two ways to ask for a graph

A graph is built for a scope as the user wrote it, a response for the scope's written form, which is
normalized once more on the way. Both are about the same folder unless the written form has blanks
at its ends: then the response reports one folder and shows another.
-/

namespace ImportAtlas

open Text Host

namespace GraphBuilder

variable {b : GraphBuilder} {host : Host} {locator : Locator} {owner name root : String}
  {scope folder : Option String} {r : GraphResponse}

/-- The folder that a response reports, `none` inside for the whole repository, if the scope is not
refused. -/
def reported? : Option String → Option (Option String)
  | none => some none
  | some s => (Scope.normalize s).toOption

theorem reported?_eq (scope : Option String) :
    reported? scope = (Discovery.scopeFolders? scope).map fun segs =>
      if segs = [] then none else some (joinFields '/' segs) := by
  cases scope with
  | none => rfl
  | some s =>
      rw [reported?, Discovery.scopeFolders?]
      cases hf : Scope.folders? s with
      | none =>
          rw [Scope.normalize_of_none hf]
          rfl
      | some segs =>
          rw [Scope.normalize_of_some hf]
          rfl

theorem scopeFolders?_of_reported?_none (h : reported? scope = none) :
    Discovery.scopeFolders? scope = none := by
  rwa [reported?_eq, Option.map_eq_none_iff] at h

theorem scopeFolders?_of_reported?_whole (h : reported? scope = some none) :
    Discovery.scopeFolders? scope = some [] := by
  rw [reported?_eq, Option.map_eq_some_iff] at h
  obtain ⟨segs, hsegs, h⟩ := h
  split at h
  next hnil => rw [hsegs, hnil]
  next => cases h

theorem scopeFolders?_of_reported? {f : String} (h : reported? scope = some (some f)) :
    ∃ segs, Discovery.scopeFolders? scope = some segs ∧ Scope.IsWritten segs ∧
      f = joinFields '/' segs := by
  rw [reported?_eq, Option.map_eq_some_iff] at h
  obtain ⟨segs, hsegs, h⟩ := h
  split at h
  next => cases h
  next hne =>
    exact ⟨segs, hsegs, Discovery.isWritten_of_scopeFolders? hsegs hne, (Option.some.inj h).symm⟩

/-! ## What is built for a scope -/

theorem toOption_eq_some_iff {ε α : Type} {x : Except ε α} {a : α} :
    x.toOption = some a ↔ x = .ok a := by
  cases x <;> simp [Except.toOption]

/-- The graph of all that is listed from a folder on. -/
def graphFrom (b : GraphBuilder) (host : Host) (root start : String) : FileGraph :=
  b.graphOf host root (b.discovery.walk host start root).value

/-- The scope decides nothing but the folder that is walked. -/
theorem toOption_buildFromRoot (b : GraphBuilder) (host : Host) (root : String)
    (scope : Option String) :
    (b.buildFromRoot host root scope).value.toOption =
      if host.isFolder root then (Discovery.analyzed? host root scope).map (b.graphFrom host root)
      else none := by
  rw [value_buildFromRoot, Discovery.value_discover, Discovery.analyzed?]
  cases host.isFolder root with
  | false => rfl
  | true => cases (Discovery.scopeRoot host root scope).value <;> rfl

theorem liesIn_of_mem_graphFrom {segs : List String} (hroot : host.root.WellFormed)
    (hbase : root ≠ "") (hw : Scope.IsWritten segs)
    (hfolder : host.isFolder (Location.joinAll root segs) = true) {n : FileNode}
    (hn : n ∈ (b.graphFrom host root (Location.joinAll root segs)).nodes) :
    Path.liesIn (joinFields '/' segs) n.path = true := by
  obtain ⟨path, hpath, rfl⟩ := List.mem_map.mp hn
  rw [Discovery.value_walk_joinAll hroot hbase hw.segments hfolder] at hpath
  exact Discovery.liesIn_of_mem_listing hroot hw.ne_nil hfolder hpath

theorem toOption_buildGraph (b : GraphBuilder) (host : Host) (locator : Locator)
    (owner name : String) (scope : Option String) :
    (b.buildGraph host locator owner name scope).value.toOption =
      (locator.locate owner name).toOption.bind fun root =>
        (b.buildFromRoot host root scope).value.toOption := by
  unfold buildGraph
  rw [Logged.value_bind]
  cases locator.locate owner name with
  | error e => rfl
  | ok root =>
      simp only [Logged.value_bind, Logged.value_pure]
      cases hbuild : (b.buildFromRoot host root scope).value <;>
        simp [hbuild, Except.mapError, Except.toOption]

theorem toOption_buildGraph_congr (b : GraphBuilder)
    (h : ∀ root, locator.locate owner name = .ok root → host.isFolder root = true →
      Discovery.analyzed? host root folder = Discovery.analyzed? host root scope) :
    (b.buildGraph host locator owner name folder).value.toOption =
      (b.buildGraph host locator owner name scope).value.toOption := by
  rw [toOption_buildGraph, toOption_buildGraph]
  refine Option.bind_congr fun root hlocate => ?_
  rw [toOption_buildFromRoot, toOption_buildFromRoot]
  by_cases hrepo : host.isFolder root = true
  · rw [h root (toOption_eq_some_iff.mp hlocate) hrepo]
  · rw [if_neg hrepo, if_neg hrepo]

theorem toOption_buildGraph_of_refused (h : reported? scope = none) :
    (b.buildGraph host locator owner name scope).value.toOption = none := by
  rw [toOption_buildGraph, Option.bind_eq_none_iff]
  intro root _
  rw [toOption_buildFromRoot]
  by_cases hrepo : host.isFolder root = true
  · rw [if_pos hrepo, Discovery.analyzed?_eq (Discovery.ne_empty_of_isFolder hrepo),
      scopeFolders?_of_reported?_none h]
    rfl
  · exact if_neg hrepo

theorem toOption_buildResponse (b : GraphBuilder) (host : Host) (locator : Locator)
    (owner name : String) (scope : Option String) :
    (b.buildResponse host locator owner name scope).value.toOption =
      (reported? scope).bind fun folder =>
        (b.buildGraph host locator owner name folder).value.toOption.map
          (.ofGraph owner name folder) := by
  have hvalue (folder : Option String) :
      ((b.buildGraph host locator owner name folder).value.map
          (GraphResponse.ofGraph owner name folder)).toOption =
        (b.buildGraph host locator owner name folder).value.toOption.map
          (GraphResponse.ofGraph owner name folder) := by
    cases (b.buildGraph host locator owner name folder).value <;> rfl
  cases scope with
  | none => exact hvalue none
  | some s =>
      rw [buildResponse, reported?]
      cases Scope.normalize s with
      | error e => rfl
      | ok folder => exact hvalue folder

theorem buildResponse_ok (h : (b.buildResponse host locator owner name scope).value = .ok r) :
    ∃ root start, reported? scope = some r.folder ∧ locator.locate owner name = .ok root ∧
      host.isFolder root = true ∧ Discovery.analyzed? host root r.folder = some start ∧
      r = .ofGraph owner name r.folder (b.graphFrom host root start) := by
  rw [← toOption_eq_some_iff, toOption_buildResponse, Option.bind_eq_some_iff] at h
  obtain ⟨folder, hreported, h⟩ := h
  obtain ⟨g, hg, rfl⟩ := Option.map_eq_some_iff.mp h
  rw [toOption_buildGraph, Option.bind_eq_some_iff] at hg
  obtain ⟨root, hroot, hg⟩ := hg
  rw [toOption_buildFromRoot] at hg
  split at hg
  next hrepo =>
    obtain ⟨start, hstart, rfl⟩ := Option.map_eq_some_iff.mp hg
    exact ⟨root, start, hreported, toOption_eq_some_iff.mp hroot, hrepo, hstart, rfl⟩
  next => cases hg

/-! ## Agreement -/

/-- A response and a graph for the same scope are about one folder. -/
structure Agree (b : GraphBuilder) (host : Host) (locator : Locator) (owner name : String)
    (scope : Option String) : Prop where
  /-- Both fail, or both succeed with the same graph. -/
  graph : (b.buildResponse host locator owner name scope).value.toOption.map GraphResponse.graph =
    (b.buildGraph host locator owner name scope).value.toOption
  /-- What the response shows is in the folder that it reports. -/
  folder : ∀ r f, (b.buildResponse host locator owner name scope).value = .ok r →
    r.folder = some f → r.stats.analyzedFolder = "/" ++ f ∧
      ∀ n ∈ r.graph.nodes, Path.liesIn f n.path = true
  whole : ∀ r, (b.buildResponse host locator owner name scope).value = .ok r → r.folder = none →
    ∃ root, locator.locate owner name = .ok root ∧
      (b.buildFromRoot host root none).value = .ok r.graph
  /-- The same folder is walked, or none. -/
  walked : ∀ root folder, locator.locate owner name = .ok root → host.isFolder root = true →
    reported? scope = some folder →
    Discovery.analyzed? host root folder = Discovery.analyzed? host root scope

/-- The written form of a scope leads to the same folder as the scope exactly if it has no blanks at
its ends, or if there is no folder for either of them. -/
theorem analyzed?_reported_iff {f : String} (hrepo : host.isFolder root = true)
    (hf : reported? scope = some (some f)) :
    Discovery.analyzed? host root (some f) = Discovery.analyzed? host root scope ↔
      trim f = f ∨ Discovery.analyzed? host root (some f) = none ∧
        Discovery.analyzed? host root scope = none := by
  obtain ⟨segs, hsegs, hw, rfl⟩ := scopeFolders?_of_reported? hf
  have hbase := Discovery.ne_empty_of_isFolder hrepo
  constructor
  · intro hsame
    cases hstart : Discovery.analyzed? host root scope with
    | none => exact Or.inr ⟨hsame.trans hstart, rfl⟩
    | some start =>
        obtain ⟨segs', hsegs', hstart', _⟩ := (Discovery.analyzed?_eq_some_iff hrepo).mp hstart
        obtain ⟨again, hagain, hstart'', _⟩ :=
          (Discovery.analyzed?_eq_some_iff hrepo).mp (hsame.trans hstart)
        rw [hsegs, Option.some.injEq] at hsegs'
        subst hsegs'
        have hsegs_eq : again = segs := Location.joinAll_injective hbase
          (Discovery.isSegment_of_scopeFolders? hagain) hw.segments (hstart''.symm.trans hstart')
        subst hsegs_eq
        refine Or.inl ((Scope.normalize_joinFields_iff hw).mp ?_)
        rw [Scope.normalize_of_some hagain, if_neg hw.ne_nil]
  · rintro (htrim | ⟨hnone, hnone'⟩)
    · rw [Discovery.analyzed?_eq hbase, Discovery.analyzed?_eq hbase, hsegs,
        show Discovery.scopeFolders? (some (joinFields '/' segs)) = some segs from
          Scope.folders?_joinFields hw htrim]
    · rw [hnone, hnone']

theorem agree_of_walked (hroot : host.root.WellFormed)
    (hwalked : ∀ root folder, locator.locate owner name = .ok root → host.isFolder root = true →
      reported? scope = some folder →
      Discovery.analyzed? host root folder = Discovery.analyzed? host root scope) :
    b.Agree host locator owner name scope := by
  refine
    { graph := ?_
      folder := fun r f hr hf => ?_
      whole := fun r hr hf => ?_
      walked := hwalked }
  · rw [toOption_buildResponse]
    cases hreported : reported? scope with
    | none => exact (toOption_buildGraph_of_refused hreported).symm
    | some folder =>
        have hsame := toOption_buildGraph_congr b fun root hlocate hrepo =>
          hwalked root folder hlocate hrepo hreported
        rw [Option.bind_some, hsame, Option.map_map]
        exact Option.map_id'
  · obtain ⟨root, start, hreported, hlocate, hrepo, hstart, hgraph⟩ := buildResponse_ok hr
    rw [hf] at hreported hstart hgraph
    refine ⟨by rw [hgraph]; rfl, fun n hn => ?_⟩
    rw [hwalked root _ hlocate hrepo hreported] at hstart
    obtain ⟨segs, hsegs, hw, rfl⟩ := scopeFolders?_of_reported? hreported
    obtain ⟨segs', hsegs', rfl, hfolder⟩ := (Discovery.analyzed?_eq_some_iff hrepo).mp hstart
    rw [hsegs, Option.some.injEq] at hsegs'
    subst hsegs'
    rw [hgraph] at hn
    exact liesIn_of_mem_graphFrom hroot (Discovery.ne_empty_of_isFolder hrepo) hw hfolder hn
  · obtain ⟨root, start, _, hlocate, hrepo, hstart, hgraph⟩ := buildResponse_ok hr
    refine ⟨root, hlocate, toOption_eq_some_iff.mp ?_⟩
    rw [hf] at hstart hgraph
    rw [toOption_buildFromRoot, if_pos hrepo, hstart, hgraph]
    rfl

/-- Response and graph agree exactly if the written form of the scope has no blanks at its ends, or
there is nothing under either name. -/
theorem agree_iff (hroot : host.root.WellFormed) :
    b.Agree host locator owner name scope ↔
      ∀ root f, locator.locate owner name = .ok root → host.isFolder root = true →
        reported? scope = some (some f) →
        trim f = f ∨ Discovery.analyzed? host root (some f) = none ∧
          Discovery.analyzed? host root scope = none := by
  constructor
  · intro hagree root f hlocate hrepo hf
    exact (analyzed?_reported_iff hrepo hf).mp (hagree.walked root _ hlocate hrepo hf)
  · intro hscope
    refine agree_of_walked hroot fun root folder hlocate hrepo hreported => ?_
    cases folder with
    | none =>
        have hbase := Discovery.ne_empty_of_isFolder hrepo
        rw [Discovery.analyzed?_eq hbase, Discovery.analyzed?_eq hbase,
          scopeFolders?_of_reported?_whole hreported]
        rfl
    | some f =>
        exact (analyzed?_reported_iff hrepo hreported).mpr (hscope root f hlocate hrepo hreported)

/-! ### A folder whose name starts with a blank, beside one without it -/

def blankEntries : List (String × Entry) :=
  [(" a", .folder [("y.js", .file ⟨#[0x3b]⟩)]), ("a", .folder [("x.js", .file ⟨#[0x3b]⟩)])]

def blankHost : Host := ⟨.folder [("repo", .folder blankEntries)], []⟩

theorem resolve_blank : blankHost.resolve "/repo" = .ok ⟨["repo"], .folder blankEntries⟩ := by cbv

theorem folders?_blank : Scope.folders? "/ a" = some [" a"] := by
  rw [Scope.folders?, String.contains_char_eq]
  decide

theorem folders?_plain : Scope.folders? "/a" = some ["a"] := by
  rw [Scope.folders?, String.contains_char_eq]
  decide

theorem analyzed?_blank : Discovery.analyzed? blankHost "/repo" (some "/ a") = some "/repo/ a" := by
  have hres : blankHost.resolve (Location.joinAll "/repo" [" a"]) =
      .ok ⟨["repo", " a"], .folder [("y.js", .file ⟨#[0x3b]⟩)]⟩ :=
    (resolve_joinAll_at resolve_blank (by decide) rfl (by simp)).trans (if_pos (by decide))
  refine (Discovery.analyzed?_eq_some_iff (isFolder_iff.mpr ⟨_, _, resolve_blank⟩)).mpr ?_
  exact ⟨[" a"], folders?_blank, rfl, isFolder_iff.mpr ⟨_, _, hres⟩⟩

def blankBuilder : GraphBuilder := { reader := fun _ _ => pure (.ok []) }

/-- For the scope `/a` response and graph agree, for `/ a` they do not. -/
theorem agree_iff_blank : blankBuilder.Agree blankHost (.fixed "/repo") "o" "n" (some "/a") ∧
    ¬ blankBuilder.Agree blankHost (.fixed "/repo") "o" "n" (some "/ a") := by
  constructor
  · refine (agree_iff (by decide)).mpr fun root f _ _ hf => Or.inl ?_
    have hsegs : Discovery.scopeFolders? (some "/a") = some ["a"] := folders?_plain
    rw [reported?_eq, hsegs] at hf
    cases hf
    decide
  · intro hagree
    have hf : reported? (some "/ a") = some (some " a") := by
      have hsegs : Discovery.scopeFolders? (some "/ a") = some [" a"] := folders?_blank
      rw [reported?_eq, hsegs]
      rfl
    rcases (agree_iff (by decide)).mp hagree "/repo" _ rfl (isFolder_iff.mpr ⟨_, _, resolve_blank⟩)
      hf with htrim | ⟨_, hnone⟩
    · exact absurd htrim (by decide)
    · rw [analyzed?_blank] at hnone
      cases hnone

end GraphBuilder

end ImportAtlas
