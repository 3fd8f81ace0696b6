import ImportAtlas.Proofs.Discovery.Addition
import ImportAtlas.Proofs.Graph.Isolation
import ImportAtlas.Proofs.Resolution

/-!
# The graph with one more file

One more source file changes the graph of a repository near that file alone: it is one more node,
and an import of another file either keeps its target, or stays without one, or leads to the new
file from now on.
-/

namespace ImportAtlas

open Text Host

namespace Resolution

variable {order : SuffixOrder} {importer specifier : String}

/-- A file that is put into the set draws imports to itself and changes no others. -/
theorem resolve_insert (order : SuffixOrder) (before after : List String) (file : String)
    (hnew : file ∉ before ++ after) (importer specifier : String) :
    resolve order ⟨before ++ file :: after⟩ importer specifier =
        resolve order ⟨before ++ after⟩ importer specifier ∨
      resolve order ⟨before ++ file :: after⟩ importer specifier = some file := by
  have hkeep : ∀ path ∈ before ++ after, (path != file) = true := by
    intro path hpath
    exact bne_iff_ne.mpr fun heq => hnew (heq ▸ hpath)
  have hrest : (before ++ file :: after).filter (· != file) = before ++ after := by
    rw [List.filter_append, List.filter_cons_of_neg (by simp), ← List.filter_append,
      List.filter_eq_self]
    exact hkeep
  cases hres : resolve order ⟨before ++ file :: after⟩ importer specifier with
  | none =>
      have hnone : resolve order ⟨(before ++ file :: after).filter (· != file)⟩ importer specifier =
          none := resolve_filter_of_none hres
      rw [hrest] at hnone
      exact Or.inl hnone.symm
  | some target =>
      by_cases htarget : target = file
      · exact Or.inr (congrArg some htarget)
      · have hsome : resolve order ⟨(before ++ file :: after).filter (· != file)⟩ importer
            specifier = some target := resolve_filter_of_resolve hres (bne_iff_ne.mpr htarget)
        rw [hrest] at hsome
        exact Or.inl hsome.symm

end Resolution

namespace GraphBuilder

variable {b : GraphBuilder} {s s' : Subject} {files files' place place' names : List String}
  {es ds : List (String × Entry)} {path file : String}

/-- What one import of a file becomes in the graph of some files. -/
def outcome (b : GraphBuilder) (files : List String) (path : String) (i : ImportStatement) :
    Option (String × ImportKind) :=
  (Resolution.resolve b.order ⟨files⟩ path i.specifier).map fun target => (target, i.kind)

theorem map_snd_added (b : GraphBuilder) (s : Subject) (files : List String) (path : String) :
    (b.added s files path).map Prod.snd =
      ((b.importsFor? s path).getD []).filterMap (b.outcome files path) := by
  rw [added, List.map_filterMap]
  refine List.filterMap_congr fun i _ => ?_
  rw [triple?, outcome, Option.map_map]
  rfl

theorem outgoing_of_mem (hfiles : files.Nodup) (hpath : path ∈ files) :
    (b.graphIn s files).outgoing path =
      ((b.importsFor? s path).getD []).filterMap (b.outcome files path) := by
  obtain ⟨before, after, rfl⟩ := List.append_of_mem hpath
  rw [List.nodup_middle, List.nodup_cons, List.mem_append, not_or] at hfiles
  have hnone {part : List String} (hpart : path ∉ part) (own : List (String × ImportKind)) :
      (part.flatMap fun p => if p = path then own else []) = [] := by
    rw [List.flatMap_eq_nil_iff]
    intro p hp
    have hne : p ≠ path := fun heq => hpart (heq ▸ hp)
    exact if_neg hne
  rw [outgoing_graphIn, List.flatMap_append, List.flatMap_cons, if_pos rfl,
    hnone hfiles.1.1, hnone hfiles.1.2, List.nil_append, List.append_nil, map_snd_added]

/-- A repository has one more source file. -/
inductive AddsFile (b : GraphBuilder) (s s' : Subject) (file : String) : Prop
  /-- The folder holds one more, where links count for nothing or where there are none. -/
  | stored {place place' names : List String} {es ds : List (String × Entry)}
      (hrepo : s.host.resolve s.root = .ok ⟨place, .folder es⟩)
      (hrepo' : s'.host.resolve s'.root = .ok ⟨place', .folder ds⟩)
      (hlinks : b.discovery.followLinks = false ∨
        (Entry.folder es).LinkFree ∧ (Entry.folder ds).LinkFree)
      (hscope : s.scope = none ∧ s'.scope = none) (hroot : s'.root = s.root)
      (hreader : s'.reader = s.reader)
      (hadd : (Entry.folder es).OneMoreFile (.folder ds) names)
      (hnew : Discovery.LeadsToSource b.discovery.excluded (.folder ds) names)
      (hfile : file = joinFields '/' names)
  /-- A discovery comes upon one more, whatever links it follows, and the files that it came upon
  before are as they were. -/
  | found {files files' : List String} (hfiles : b.Discovers s files)
      (hfiles' : b.Discovers s' files') (hnew : file ∉ files)
      (hmem : ∀ path, path ∈ files' ↔ path = file ∨ path ∈ files)
      (hsame : ∀ path ∈ files, SameFile s s' path)

/-- A graph and the one with a further file. -/
structure ExtendedBy (b : GraphBuilder) (s s' : Subject) (file : String) (g g' : FileGraph) :
    Prop where
  nodes : ∃ before after, g.nodes = before ++ after ∧
    g'.nodes = before ++ FileNode.ofPath file :: after
  new : file ∉ g.ids
  imports : ∀ path ∈ g.ids, b.importsFor? s' path = b.importsFor? s path
  /-- Each edge of a file stands for one of its imports that has an outcome. -/
  outgoing : ∀ path ∈ g.ids,
    g.outgoing path = ((b.importsFor? s path).getD []).filterMap (b.outcome g.ids path) ∧
      g'.outgoing path = ((b.importsFor? s path).getD []).filterMap (b.outcome g'.ids path)
  targets : ∀ path ∈ g.ids, ∀ i : ImportStatement,
    b.outcome g'.ids path i = b.outcome g.ids path i ∨
      b.outcome g'.ids path i = some (file, i.kind)

theorem ids_graphIn (b : GraphBuilder) (s : Subject) (files : List String) :
    (b.graphIn s files).ids = files := ids_graphOf _ _ _ _

theorem extendedBy_graphIn {before after : List String} (hnodup : (before ++ file :: after).Nodup)
    (hsame : ∀ path ∈ before ++ after, SameFile s s' path) :
    b.ExtendedBy s s' file (b.graphIn s (before ++ after))
      (b.graphIn s' (before ++ file :: after)) := by
  have hold : file ∉ before ++ after ∧ (before ++ after).Nodup := by
    rwa [List.nodup_middle, List.nodup_cons] at hnodup
  have himports : ∀ path ∈ before ++ after, b.importsFor? s' path = b.importsFor? s path :=
    fun path hpath => (importsFor?_congr (hsame path hpath)).symm
  refine
    { nodes := ⟨before.map FileNode.ofPath, after.map FileNode.ofPath, ?_, ?_⟩
      new := ?_
      imports := ?_
      outgoing := ?_
      targets := ?_ }
  · exact List.map_append
  · exact List.map_append.trans (congrArg _ List.map_cons)
  · rw [ids_graphIn]
    exact hold.1
  · rwa [ids_graphIn]
  · intro path hpath
    rw [ids_graphIn] at hpath
    have hpath' : path ∈ before ++ file :: after := by
      simp only [List.mem_append, List.mem_cons] at hpath ⊢
      tauto
    rw [ids_graphIn, ids_graphIn, outgoing_of_mem hold.2 hpath, outgoing_of_mem hnodup hpath',
      himports path hpath]
    exact ⟨rfl, rfl⟩
  · intro path _ i
    rw [ids_graphIn, ids_graphIn, outcome, outcome]
    rcases Resolution.resolve_insert b.order before after file hold.1 path i.specifier with
      hkept | hdrawn
    · exact Or.inl (by rw [hkept])
    · exact Or.inr (by rw [hdrawn, Option.map_some])

theorem extendedBy_of_found (hroot : s.host.root.WellFormed) (hroot' : s'.host.root.WellFormed)
    (hfiles : b.Discovers s files) (hfiles' : b.Discovers s' files') (hnew : file ∉ files)
    (hmem : ∀ path, path ∈ files' ↔ path = file ∨ path ∈ files)
    (hsame : ∀ path ∈ files, SameFile s s' path) :
    ∃ g g', b.build s = .ok g ∧ b.build s' = .ok g' ∧ b.ExtendedBy s s' file g g' := by
  have hsorted := Discovery.pairwise_of_discover hroot hfiles.1 hfiles.2
  have hsorted' := Discovery.pairwise_of_discover hroot' hfiles'.1 hfiles'.2
  obtain ⟨before, after, rfl, rfl⟩ := Discovery.exists_insertion hsorted hsorted' hmem hnew
  refine ⟨_, _, build_of_discovers hfiles, build_of_discovers hfiles', ?_⟩
  exact extendedBy_graphIn (Discovery.nodup_of_discover hroot' hfiles'.1 hfiles'.2) hsame

/-! ## Files of a stored tree -/

theorem discovers_listing (hroot : s.host.root.WellFormed)
    (hrepo : s.host.resolve s.root = .ok ⟨place, .folder es⟩) (hscope : s.scope = none) :
    b.Discovers s (b.discovery.listing s.host s.root []) := by
  refine ⟨isFolder_iff.mpr ⟨place, es, hrepo⟩, ?_⟩
  rw [hscope]
  exact Discovery.discover_whole hroot hrepo

theorem readBytes_of_at? {host : Host} {root : String} {c : ByteArray}
    (hroot : host.root.WellFormed) (hrepo : host.resolve root = .ok ⟨place, .folder es⟩)
    (hat : (Entry.folder es).at? names = some (.file c)) (hne : names ≠ []) :
    host.readBytes (Location.join root (joinFields '/' names)) =
      if Fits (Location.joinAll root names) names then .ok c else .error .nameTooLong := by
  have hes : (Entry.folder es).WellFormed := (hroot.of_at? (at?_of_resolve hrepo)).1
  have hplain : ∀ n ∈ names, IsEntryName n := (hes.of_at? hat).2
  have hbase : root ≠ "" := (resolve_ok hrepo).2.1
  rw [← Location.joinAll_eq_join hbase hne fun n hn => (hplain n hn).toIsSegment, readBytes,
    resolve_joinAll_at hrepo hplain hat (by simp)]
  split <;> rfl

theorem sameFile_of_oneMoreFile (hroot : s.host.root.WellFormed)
    (hroot' : s'.host.root.WellFormed) (hrepo : s.host.resolve s.root = .ok ⟨place, .folder es⟩)
    (hrepo' : s'.host.resolve s'.root = .ok ⟨place', .folder ds⟩) (hsame : s'.root = s.root)
    (hreader : s'.reader = s.reader) (hadd : (Entry.folder es).OneMoreFile (.folder ds) names)
    {c : ByteArray} (hat : (Entry.folder es).at? (Path.segments path) = some (.file c)) :
    SameFile s s' path where
  bytes := by
    have hne : Path.segments path ≠ [] := by
      intro hnil
      rw [hnil, Entry.at?_nil] at hat
      cases hat
    have hread := readBytes_of_at? hroot hrepo hat hne
    have hread' := readBytes_of_at? hroot' hrepo' (hadd.kept hat) hne
    rw [Path.joinFields_segments] at hread hread'
    rw [hread, hread', hsame]
  imports := by
    intro content text _ _
    rw [hreader]

theorem extendedBy_of_stored (hroot : s.host.root.WellFormed) (hroot' : s'.host.root.WellFormed)
    (hrepo : s.host.resolve s.root = .ok ⟨place, .folder es⟩)
    (hrepo' : s'.host.resolve s'.root = .ok ⟨place', .folder ds⟩)
    (hlinks : b.discovery.followLinks = false ∨
      (Entry.folder es).LinkFree ∧ (Entry.folder ds).LinkFree)
    (hscope : s.scope = none ∧ s'.scope = none) (hsame : s'.root = s.root)
    (hreader : s'.reader = s.reader) (hadd : (Entry.folder es).OneMoreFile (.folder ds) names)
    (hnew : Discovery.LeadsToSource b.discovery.excluded (.folder ds) names) :
    ∃ g g', b.build s = .ok g ∧ b.build s' = .ok g' ∧
      b.ExtendedBy s s' (joinFields '/' names) g g' := by
  have hlists := Discovery.listsInOrder_of_plain (d := b.discovery) hroot
    (hlinks.imp_right And.left) hrepo
  have hlists' := Discovery.listsInOrder_of_plain (d := b.discovery) hroot'
    (hlinks.imp_right And.right) hrepo'
  have hnames : Path.segments (joinFields '/' names) = names := by
    obtain ⟨c, hc⟩ := hnew.file
    have hds : (Entry.folder ds).WellFormed := (hroot'.of_at? (at?_of_resolve hrepo')).1
    apply Path.segments_joinFields
    · rintro rfl
      rw [Entry.at?_nil] at hc
      cases hc
    · exact fun n hn => ((hds.of_at? hc).2 n hn).toIsSegment
  apply extendedBy_of_found hroot hroot' (discovers_listing hroot hrepo hscope.1)
    (discovers_listing hroot' hrepo' hscope.2)
  · intro hold
    rw [hlists.mem_iff, hnames] at hold
    obtain ⟨c, hc⟩ := hold.file
    exact hadd.absent c hc
  · exact Discovery.mem_iff_of_oneMoreFile hadd hnew hnames hlists hlists'
  · intro path hpath
    obtain ⟨c, hc⟩ := ((hlists.mem_iff path).mp hpath).file
    exact sameFile_of_oneMoreFile hroot hroot' hrepo hrepo' hsame hreader hadd hc

/-- With one more source file both builds succeed, and nothing but that file is new: the other nodes
keep their order, and each import of theirs has the outcome that it had or leads to the new file. -/
theorem extendedBy_of_addsFile (hroot : s.host.root.WellFormed)
    (hroot' : s'.host.root.WellFormed) (h : b.AddsFile s s' file) :
    ∃ g g', b.build s = .ok g ∧ b.build s' = .ok g' ∧ b.ExtendedBy s s' file g g' := by
  cases h with
  | stored hrepo hrepo' hlinks hscope hsame hreader hadd hnew hfile =>
      rw [hfile]
      exact extendedBy_of_stored hroot hroot' hrepo hrepo' hlinks hscope hsame hreader hadd hnew
  | found hfiles hfiles' hnew hmem hsame =>
      exact extendedBy_of_found hroot hroot' hfiles hfiles' hnew hmem hsame

/-! ### A file put beside a folder of the same name -/

def libEntries : List (String × Entry) :=
  [("app.js", .file ⟨#[0x3b]⟩), ("lib", .folder [("index.js", .file ⟨#[0x20]⟩)])]

def besideEntries : List (String × Entry) := libEntries ++ [("lib.js", .file ⟨#[]⟩)]

def libBuilder : GraphBuilder where
  reader := fun path _ =>
    pure (.ok (if path == "app.js" then [⟨"./lib", 1, .importFrom⟩] else []))

def libSubject (es : List (String × Entry)) : Subject :=
  ⟨⟨.folder [("repo", .folder es)], []⟩, "/repo", none, libBuilder.reader⟩

theorem resolve_lib : (libSubject libEntries).host.resolve "/repo" =
    .ok ⟨["repo"], .folder libEntries⟩ := by cbv

theorem resolve_beside : (libSubject besideEntries).host.resolve "/repo" =
    .ok ⟨["repo"], .folder besideEntries⟩ := by cbv

theorem listing_lib :
    libBuilder.discovery.listing (libSubject libEntries).host "/repo" [] =
      ["app.js", "lib/index.js"] := by
  have hmet : Walk.sightings Exclusions.standard [] (.folder libEntries) =
      [.file ["app.js"], .file ["lib", "index.js"]] := by
    rw [Walk.sightings_of_sorted (by decide)]
    simp (disch := decide) [libEntries, Walk.sightingsAt, Walk.sightings_of_sorted,
      Entry.isFolder, Exclusions.standard]
  rw [Discovery.listing_of_resolve rfl resolve_lib,
    show libBuilder.discovery.excluded = Exclusions.standard from rfl, hmet]
  cbv

theorem listing_beside :
    libBuilder.discovery.listing (libSubject besideEntries).host "/repo" [] =
      ["app.js", "lib/index.js", "lib.js"] := by
  have hmet : Walk.sightings Exclusions.standard [] (.folder besideEntries) =
      [.file ["app.js"], .file ["lib", "index.js"], .file ["lib.js"]] := by
    rw [Walk.sightings_of_sorted (by decide)]
    simp (disch := decide) [besideEntries, libEntries, Walk.sightingsAt,
      Walk.sightings_of_sorted, Entry.isFolder, Exclusions.standard]
  rw [Discovery.listing_of_resolve rfl resolve_beside,
    show libBuilder.discovery.excluded = Exclusions.standard from rfl, hmet]
  cbv

theorem addsFile_lib :
    libBuilder.AddsFile (libSubject libEntries) (libSubject besideEntries) "lib.js" := by
  have hadd : (Entry.folder libEntries).OneMoreFile (.folder besideEntries) ["lib.js"] :=
    Entry.oneMoreFile_append (by decide) ⟨#[]⟩
  have hnew : Discovery.LeadsToSource libBuilder.discovery.excluded (.folder besideEntries)
      ["lib.js"] := by
    refine ⟨⟨⟨#[]⟩, rfl⟩, by simp, "lib.js", rfl, "lib", "js", by decide, by decide⟩
  exact .stored resolve_lib resolve_beside (Or.inl rfl) ⟨rfl, rfl⟩ rfl rfl hadd hnew (by decide)

theorem importsFor?_lib : libBuilder.importsFor? (libSubject libEntries) "app.js" =
    some [⟨"./lib", 1, .importFrom⟩] := by
  have hat : (Entry.folder libEntries).at? ["app.js"] = some (.file ⟨#[0x3b]⟩) := rfl
  have hread : (libSubject libEntries).host.readBytes (Location.join "/repo" "app.js") =
      .ok ⟨#[0x3b]⟩ :=
    (readBytes_of_at? (by decide) resolve_lib hat (by simp)).trans (if_pos (by decide))
  rw [importsFor?_of_ok hread]
  decide

/-- An import of the folder leads to the file once that is there. -/
theorem extendedBy_lib : ∃ g g', libBuilder.build (libSubject libEntries) = .ok g ∧
    libBuilder.build (libSubject besideEntries) = .ok g' ∧
    libBuilder.ExtendedBy (libSubject libEntries) (libSubject besideEntries) "lib.js" g g' ∧
    g.outgoing "app.js" = [("lib/index.js", .importFrom)] ∧
    g'.outgoing "app.js" = [("lib.js", .importFrom)] := by
  obtain ⟨g, g', hg, hg', hextended⟩ :=
    extendedBy_of_addsFile (by decide) (by decide) addsFile_lib
  have hids : g.ids = ["app.js", "lib/index.js"] := by
    rw [build_of_discovers (discovers_listing (by decide) resolve_lib rfl), Except.ok.injEq] at hg
    rw [← hg, ids_graphIn]
    exact listing_lib
  have hids' : g'.ids = ["app.js", "lib/index.js", "lib.js"] := by
    rw [build_of_discovers (discovers_listing (by decide) resolve_beside rfl),
      Except.ok.injEq] at hg'
    rw [← hg', ids_graphIn]
    exact listing_beside
  obtain ⟨hout, hout'⟩ := hextended.outgoing "app.js" (hids ▸ List.mem_cons_self)
  refine ⟨g, g', hg, hg', hextended, ?_, ?_⟩
  · rw [hout, importsFor?_lib, hids]
    cbv
  · rw [hout', importsFor?_lib, hids']
    cbv

end GraphBuilder

end ImportAtlas
