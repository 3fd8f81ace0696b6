import ImportAtlas.Proofs.Graph.Grouping
import ImportAtlas.Proofs.Text.Lines
import ImportAtlas.Render.Tree

/-!
# What a listing shows

A listing looks up the label of each file and picks its edges out of all edges of the graph. Nothing
is lost or shown twice as long as no two nodes have the same id, each of them is in one group and
each edge starts at one of them. The graph of a build is like that.

The text tells which of its lines are files and which are arrows: an empty line ends a folder, the
line behind it starts the next one, and the signs in front of the others differ.
-/

namespace ImportAtlas

open Text Host

/-! ## Nodes and edges group by group -/

namespace FileGraph

variable {g : FileGraph} {ids : List String} {id : String}

/-- Each node has an id of its own and is in one group, and each edge starts at a node. -/
structure IsGrouped (g : FileGraph) : Prop where
  ids_nodup : g.ids.Nodup
  perm_ids : (g.folderGroups.flatMap FolderGroup.fileIds).Perm g.ids
  source_mem : ∀ e ∈ g.edges, e.source ∈ g.ids

/-- Edges that are picked out id by id are those that start at one of the ids. -/
theorem perm_flatMap_edgesFrom (hids : ids.Nodup) :
    (ids.flatMap g.edgesFrom).Perm (g.edges.filter fun e => decide (e.source ∈ ids)) := by
  induction ids with
  | nil => simp
  | cons id ids ih =>
      obtain ⟨hid, hids⟩ := List.nodup_cons.mp hids
      -- The edges of all ids are parted by whether they start at the first one.
      have hhead : (g.edges.filter fun e => decide (e.source ∈ id :: ids)).filter (·.source == id) =
          g.edgesFrom id := by
        rw [List.filter_filter, edgesFrom]
        refine List.filter_congr fun e _ => ?_
        by_cases he : e.source = id <;> simp [he]
      have htail : (g.edges.filter fun e => decide (e.source ∈ id :: ids)).filter
          (fun e => !(e.source == id)) = g.edges.filter fun e => decide (e.source ∈ ids) := by
        rw [List.filter_filter]
        refine List.filter_congr fun e _ => ?_
        by_cases he : e.source = id <;> simp [he, hid]
      have hparts := List.filter_append_perm (·.source == id)
        (g.edges.filter fun e => decide (e.source ∈ id :: ids))
      rw [hhead, htail] at hparts
      exact ((ih hids).append_left (g.edgesFrom id)).trans hparts

/-- The edges of each file, group by group, are all edges of the graph. -/
theorem IsGrouped.perm_edges (hg : g.IsGrouped) :
    ((g.folderGroups.flatMap FolderGroup.fileIds).flatMap g.edgesFrom).Perm g.edges := by
  have hall : (g.edges.filter fun e => decide (e.source ∈ g.ids)) = g.edges := by
    apply List.filter_eq_self.mpr
    intro e he
    exact decide_eq_true (hg.source_mem e he)
  have hedges := perm_flatMap_edgesFrom (g := g) hg.ids_nodup
  rw [hall] at hedges
  exact (hg.perm_ids.flatMap_right g.edgesFrom).trans hedges

theorem IsGrouped.exists_node (hg : g.IsGrouped) {group : FolderGroup}
    (hgroup : group ∈ g.folderGroups) (hid : id ∈ group.fileIds) :
    ∃ n ∈ g.nodes, n.id = id ∧ g.labelOf id = n.label := by
  have hmem : id ∈ g.ids := hg.perm_ids.mem_iff.mp (List.mem_flatMap.mpr ⟨group, hgroup, hid⟩)
  obtain ⟨m, hm, hmid⟩ := List.mem_map.mp hmem
  cases hfound : g.node? id with
  | none =>
      have hnone := List.find?_eq_none.mp hfound m hm
      exact absurd (beq_iff_eq.mpr hmid) hnone
  | some n =>
      refine ⟨n, List.mem_of_find?_eq_some hfound, ?_, ?_⟩
      · have hnid := List.find?_some hfound
        exact eq_of_beq hnid
      · rw [labelOf, hfound]
        rfl

end FileGraph

namespace Render

variable {g : FileGraph} {ids : List String} {id : String} {isLast : Bool} {group : FolderGroup}

/-! ## Files and folders -/

/-- A file and below it its imports in the order of the edges. -/
def ShowsFile (g : FileGraph) (isLast : Bool) (id : String) (part : List String) : Prop :=
  ∃ n ∈ g.nodes, n.id = id ∧
    part = ("  " ++ (if isLast then "└─" else "├─") ++ " " ++ n.label) ::
      (g.edges.filter (·.source = id)).map fun e =>
        "  " ++ (if isLast then "  " else "│ ") ++ "   → " ++ e.target ++ " [" ++ e.kind.name ++ "]"

/-- A header with the number of files, the files in order, the last of which closes the branch, and
an empty line. -/
def ShowsGroup (g : FileGraph) (group : FolderGroup) (block : List String) : Prop :=
  ∃ parts, block = (group.path ++ "/ (" ++ toString group.fileIds.length ++ " files)") ::
      parts.flatten ++ [""] ∧
    List.Forall₂ (fun x part => ShowsFile g (x.2 + 1 = group.fileIds.length) x.1 part)
      group.fileIds.zipIdx parts

/-- The branch is closed by position: `n` files stand in front of these. -/
theorem branchLines_eq (style : Style) (g : FileGraph) (ids : List String) (n : Nat) :
    branchLines style g ids =
      (ids.zipIdx n).flatMap fun x => fileLines style g (x.2 + 1 = n + ids.length) x.1 := by
  induction ids generalizing n with
  | nil => rfl
  | cons id ids ih =>
      cases ids with
      | nil => simp [branchLines]
      | cons next ids =>
          have hopen : decide (n + 1 = n + (id :: next :: ids).length) = false := by simp
          have hlength : n + (id :: next :: ids).length = n + 1 + (next :: ids).length := by
            simp only [List.length_cons]
            omega
          rw [List.zipIdx_cons, List.flatMap_cons, hopen, hlength, ← ih (n + 1)]
          rfl

theorem arrowLine_plain (isLast : Bool) (e : FileEdge) :
    arrowLine .plain isLast e = "  " ++ (if isLast then "  " else "│ ") ++ "   → " ++ e.target ++
      " [" ++ e.kind.name ++ "]" := by
  apply String.toList_injective
  simp [arrowLine]

theorem showsFile_fileLines (hg : g.IsGrouped) (hgroup : group ∈ g.folderGroups)
    (hid : id ∈ group.fileIds) (isLast : Bool) :
    ShowsFile g isLast id (fileLines .plain g isLast id) := by
  obtain ⟨n, hn, hnid, hlabel⟩ := hg.exists_node hgroup hid
  refine ⟨n, hn, hnid, ?_⟩
  rw [fileLines, fileLine, Style.cyan_plain, hlabel, funext (arrowLine_plain isLast)]
  rfl

theorem showsGroup_groupLines (hg : g.IsGrouped) (hgroup : group ∈ g.folderGroups) :
    ShowsGroup g group (groupLines .plain g group) := by
  refine ⟨group.fileIds.zipIdx.map fun x =>
    fileLines .plain g (x.2 + 1 = group.fileIds.length) x.1, ?_, ?_⟩
  · rw [groupLines, branchLines_eq .plain g group.fileIds 0, Nat.zero_add, List.flatMap_def]
    rfl
  · apply List.forall₂_map_right_iff.mpr
    apply List.forall₂_same.mpr
    intro x hx
    have hid : x.1 ∈ group.fileIds := List.fst_mem_of_mem_zipIdx hx
    simpa using showsFile_fileLines hg hgroup hid (x.2 + 1 = group.fileIds.length)

/-! ## Telling the lines apart -/

/-- The lines of each folder but for its header. An empty line ends a folder. -/
def entryLines (ls : List String) : List String := (ls.splitOn "").flatMap List.tail

def isFileLine (l : String) : Bool :=
  "  ├─ ".toList.isPrefixOf l.toList || "  └─ ".toList.isPrefixOf l.toList

def isArrowLine (l : String) : Bool :=
  "  │    → ".toList.isPrefixOf l.toList || "       → ".toList.isPrefixOf l.toList

theorem isFileLine_fileLine (g : FileGraph) (isLast : Bool) (id : String) :
    isFileLine (fileLine .plain g isLast id) = true := by
  cases isLast <;> simp [isFileLine, fileLine]

theorem isArrowLine_fileLine (g : FileGraph) (isLast : Bool) (id : String) :
    isArrowLine (fileLine .plain g isLast id) = false := by
  cases isLast <;> simp [isArrowLine, fileLine, List.isPrefixOf]

theorem isFileLine_arrowLine (isLast : Bool) (e : FileEdge) :
    isFileLine (arrowLine .plain isLast e) = false := by
  cases isLast <;> simp [isFileLine, arrowLine, List.isPrefixOf]

theorem isArrowLine_arrowLine (isLast : Bool) (e : FileEdge) :
    isArrowLine (arrowLine .plain isLast e) = true := by
  cases isLast <;> simp [isArrowLine, arrowLine]

theorem countP_fileLines_isFileLine (g : FileGraph) (isLast : Bool) (id : String) :
    (fileLines .plain g isLast id).countP isFileLine = 1 := by
  rw [fileLines, List.countP_cons_of_pos (isFileLine_fileLine g isLast id), List.countP_map]
  simp [Function.comp_def, isFileLine_arrowLine]

theorem countP_fileLines_isArrowLine (g : FileGraph) (isLast : Bool) (id : String) :
    (fileLines .plain g isLast id).countP isArrowLine = (g.edgesFrom id).length := by
  rw [fileLines, List.countP_cons_of_neg (by simp [isArrowLine_fileLine]), List.countP_map]
  simp [Function.comp_def, isArrowLine_arrowLine]

theorem countP_branchLines_isFileLine (g : FileGraph) (ids : List String) :
    (branchLines .plain g ids).countP isFileLine = ids.length := by
  rw [branchLines_eq .plain g ids 0, List.countP_flatMap]
  simp [Function.comp_def, countP_fileLines_isFileLine]

theorem countP_branchLines_isArrowLine (g : FileGraph) (ids : List String) :
    (branchLines .plain g ids).countP isArrowLine = (ids.flatMap g.edgesFrom).length := by
  rw [branchLines_eq .plain g ids 0, List.countP_flatMap, List.length_flatMap]
  conv_rhs => rw [← List.zipIdx_map_fst 0 ids, List.map_map]
  simp only [Function.comp_def, countP_fileLines_isArrowLine]

/-! ## The lines of a listing -/

theorem mem_fileLines {style : Style} {l : String} :
    l ∈ fileLines style g isLast id ↔
      l = fileLine style g isLast id ∨ ∃ e ∈ g.edgesFrom id, l = arrowLine style isLast e := by
  simp [fileLines, eq_comm]

theorem exists_of_mem_branchLines {style : Style} {l : String} (hl : l ∈ branchLines style g ids) :
    ∃ id ∈ ids, ∃ isLast, l ∈ fileLines style g isLast id := by
  rw [branchLines_eq style g ids 0] at hl
  obtain ⟨x, hx, hl⟩ := List.mem_flatMap.mp hl
  exact ⟨x.1, List.fst_mem_of_mem_zipIdx hx, _, hl⟩

/-- Files and arrows are indented. -/
theorem head?_of_mem_branchLines {l : String} (hl : l ∈ branchLines .plain g ids) :
    l.toList.head? = some ' ' := by
  obtain ⟨id, -, isLast, hl⟩ := exists_of_mem_branchLines hl
  rcases mem_fileLines.mp hl with rfl | ⟨e, -, rfl⟩
  · simp [fileLine]
  · simp [arrowLine]

theorem getLast?_headerLine (group : FolderGroup) :
    (headerLine .plain group).toList.getLast? = some ')' := by
  have hend : (headerLine .plain group).toList =
      (group.path ++ "/ (" ++ toString group.fileIds.length ++ " files").toList ++ [')'] := by
    simp [headerLine]
  rw [hend]
  exact List.getLast?_concat

/-- One folder is taken off the front. Its header may be any text but the empty one. -/
theorem entryLines_append {header : String} {body : List String} (hheader : header ≠ "")
    (hbody : "" ∉ body) (rest : List String) :
    entryLines (header :: body ++ [""] ++ rest) = body ++ entryLines rest := by
  have hplain : ∀ l ∈ header :: body, (l == "") = false := by
    refine List.forall_mem_cons.mpr ⟨by simpa using hheader, fun l hl => ?_⟩
    apply beq_eq_false_iff_ne.mpr
    rintro rfl
    exact hbody hl
  rw [entryLines, List.append_assoc, List.singleton_append, List.splitOn,
    List.splitOnP_append_cons_of_forall_mem hplain "" rfl]
  rfl

theorem entryLines_treeLines (g : FileGraph) :
    entryLines (treeLines .plain g) =
      g.folderGroups.flatMap fun group => branchLines .plain g group.fileIds := by
  rw [treeLines]
  induction g.folderGroups with
  | nil => split <;> rfl
  | cons group groups ih =>
      have hheader : headerLine .plain group ≠ "" := by
        intro h
        have hlast := getLast?_headerLine group
        rw [h] at hlast
        cases hlast
      have hbody : "" ∉ branchLines .plain g group.fileIds := fun hmem =>
        absurd (head?_of_mem_branchLines hmem) (by decide)
      rw [List.flatMap_cons, List.flatMap_cons, groupLines, List.append_assoc,
        entryLines_append hheader hbody, ih]

theorem noFilesLine_notMem_groupLines (g : FileGraph) (group : FolderGroup) :
    noFilesLine ∉ groupLines .plain g group := by
  rw [groupLines, List.mem_append, List.mem_cons, List.mem_singleton]
  rintro ((h | hmem) | h)
  · have hlast := getLast?_headerLine group
    rw [← h] at hlast
    exact absurd hlast (by decide)
  · exact absurd (head?_of_mem_branchLines hmem) (by decide)
  · exact absurd h (by decide)

theorem noFilesLine_mem_treeLines_iff (g : FileGraph) :
    noFilesLine ∈ treeLines .plain g ↔ g.nodes = [] := by
  have hgroups : noFilesLine ∉ g.folderGroups.flatMap (groupLines .plain g) := by
    intro hmem
    obtain ⟨group, -, hmem⟩ := List.mem_flatMap.mp hmem
    exact noFilesLine_notMem_groupLines g group hmem
  rw [treeLines, List.mem_append, or_iff_right hgroups]
  cases g.nodes <;> simp

/-- The names that a listing shows stay in their lines. -/
structure StaysInLine (g : FileGraph) : Prop where
  group : ∀ group ∈ g.folderGroups, '\n' ∉ group.path.toList
  label : ∀ n ∈ g.nodes, '\n' ∉ n.label.toList
  target : ∀ e ∈ g.edges, '\n' ∉ e.target.toList

theorem lineFeed_notMem_groupLines (hg : g.IsGrouped) (hnames : StaysInLine g)
    (hgroup : group ∈ g.folderGroups) : ∀ l ∈ groupLines .plain g group, '\n' ∉ l.toList := by
  intro l hl
  rw [groupLines, List.mem_append, List.mem_cons, List.mem_singleton] at hl
  rcases hl with (rfl | hl) | rfl
  · simp [headerLine, hnames.group group hgroup, lineFeed_notMem_toDigits]
  · obtain ⟨id, hid, isLast, hl⟩ := exists_of_mem_branchLines hl
    rcases mem_fileLines.mp hl with rfl | ⟨e, he, rfl⟩
    · obtain ⟨n, hn, -, hlabel⟩ := hg.exists_node hgroup hid
      cases isLast <;> simp [fileLine, hlabel, hnames.label n hn]
    · have htarget := hnames.target e (List.mem_of_mem_filter he)
      have hkind : '\n' ∉ e.kind.name.toList := by cases e.kind <;> decide
      cases isLast <;> simp [arrowLine, htarget, hkind]
  · decide

theorem lines_tree (hg : g.IsGrouped) (hnames : StaysInLine g) :
    lines (tree .plain g) = treeLines .plain g := by
  apply lines_unlines
  intro l hl
  rw [treeLines, List.mem_append] at hl
  rcases hl with hl | hl
  · obtain ⟨group, hgroup, hl⟩ := List.mem_flatMap.mp hl
    exact lineFeed_notMem_groupLines hg hnames hgroup l hl
  · split at hl
    · obtain rfl := List.mem_singleton.mp hl
      decide
    · cases hl

/-! ## Counting -/

theorem countP_treeLines_isFileLine (hg : g.IsGrouped) :
    (entryLines (treeLines .plain g)).countP isFileLine = g.nodes.length := by
  calc (entryLines (treeLines .plain g)).countP isFileLine
      = (g.folderGroups.flatMap FolderGroup.fileIds).length := by
        rw [entryLines_treeLines, List.countP_flatMap, List.length_flatMap]
        simp only [Function.comp_def, countP_branchLines_isFileLine]
    _ = g.ids.length := hg.perm_ids.length_eq
    _ = g.nodes.length := List.length_map _

theorem countP_treeLines_isArrowLine (hg : g.IsGrouped) :
    (entryLines (treeLines .plain g)).countP isArrowLine = g.edges.length := by
  calc (entryLines (treeLines .plain g)).countP isArrowLine
      = ((g.folderGroups.flatMap FolderGroup.fileIds).flatMap g.edgesFrom).length := by
        rw [entryLines_treeLines, List.countP_flatMap, List.flatMap_assoc, List.length_flatMap]
        simp only [Function.comp_def, countP_branchLines_isArrowLine]
    _ = g.edges.length := hg.perm_edges.length_eq

/-- A listing of all nodes and all edges of a graph, with nothing shown twice. -/
structure ShowsAllOnce (g : FileGraph) (text : String) : Prop where
  blocks : ∃ blocks, List.Forall₂ (ShowsGroup g) g.folderGroups blocks ∧
    lines text = blocks.flatten ++
      if g.nodes = [] then ["No JavaScript/TypeScript files found."] else []
  nodes_once : (g.folderGroups.flatMap FolderGroup.fileIds).Perm g.ids ∧ g.ids.Nodup
  edges_once : ((g.folderGroups.flatMap FolderGroup.fileIds).flatMap fun id =>
    g.edges.filter (·.source = id)).Perm g.edges
  /-- The text has as many lines of files as there are nodes. -/
  countP_isFileLine : (entryLines (lines text)).countP isFileLine = g.nodes.length
  countP_isArrowLine : (entryLines (lines text)).countP isArrowLine = g.edges.length
  noFiles_iff : "No JavaScript/TypeScript files found." ∈ lines text ↔ g.nodes = []

theorem showsAllOnce_tree (hg : g.IsGrouped) (hnames : StaysInLine g) :
    ShowsAllOnce g (tree .plain g) := by
  have hlines := lines_tree hg hnames
  constructor
  · refine ⟨g.folderGroups.map (groupLines .plain g), ?_, ?_⟩
    · apply List.forall₂_map_right_iff.mpr
      apply List.forall₂_same.mpr
      exact fun group hgroup => showsGroup_groupLines hg hgroup
    · rw [hlines, treeLines, List.flatMap_def]
      simp only [List.isEmpty_iff]
      rfl
  · exact ⟨hg.perm_ids, hg.ids_nodup⟩
  · exact hg.perm_edges
  · rw [hlines]
    exact countP_treeLines_isFileLine hg
  · rw [hlines]
    exact countP_treeLines_isArrowLine hg
  · rw [hlines]
    exact noFilesLine_mem_treeLines_iff g

end Render

/-! ## Listings of builds -/

theorem lineFeed_notMem_folderKey {path : String} (hpath : '\n' ∉ path.toList) :
    '\n' ∉ (folderKey path).toList := by
  rcases isKeyOf_iff.mpr (rfl : folderKey path = folderKey path) with ⟨name, heq, -⟩ | ⟨-, heq⟩
  · intro hmem
    apply hpath
    rw [heq, String.toList_append, String.toList_append]
    exact List.mem_append_left _ (List.mem_append_left _ hmem)
  · rw [heq]
    decide

theorem lineFeed_notMem_lastSegment {path : String} (hpath : '\n' ∉ path.toList) :
    '\n' ∉ (Path.lastSegment path).toList := by
  obtain ⟨front, hfront⟩ := exists_append_afterLast Path.isSlash path.toList
  rw [hfront] at hpath
  rw [Path.lastSegment, String.toList_ofList]
  exact fun hmem => hpath (List.mem_append_right _ hmem)

namespace GraphBuilder

variable {b : GraphBuilder} {host : Host} {root : String} {scope : Option String}
  {files : List String} {g : FileGraph}

theorem isGrouped_graphOf (hfiles : files.Nodup) : (b.graphOf host root files).IsGrouped := by
  have hg : b.Assembles host root files (b.graphOf host root files) := assembles_graphOf hfiles
  refine ⟨hg.ids_nodup, ?_, fun e he => (hg.closed e he).1⟩
  rw [ids_graphOf]
  exact FolderGroup.perm_ofPaths files

theorem staysInLine_graphOf (hfiles : files.Nodup)
    (hpaths : ∀ n ∈ (b.graphOf host root files).nodes, '\n' ∉ n.path.toList) :
    Render.StaysInLine (b.graphOf host root files) := by
  have hpath : ∀ path ∈ files, '\n' ∉ path.toList := fun path hpath =>
    hpaths (FileNode.ofPath path) (List.mem_map_of_mem hpath)
  constructor
  · intro group hgroup
    obtain ⟨path, hmem, rfl⟩ := FolderGroup.mem_ofPaths.mp hgroup
    exact lineFeed_notMem_folderKey (hpath path hmem)
  · intro n hn
    obtain ⟨path, hmem, rfl⟩ := List.mem_map.mp hn
    exact lineFeed_notMem_lastSegment (hpath path hmem)
  · intro e he
    have hg : b.Assembles host root files (b.graphOf host root files) := assembles_graphOf hfiles
    have htarget := (hg.closed e he).2
    rw [ids_graphOf] at htarget
    exact hpath e.target htarget

/-- The listing of any build whose paths stay in their lines shows each node and each edge once. -/
theorem showsAllOnce_of_buildFromRoot (hroot : host.root.WellFormed)
    (hg : (b.buildFromRoot host root scope).value = .ok g)
    (hpaths : ∀ n ∈ g.nodes, '\n' ∉ n.path.toList) :
    Render.ShowsAllOnce g (Render.tree .plain g) := by
  obtain ⟨hfolder, files, hfiles, rfl⟩ := buildFromRoot_ok hg
  have hnodup := Discovery.nodup_of_discover hroot hfolder hfiles
  exact Render.showsAllOnce_tree (isGrouped_graphOf hnodup) (staysInLine_graphOf hnodup hpaths)

theorem showsAllOnce_sample : ∃ g,
    (sampleBuilder.buildFromRoot sampleHost "/repo" none).value = .ok g ∧
      g.ids = ["app.js", "big.js"] ∧ g.triples = [("app.js", "big.js", .importFrom)] ∧
      (∀ n ∈ g.nodes, '\n' ∉ n.path.toList) ∧
      Render.ShowsAllOnce g (Render.tree .plain g) := by
  have hg : (sampleBuilder.buildFromRoot sampleHost "/repo" none).value =
      .ok (sampleBuilder.graphOf sampleHost "/repo" ["app.js", "big.js"]) := by
    rw [value_buildFromRoot, if_pos (by cbv), discover_sample]
    rfl
  have hpaths : ∀ n ∈ (sampleBuilder.graphOf sampleHost "/repo" ["app.js", "big.js"]).nodes,
      '\n' ∉ n.path.toList := by
    intro n hn
    obtain ⟨path, hpath, rfl⟩ := List.mem_map.mp hn
    have hplain : ∀ path ∈ ["app.js", "big.js"], '\n' ∉ path.toList := by decide
    exact hplain path hpath
  exact ⟨_, hg, ids_graphOf _ _ _ _, (triples_graphOf _ _ _ _).trans triples_sample, hpaths,
    showsAllOnce_of_buildFromRoot (by decide) hg hpaths⟩

end GraphBuilder

end ImportAtlas
