import ImportAtlas.Proofs.Discovery.Order
import ImportAtlas.Proofs.Graph.Assembly

/-!
# Groups by folder

Each group holds the paths of one key in their order, and the groups stand in the order in which
their keys occur first. Every path keeps its place in its group as more paths are put in, so the
groups of any list are those of its keys.

The key of a path is its folder, and files that lie in none have the key `root`. A folder at the top
may have that name, too: its files and those in no folder share a group, and no others do.
-/

namespace ImportAtlas

open Text Host

variable {paths ks : List String} {path key : String}

/-! ## Keys -/

/-- The text before the last slash of a path, or `root` if it has none. -/
def IsKeyOf (key path : String) : Prop :=
  (∃ name, path = key ++ "/" ++ name ∧ '/' ∉ name.toList) ∨ '/' ∉ path.toList ∧ key = "root"

theorem isKeyOf_iff : IsKeyOf key path ↔ folderKey path = key := by
  rw [IsKeyOf, ← Path.directory?_eq_some_iff, ← Path.directory?_eq_none_iff, folderKey]
  cases Path.directory? path <;> simp [rootFolder, eq_comm]

/-- One path lies in no folder, the other in a folder whose name is the key of such paths. -/
def SharesRoot (path other : String) : Prop :=
  Path.directory? path = none ∧ Path.directory? other = some rootFolder

instance (path other : String) : Decidable (SharesRoot path other) :=
  inferInstanceAs (Decidable (_ ∧ _))

theorem folderKey_eq_iff {other : String} :
    folderKey path = folderKey other ↔
      Path.directory? path = Path.directory? other ∨ SharesRoot path other ∨
        SharesRoot other path := by
  rw [folderKey, folderKey, SharesRoot, SharesRoot]
  cases Path.directory? path <;> cases Path.directory? other <;> simp [eq_comm]

/-! ## First occurrences -/

theorem eraseDups_concat (xs : List String) (x : String) :
    (xs ++ [x]).eraseDups = if x ∈ xs then xs.eraseDups else xs.eraseDups ++ [x] := by
  have hone : [x].eraseDups = [x] := by simp [List.eraseDups_cons]
  rw [List.eraseDups_append, List.removeAll]
  split <;> simp [*]

/-- What occurs for the first time stays before what does so later. -/
theorem pairwise_idxOf_eraseDups (xs : List String) :
    xs.eraseDups.Pairwise fun x y => xs.idxOf x < xs.idxOf y := by
  induction xs using List.reverseRecOn with
  | nil => simp
  | append_singleton xs x ih =>
      have hkept : xs.eraseDups.Pairwise fun y z => (xs ++ [x]).idxOf y < (xs ++ [x]).idxOf z := by
        refine ih.imp_of_mem fun {y z} hy hz hyz => ?_
        rwa [List.idxOf_append_of_mem (List.mem_eraseDups.mp hy),
          List.idxOf_append_of_mem (List.mem_eraseDups.mp hz)]
      rw [eraseDups_concat]
      split
      next => exact hkept
      next hx =>
        refine List.pairwise_append.mpr ⟨hkept, List.pairwise_singleton _ _, fun y hy z hz => ?_⟩
        obtain rfl := List.mem_singleton.mp hz
        have hmem := List.mem_eraseDups.mp hy
        rw [List.idxOf_append_of_mem hmem, List.idxOf_append_of_notMem hx]
        exact Nat.lt_add_right _ (List.idxOf_lt_length_iff.mpr hmem)

namespace FolderGroup

/-- The keys of some paths in the order in which they occur first. -/
def keys (paths : List String) : List String := (paths.map folderKey).eraseDups

theorem mem_keys : key ∈ keys paths ↔ ∃ path ∈ paths, folderKey path = key := by
  rw [keys, List.mem_eraseDups, List.mem_map]

theorem pairwise_keys (paths : List String) :
    (keys paths).Pairwise fun k l =>
      (paths.map folderKey).idxOf k < (paths.map folderKey).idxOf l :=
  pairwise_idxOf_eraseDups _

theorem nodup_keys (paths : List String) : (keys paths).Nodup := by
  refine (pairwise_keys paths).imp fun {k l} hlt heq => ?_
  rw [heq] at hlt
  exact lt_irrefl _ hlt

theorem keys_concat (paths : List String) (path : String) :
    keys (paths ++ [path]) =
      if folderKey path ∈ keys paths then keys paths else keys paths ++ [folderKey path] := by
  rw [keys, List.map_append, List.map_singleton, eraseDups_concat]
  simp only [keys, List.mem_eraseDups]

/-! ## The group of a key -/

/-- The group of a key among some paths. -/
def ofKey (paths : List String) (key : String) : FolderGroup where
  id := key
  name := Path.lastSegment key
  path := key
  fileIds := paths.filter (folderKey · == key)

theorem ofKey_concat_self (paths : List String) (path : String) :
    ofKey (paths ++ [path]) (folderKey path) =
      { ofKey paths (folderKey path) with
        fileIds := (ofKey paths (folderKey path)).fileIds ++ [path] } := by
  simp [ofKey]

theorem ofKey_concat_of_ne (h : folderKey path ≠ key) :
    ofKey (paths ++ [path]) key = ofKey paths key := by
  simp [ofKey, h]

theorem map_ofKey_concat (h : folderKey path ∉ ks) :
    ks.map (ofKey (paths ++ [path])) = ks.map (ofKey paths) := by
  refine List.map_congr_left fun k hk => ofKey_concat_of_ne ?_
  rintro rfl
  exact h hk

/-- A path with a key that is there already goes to the end of the group of that key. -/
theorem insert_map_ofKey (hks : ks.Nodup) (h : folderKey path ∈ ks) :
    insert (ks.map (ofKey paths)) path = ks.map (ofKey (paths ++ [path])) := by
  induction ks with
  | nil => cases h
  | cons k ks ih =>
      obtain ⟨hk, hks⟩ := List.nodup_cons.mp hks
      rw [List.map_cons, List.map_cons, insert]
      by_cases heq : k = folderKey path
      · subst heq
        rw [if_pos (by simp [ofKey]), map_ofKey_concat hk, ofKey_concat_self]
      · rw [if_neg (by simpa [ofKey] using heq), ofKey_concat_of_ne (Ne.symm heq),
          ih hks ((List.mem_cons.mp h).resolve_left (Ne.symm heq))]

/-- A path with a new key opens a group at the end. -/
theorem insert_map_ofKey_of_notMem (h : folderKey path ∉ ks) :
    insert (ks.map (ofKey paths)) path =
      ks.map (ofKey (paths ++ [path])) ++ [single (folderKey path) path] := by
  induction ks with
  | nil => rfl
  | cons k ks ih =>
      obtain ⟨hk, hks⟩ := not_or.mp (List.mem_cons.not.mp h)
      rw [List.map_cons, List.map_cons, insert, if_neg (by simpa [ofKey] using Ne.symm hk),
        ofKey_concat_of_ne hk, ih hks, List.cons_append]

theorem ofKey_concat_of_notMem (h : folderKey path ∉ keys paths) :
    ofKey (paths ++ [path]) (folderKey path) = single (folderKey path) path := by
  have hnone : paths.filter (folderKey · == folderKey path) = [] := by
    rw [List.filter_eq_nil_iff]
    intro other hother heq
    exact h (mem_keys.mpr ⟨other, hother, eq_of_beq heq⟩)
  simp [ofKey, single, hnone]

/-- The groups of some paths are those of their keys. -/
theorem ofPaths_eq (paths : List String) : ofPaths paths = (keys paths).map (ofKey paths) := by
  induction paths using List.reverseRecOn with
  | nil => rfl
  | append_singleton paths path ih =>
      rw [ofPaths_append_singleton, ih, keys_concat]
      split
      next hold => exact insert_map_ofKey (nodup_keys paths) hold
      next hnew =>
        rw [insert_map_ofKey_of_notMem hnew, List.map_append, List.map_singleton,
          ofKey_concat_of_notMem hnew]

/-! ## Parts -/

theorem perm_insert (groups : List FolderGroup) (path : String) :
    ((insert groups path).flatMap fileIds).Perm (path :: groups.flatMap fileIds) := by
  induction groups with
  | nil => rfl
  | cons g gs ih =>
      rw [insert]
      split
      · rw [List.flatMap_cons, List.flatMap_cons, List.append_assoc]
        exact List.perm_middle
      · rw [List.flatMap_cons, List.flatMap_cons]
        exact (ih.append_left g.fileIds).trans List.perm_middle

theorem perm_ofPaths (paths : List String) : ((ofPaths paths).flatMap fileIds).Perm paths := by
  induction paths using List.reverseRecOn with
  | nil => rfl
  | append_singleton paths path ih =>
      rw [ofPaths_append_singleton]
      exact (perm_insert _ path).trans ((ih.cons path).trans (List.perm_append_singleton _ _).symm)

theorem mem_fileIds_ofKey :
    path ∈ (ofKey paths key).fileIds ↔ path ∈ paths ∧ folderKey path = key := by
  simp [ofKey]

theorem mem_ofPaths {g : FolderGroup} :
    g ∈ ofPaths paths ↔ ∃ path ∈ paths, ofKey paths (folderKey path) = g := by
  rw [ofPaths_eq, List.mem_map]
  constructor
  · rintro ⟨key, hkey, rfl⟩
    obtain ⟨path, hpath, rfl⟩ := mem_keys.mp hkey
    exact ⟨path, hpath, rfl⟩
  · rintro ⟨path, hpath, rfl⟩
    exact ⟨folderKey path, mem_keys.mpr ⟨path, hpath, rfl⟩, rfl⟩

/-- The groups part the paths by their keys and keep the order. -/
structure PartsByKey (paths : List String) (groups : List FolderGroup) : Prop where
  key : ∀ path ∈ paths, IsKeyOf (folderKey path) path
  ids_nodup : (groups.map FolderGroup.id).Nodup
  mem_ids_iff : ∀ key, key ∈ groups.map FolderGroup.id ↔ ∃ path ∈ paths, folderKey path = key
  /-- Groups stand in the order in which their keys occur first. -/
  first_occurrence : groups.Pairwise fun g h =>
    (paths.map folderKey).idxOf g.id < (paths.map folderKey).idxOf h.id
  fileIds_ne_nil : ∀ g ∈ groups, g.fileIds ≠ []
  fileIds : ∀ g ∈ groups, g.fileIds = paths.filter (folderKey · == g.id)
  /-- Each path is in one group as often as it is given. -/
  perm : (groups.flatMap FolderGroup.fileIds).Perm paths
  path : ∀ g ∈ groups, g.path = g.id
  name : ∀ g ∈ groups, (fields Path.isSlash g.id).getLast? = some g.name

theorem partsByKey_ofPaths (paths : List String) : PartsByKey paths (ofPaths paths) := by
  have hids : (ofPaths paths).map FolderGroup.id = keys paths := by
    rw [ofPaths_eq, List.map_map]
    exact List.map_id _
  refine
    { key := fun path _ => isKeyOf_iff.mpr rfl
      ids_nodup := hids ▸ nodup_keys paths
      mem_ids_iff := fun key => by rw [hids, mem_keys]
      first_occurrence := ?_
      fileIds_ne_nil := fun g hg => ?_
      fileIds := fun g hg => ?_
      perm := perm_ofPaths paths
      path := fun g hg => ?_
      name := fun g hg => ?_ }
  · rw [ofPaths_eq, List.pairwise_map]
    exact pairwise_keys paths
  · obtain ⟨path, hpath, rfl⟩ := mem_ofPaths.mp hg
    exact List.ne_nil_of_mem (mem_fileIds_ofKey.mpr ⟨hpath, rfl⟩)
  · obtain ⟨path, -, rfl⟩ := mem_ofPaths.mp hg
    rfl
  · obtain ⟨path, -, rfl⟩ := mem_ofPaths.mp hg
    rfl
  · obtain ⟨path, -, rfl⟩ := mem_ofPaths.mp hg
    exact Path.getLast?_fields _

theorem exists_mem_ofPaths_iff {other : String} (hpath : path ∈ paths) (hother : other ∈ paths) :
    (∃ g ∈ ofPaths paths, path ∈ g.fileIds ∧ other ∈ g.fileIds) ↔
      folderKey path = folderKey other := by
  constructor
  · rintro ⟨g, hg, hmem, hmem'⟩
    obtain ⟨member, -, rfl⟩ := mem_ofPaths.mp hg
    exact (mem_fileIds_ofKey.mp hmem).2.trans (mem_fileIds_ofKey.mp hmem').2.symm
  · intro h
    refine ⟨_, mem_ofPaths.mpr ⟨path, hpath, rfl⟩, ?_, ?_⟩
    · exact mem_fileIds_ofKey.mpr ⟨hpath, rfl⟩
    · exact mem_fileIds_ofKey.mpr ⟨hother, h.symm⟩

end FolderGroup

/-! ## Groups of a graph -/

namespace FileGraph

def SameGroup (g : FileGraph) (id other : String) : Prop :=
  ∃ group ∈ g.folderGroups, id ∈ group.fileIds ∧ other ∈ group.fileIds

end FileGraph

namespace GraphBuilder

variable {b : GraphBuilder} {host : Host} {root : String} {scope : Option String}
  {files : List String} {g : FileGraph}

theorem sameGroup_graphOf_iff {m n : FileNode} (hm : m ∈ (b.graphOf host root files).nodes)
    (hn : n ∈ (b.graphOf host root files).nodes) :
    (b.graphOf host root files).SameGroup m.id n.id ↔
      Path.directory? m.path = Path.directory? n.path ∨ SharesRoot m.path n.path ∨
        SharesRoot n.path m.path := by
  obtain ⟨path, hpath, rfl⟩ := List.mem_map.mp hm
  obtain ⟨other, hother, rfl⟩ := List.mem_map.mp hn
  exact (FolderGroup.exists_mem_ofPaths_iff hpath hother).trans folderKey_eq_iff

/-- How the groups of a graph go with the folders of its files. -/
structure GroupsFolders (scope : Option String) (g : FileGraph) : Prop where
  sameGroup_iff : ∀ m ∈ g.nodes, ∀ n ∈ g.nodes, g.SameGroup m.id n.id ↔
    Path.directory? m.path = Path.directory? n.path ∨ SharesRoot m.path n.path ∨
      SharesRoot n.path m.path
  /-- The groups are the folders exactly if no file is in the folder `root` while another is in
  none. -/
  faithful_iff : (∀ m ∈ g.nodes, ∀ n ∈ g.nodes,
      g.SameGroup m.id n.id ↔ Path.directory? m.path = Path.directory? n.path) ↔
    ∀ m ∈ g.nodes, ∀ n ∈ g.nodes, ¬ SharesRoot m.path n.path
  /-- That is so wherever the scope names a folder, since no file of the graph is in none then. -/
  limited : ∀ segs, Discovery.scopeFolders? scope = some segs → segs ≠ [] →
    ∀ m ∈ g.nodes, Path.directory? m.path ≠ none

theorem groupsFolders_of_buildFromRoot (hroot : host.root.WellFormed)
    (hg : (b.buildFromRoot host root scope).value = .ok g) : GroupsFolders scope g := by
  obtain ⟨hrepo, files, hfiles, rfl⟩ := buildFromRoot_ok hg
  have hsame {m n : FileNode} (hm : m ∈ (b.graphOf host root files).nodes)
      (hn : n ∈ (b.graphOf host root files).nodes) := sameGroup_graphOf_iff hm hn
  refine
    { sameGroup_iff := fun m hm n hn => hsame hm hn
      faithful_iff := ?_
      limited := fun segs hsegs hne m hm => ?_ }
  · constructor
    · intro hfaithful m hm n hn hshared
      have hfolders := (hfaithful m hm n hn).mp ((hsame hm hn).mpr (Or.inr (Or.inl hshared)))
      rw [hshared.1, hshared.2] at hfolders
      cases hfolders
    · intro hnone m hm n hn
      rw [hsame hm hn, or_iff_left (not_or.mpr ⟨hnone m hm n hn, hnone n hn m hm⟩)]
  · obtain ⟨segs', hsegs', hstart, rfl⟩ := Discovery.discover_ok hroot hrepo hfiles
    rw [hsegs, Option.some.injEq] at hsegs'
    subst hsegs'
    obtain ⟨path, hpath, rfl⟩ := List.mem_map.mp hm
    exact Path.directory?_ne_none (Discovery.liesIn_of_mem_listing hroot hne hstart hpath)

/-! ### A folder that is named like the group of the files without one -/

def namesakeEntries : List (String × Entry) :=
  [("a.js", .file ⟨#[]⟩), ("lib", .folder [("c.js", .file ⟨#[]⟩)]),
    ("root", .folder [("b.js", .file ⟨#[]⟩)])]

def namesakeHost : Host := ⟨.folder [("repo", .folder namesakeEntries)], []⟩

def namesakeBuilder : GraphBuilder where
  reader := fun _ _ => pure (.ok [])

theorem resolve_namesake :
    namesakeHost.resolve "/repo" = .ok ⟨["repo"], .folder namesakeEntries⟩ := by cbv

theorem discover_namesake :
    (namesakeBuilder.discovery.discover namesakeHost "/repo" none).value =
      .ok ["a.js", "lib/c.js", "root/b.js"] := by
  have hmet : Walk.sightings Exclusions.standard [] (.folder namesakeEntries) =
      [.file ["a.js"], .file ["lib", "c.js"], .file ["root", "b.js"]] := by
    rw [Walk.sightings_of_sorted (by decide)]
    simp (disch := decide) [namesakeEntries, Walk.sightingsAt, Walk.sightings_of_sorted,
      Entry.isFolder, Exclusions.standard]
  rw [Discovery.discover_whole (by decide) resolve_namesake,
    Discovery.listing_of_resolve rfl resolve_namesake,
    show namesakeBuilder.discovery.excluded = Exclusions.standard from rfl, hmet]
  cbv

/-- Two files of different folders share a group, others do not. -/
theorem groupsFolders_namesake : ∃ g,
    (namesakeBuilder.buildFromRoot namesakeHost "/repo" none).value = .ok g ∧
      g.SameGroup "a.js" "root/b.js" ∧
      Path.directory? "a.js" ≠ Path.directory? "root/b.js" ∧
      ¬ g.SameGroup "a.js" "lib/c.js" ∧ ¬ g.SameGroup "lib/c.js" "root/b.js" := by
  have hg : (namesakeBuilder.buildFromRoot namesakeHost "/repo" none).value =
      .ok (namesakeBuilder.graphOf namesakeHost "/repo" ["a.js", "lib/c.js", "root/b.js"]) := by
    rw [value_buildFromRoot, if_pos (by cbv), discover_namesake]
    rfl
  have hgroups := groupsFolders_of_buildFromRoot (by decide) hg
  have hnode {path : String} (hpath : path ∈ ["a.js", "lib/c.js", "root/b.js"]) :
      FileNode.ofPath path ∈
        (namesakeBuilder.graphOf namesakeHost "/repo" ["a.js", "lib/c.js", "root/b.js"]).nodes :=
    List.mem_map_of_mem hpath
  have htop : FileNode.ofPath "a.js" ∈ _ := hnode (by decide)
  have hlib : FileNode.ofPath "lib/c.js" ∈ _ := hnode (by decide)
  have hfolder : FileNode.ofPath "root/b.js" ∈ _ := hnode (by decide)
  refine ⟨_, hg, ?_, by decide, ?_, ?_⟩
  · exact (hgroups.sameGroup_iff _ htop _ hfolder).mpr (by decide)
  · exact (hgroups.sameGroup_iff _ htop _ hlib).not.mpr (by decide)
  · exact (hgroups.sameGroup_iff _ hlib _ hfolder).not.mpr (by decide)

end GraphBuilder

end ImportAtlas
