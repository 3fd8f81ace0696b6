import ImportAtlas.Proofs.Graph.Assembly

/-!
# Excluded folders

A walk enters no folder with an excluded name, whether it follows links or not. The folder it starts
from is not asked for its name, and neither are those above it: so the files of a graph lie in
excluded folders exactly if the scope leads through one.
-/

namespace ImportAtlas

open Text Host

namespace Exclusions

variable {names extra : List String} {n : String}

theorem mem_add_iff {name : String} :
    n ∈ add names name ↔ n ∈ names ∨ n ≠ "" ∧ n = trimName name := by
  unfold add
  by_cases hold : (trimName name == "" || names.contains (trimName name)) = true
  · rw [if_pos hold]
    rw [Bool.or_eq_true, beq_iff_eq, List.contains_iff_mem] at hold
    constructor
    · exact Or.inl
    · rintro (hn | ⟨hne, rfl⟩)
      · exact hn
      · exact hold.resolve_left hne
  · rw [if_neg hold, List.mem_append, List.mem_singleton]
    rw [Bool.or_eq_true, not_or, beq_iff_eq] at hold
    constructor
    · rintro (hn | rfl)
      · exact Or.inl hn
      · exact Or.inr ⟨hold.1, rfl⟩
    · rintro (hn | ⟨_, hn⟩)
      · exact Or.inl hn
      · exact Or.inr hn

theorem mem_foldl_add_iff :
    n ∈ extra.foldl add names ↔ n ∈ names ∨ n ≠ "" ∧ n ∈ extra.map trimName := by
  induction extra generalizing names with
  | nil => simp
  | cons name rest ih =>
      rw [List.foldl_cons, ih, mem_add_iff, List.map_cons, List.mem_cons, or_assoc, and_or_left]

/-- The names that are kept out: the standard ones and, trimmed, those asked for besides. -/
def asked (extra : List String) : List String := standard ++ extra.map trimName

theorem mem_withExtra_iff (hn : n ≠ "") : n ∈ withExtra extra ↔ n ∈ asked extra := by
  rw [withExtra, mem_foldl_add_iff, asked, List.mem_append, and_iff_right hn]

end Exclusions

namespace Walk

variable {excluded path : List String} {met : List Sighting}
  {xs : List (String × List Sighting)} {host : Host} {start name : String}

/-- No folder below `path` that a file is met in has an excluded name. -/
def Prunes (excluded path : List String) (met : List Sighting) : Prop :=
  ∀ place, .file place ∈ met → ∃ rest, place = path ++ rest ∧ ∀ n ∈ rest.dropLast, n ∉ excluded

theorem prunes_nil : Prunes excluded path [] := by
  intro place hplace
  exact absurd hplace List.not_mem_nil

theorem prunes_excluded (place : List String) : Prunes excluded path [.excluded place] := by
  intro p hp
  cases List.mem_singleton.mp hp

theorem prunes_failed (place : List String) (reason : WalkFailure) :
    Prunes excluded path [.failed place reason] := by
  intro p hp
  cases List.mem_singleton.mp hp

theorem prunes_file (name : String) : Prunes excluded path [.file (path ++ [name])] := by
  intro place hplace
  cases List.mem_singleton.mp hplace
  exact ⟨[name], rfl, by simp⟩

theorem prunes_inOrder (h : ∀ x ∈ xs, Prunes excluded path x.2) :
    Prunes excluded path (inOrder xs) := by
  intro place hplace
  obtain ⟨x, hx, hmet⟩ := mem_inOrder.mp hplace
  exact h x hx place hmet

theorem Prunes.of_entered (hname : name ∉ excluded) (h : Prunes excluded (path ++ [name]) met) :
    Prunes excluded path met := by
  intro place hplace
  obtain ⟨rest, rfl, hrest⟩ := h place hplace
  refine ⟨name :: rest, by simp, ?_⟩
  cases rest with
  | nil => simp
  | cons m more =>
      rw [List.dropLast_cons_cons, List.forall_mem_cons]
      exact ⟨hname, hrest⟩

theorem prunes_enter {depth : Nat} {chain : List Opened} {place : List String}
    (h : ∀ chain place path,
      Prunes excluded path (sightingsFollowing excluded host start depth chain place path)) :
    Prunes excluded path
      (sightingsFollowing.enter excluded host start depth chain place (path ++ [name]) name) := by
  rw [sightingsFollowing.enter]
  split
  · exact prunes_excluded _
  next hname =>
    rw [List.contains_iff_mem] at hname
    exact (h _ _ _).of_entered hname

theorem prunes_visit {depth : Nat} {chain : List Opened} {place : List String} (e : Entry)
    (h : ∀ chain place path,
      Prunes excluded path (sightingsFollowing excluded host start depth chain place path)) :
    Prunes excluded path
      (sightingsFollowing.visit excluded host start depth chain place path name e) := by
  cases e with
  | file c =>
      rw [sightingsFollowing.visit]
      exact prunes_file name
  | folder es =>
      rw [sightingsFollowing.visit]
      exact prunes_enter h
  | link target =>
      rw [sightingsFollowing.visit]
      split
      · exact prunes_failed _ _
      · exact prunes_file name
      · exact prunes_nil
      · split
        · exact prunes_failed _ _
        · exact prunes_enter h

theorem prunes_sightingsFollowing (excluded : List String) (host : Host) (start : String)
    (depth : Nat) (chain : List Opened) (place path : List String) :
    Prunes excluded path (sightingsFollowing excluded host start depth chain place path) := by
  induction depth generalizing chain place path with
  | zero =>
      rw [sightingsFollowing]
      exact prunes_nil
  | succ depth ih =>
      rw [sightingsFollowing]
      apply prunes_inOrder
      intro x hx
      obtain ⟨⟨name, e⟩, _, rfl⟩ := List.mem_map.mp hx
      exact prunes_visit e ih

theorem prunes_run {place : List String} {es : List (String × Entry)} (excluded : List String)
    (hroot : host.root.WellFormed) (h : host.resolve start = .ok ⟨place, .folder es⟩)
    (followLinks : Bool) : Prunes excluded [] (run excluded host start followLinks) := by
  cases followLinks with
  | true =>
      rw [run_true h]
      exact prunes_sightingsFollowing _ _ _ _ _ _ _
  | false =>
      rw [run_false h]
      intro p hp
      obtain ⟨below, hbelow, hadmits⟩ :=
        (file_mem_sightings_iff (hroot.of_at? (at?_of_resolve h)).1).mp hp
      exact ⟨below, hbelow, hadmits.2⟩

end Walk

namespace GraphBuilder

variable {b : GraphBuilder} {host : Host} {root : String} {scope : Option String}
  {segs extra : List String} {g : FileGraph}

/-- The folders of a file's path. -/
def foldersOf (path : String) : List String := (Path.segments path).dropLast

/-- The folder of the scope apart, no file of a graph lies in a folder with one of the names. -/
structure Excludes (names segs : List String) (g : FileGraph) : Prop where
  below : ∀ n ∈ g.nodes, ∃ folders, foldersOf n.path = segs ++ folders ∧ ∀ s ∈ folders, s ∉ names
  /-- The scope is the only way into a folder with one of the names. -/
  none_iff : (∀ n ∈ g.nodes, ∀ s ∈ foldersOf n.path, s ∉ names) ↔
    g.nodes = [] ∨ ∀ s ∈ segs, s ∉ names

theorem foldersOf_of_mem_listing (hroot : host.root.WellFormed) (hsegs : ∀ s ∈ segs, IsSegment s)
    (hstart : host.isFolder (Location.joinAll root segs) = true) {path : String}
    (hpath : path ∈ b.discovery.listing host root segs) :
    ∃ folders, foldersOf path = segs ++ folders ∧
      ∀ s ∈ folders, s ≠ "" ∧ s ∉ b.discovery.excluded := by
  obtain ⟨place, es, hres⟩ := isFolder_iff.mp hstart
  obtain ⟨below, hbelow, rfl⟩ := List.mem_map.mp hpath
  have hmet := Walk.spreadInside_run b.discovery.excluded hroot hres b.discovery.followLinks
  obtain ⟨hne, hplain⟩ := Discovery.plain_of_mem_sourcePaths hmet hbelow
  have hall : ∀ s ∈ segs ++ below, IsSegment s :=
    List.forall_mem_append.mpr ⟨hsegs, fun n hn => (hplain n hn).toIsSegment⟩
  obtain ⟨rest, hrest, hpruned⟩ := Walk.prunes_run b.discovery.excluded hroot hres
    b.discovery.followLinks below (Discovery.mem_sourcePaths hbelow)
  rw [List.nil_append] at hrest
  subst hrest
  refine ⟨below.dropLast, ?_, fun s hs => ⟨?_, hpruned s hs⟩⟩
  · rw [foldersOf, Path.segments_joinFields (by simp [hne]) hall,
      List.dropLast_append_of_ne_nil hne]
  · exact (hplain s (List.dropLast_subset _ hs)).ne_empty

/-- Whatever the tree, the scope and the names asked for, and whether links are followed or not, a
graph's files lie in excluded folders only if the scope leads through one. -/
theorem excludes_of_buildFromRoot (hroot : host.root.WellFormed)
    (hextra : b.discovery.excluded = Exclusions.withExtra extra)
    (hg : (b.buildFromRoot host root scope).value = .ok g) :
    ∃ segs, Discovery.scopeFolders? scope = some segs ∧
      Excludes (Exclusions.asked extra) segs g := by
  obtain ⟨hrepo, files, hfiles, rfl⟩ := buildFromRoot_ok hg
  obtain ⟨segs, hscope, hstart, rfl⟩ := Discovery.discover_ok hroot hrepo hfiles
  have hbelow : ∀ n ∈ (b.graphOf host root (b.discovery.listing host root segs)).nodes,
      ∃ folders, foldersOf n.path = segs ++ folders ∧
        ∀ s ∈ folders, s ∉ Exclusions.asked extra := by
    intro n hn
    obtain ⟨path, hpath, rfl⟩ := List.mem_map.mp hn
    obtain ⟨folders, hfolders, hkept⟩ := foldersOf_of_mem_listing hroot
      (Discovery.isSegment_of_scopeFolders? hscope) hstart hpath
    refine ⟨folders, hfolders, fun s hs hasked => ?_⟩
    obtain ⟨hne, hout⟩ := hkept s hs
    rw [hextra, Exclusions.mem_withExtra_iff hne] at hout
    exact hout hasked
  refine ⟨segs, hscope, hbelow, ?_⟩
  constructor
  · intro hnone
    rw [or_iff_not_imp_left]
    intro hnodes s hs
    obtain ⟨n, hn⟩ := List.exists_mem_of_ne_nil _ hnodes
    obtain ⟨folders, hfolders, _⟩ := hbelow n hn
    apply hnone n hn
    rw [hfolders]
    exact List.mem_append_left _ hs
  · rintro (hnodes | hsegs) n hn s hs
    · rw [hnodes] at hn
      exact absurd hn List.not_mem_nil
    · obtain ⟨folders, hfolders, hkept⟩ := hbelow n hn
      rw [hfolders] at hs
      rcases List.mem_append.mp hs with hs | hs
      · exact hsegs s hs
      · exact hkept s hs

/-! ### A scope that names an excluded folder -/

def vendorEntries : List (String × Entry) :=
  [("dist", .folder [("out.js", .file ⟨#[0x3b]⟩)]),
    ("lib", .folder [("query.js", .file ⟨#[0x3b]⟩)])]

def vendorHost : Host :=
  ⟨.folder [("repo", .folder [("app.js", .file ⟨#[0x3b]⟩), ("vendor", .folder vendorEntries)])], []⟩

def vendorBuilder : GraphBuilder where
  discovery := { excluded := Exclusions.withExtra [" vendor/ "] }
  reader := fun _ _ => pure (.ok [])

theorem resolve_vendor_repo : vendorHost.resolve "/repo" =
    .ok ⟨["repo"], .folder [("app.js", .file ⟨#[0x3b]⟩), ("vendor", .folder vendorEntries)]⟩ := by
  cbv

theorem resolve_vendor : vendorHost.resolve (Location.joinAll "/repo" ["vendor"]) =
    .ok ⟨["repo", "vendor"], .folder vendorEntries⟩ := by
  have hplain : ∀ n ∈ ["vendor"], IsEntryName n := by decide
  exact (resolve_joinAll_at resolve_vendor_repo hplain rfl (by simp)).trans (if_pos (by decide))

theorem scopeFolders?_vendor : Discovery.scopeFolders? (some "/vendor") = some ["vendor"] := by
  rw [Discovery.scopeFolders?, Scope.folders?, String.contains_char_eq]
  decide

theorem listing_vendor : vendorBuilder.discovery.listing vendorHost "/repo" ["vendor"] =
    ["vendor/lib/query.js"] := by
  have hnames : vendorBuilder.discovery.excluded = Exclusions.standard ++ ["vendor"] := by decide
  have hmet : Walk.sightings (Exclusions.standard ++ ["vendor"]) [] (.folder vendorEntries) =
      [.excluded ["dist"], .file ["lib", "query.js"]] := by
    rw [Walk.sightings_of_sorted (by decide)]
    simp (disch := decide) [vendorEntries, Walk.sightingsAt, Walk.sightings_of_sorted,
      Entry.isFolder, Exclusions.standard]
  rw [Discovery.listing_of_resolve rfl resolve_vendor, hnames, hmet]
  cbv

theorem buildFromRoot_vendor :
    (vendorBuilder.buildFromRoot vendorHost "/repo" (some "/vendor")).value =
      .ok (vendorBuilder.graphOf vendorHost "/repo" ["vendor/lib/query.js"]) := by
  have hrepo : vendorHost.isFolder "/repo" = true := isFolder_iff.mpr ⟨_, _, resolve_vendor_repo⟩
  have hstart := isFolder_iff.mpr ⟨_, _, resolve_vendor⟩
  rw [value_buildFromRoot_of_isFolder (by decide) hrepo scopeFolders?_vendor hstart, listing_vendor]

theorem excludes_vendor :
    (vendorBuilder.buildFromRoot vendorHost "/repo" (some "/vendor")).value =
        .ok (vendorBuilder.graphOf vendorHost "/repo" ["vendor/lib/query.js"]) ∧
      ∃ segs, Discovery.scopeFolders? (some "/vendor") = some segs ∧
        Excludes (Exclusions.asked [" vendor/ "]) segs
          (vendorBuilder.graphOf vendorHost "/repo" ["vendor/lib/query.js"]) :=
  ⟨buildFromRoot_vendor, excludes_of_buildFromRoot (by decide) rfl buildFromRoot_vendor⟩

/-- A scope can lead into an excluded folder. -/
theorem not_excludes_scope : ¬ ∀ (b : GraphBuilder) (host : Host) (root : String)
    (scope : Option String) (extra : List String) (g : FileGraph), host.root.WellFormed →
    b.discovery.excluded = Exclusions.withExtra extra →
    (b.buildFromRoot host root scope).value = .ok g →
    ∀ n ∈ g.nodes, ∀ s ∈ foldersOf n.path, s ∉ Exclusions.asked extra := by
  intro hclaim
  have hkept := hclaim vendorBuilder vendorHost "/repo" (some "/vendor") [" vendor/ "] _
    (by decide) rfl buildFromRoot_vendor (FileNode.ofPath "vendor/lib/query.js") List.mem_cons_self
  exact hkept "vendor" (by decide) (by decide)

end GraphBuilder

end ImportAtlas
