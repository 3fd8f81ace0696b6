import ImportAtlas.Proofs.Graph.Assembly

/-!
# Where the files of a graph really are

A walk that follows no links stays below the real place of the folder it starts from. So a graph
holds files of the repository alone if that folder really lies in the repository. The folder of a
scope need not: it is looked up with all links followed.
-/

namespace ImportAtlas.GraphBuilder

open Text Host

variable {b : GraphBuilder} {host : Host} {root : String} {scope : Option String}
  {segs repo : List String} {r q : Found} {g : FileGraph}

/-- Each file of a graph that a lookup finds lies in the repository, all links followed. -/
def Confined (host : Host) (root : String) (repo : List String) (g : FileGraph) : Prop :=
  ∀ n ∈ g.nodes, ∀ f, host.resolve (Location.join root n.path) = .ok f → repo <+: f.place

/-- Real folders lead from `q`, the folder of the scope, to the file that is listed as `path`. -/
def ReachedFrom (b : GraphBuilder) (host : Host) (root : String) (segs : List String) (q : Found)
    (path : String) : Prop :=
  ∃ names c, path = joinFields '/' (segs ++ names) ∧ names ≠ [] ∧
    q.entry.at? names = some (.file c) ∧ (∀ m ∈ names.dropLast, m ∉ b.discovery.excluded) ∧
    host.resolve (Location.join root path) =
      if Fits (Location.join root path) names then .ok ⟨q.place ++ names, .file c⟩
      else .error .nameTooLong

theorem ReachedFrom.place {path : String} {f : Found} (h : b.ReachedFrom host root segs q path)
    (hf : host.resolve (Location.join root path) = .ok f) : q.place <+: f.place := by
  obtain ⟨names, c, _, _, _, _, hres⟩ := h
  rw [hres] at hf
  split at hf
  · rw [← Except.ok.inj hf]
    exact List.prefix_append q.place names
  · cases hf

theorem reachedFrom_of_mem_listing (hroot : host.root.WellFormed)
    (hlinks : b.discovery.followLinks = false) (hbase : root ≠ "") (hsegs : ∀ s ∈ segs, IsSegment s)
    {place : List String} {ds : List (String × Entry)}
    (hq : host.resolve (Location.joinAll root segs) = .ok ⟨place, .folder ds⟩) {path : String}
    (hpath : path ∈ b.discovery.listing host root segs) :
    b.ReachedFrom host root segs ⟨place, .folder ds⟩ path := by
  have hds : (Entry.folder ds).WellFormed := (hroot.of_at? (at?_of_resolve hq)).1
  rw [Discovery.listing_of_resolve hlinks hq] at hpath
  obtain ⟨names, hnames, rfl⟩ := List.mem_map.mp hpath
  obtain ⟨hne, hplain⟩ := Discovery.plain_of_mem_sourcePaths
    (Walk.spreadInside_sightings b.discovery.excluded hds []) hnames
  obtain ⟨below, hbelow, ⟨c, hat⟩, hadmitted⟩ :=
    (Walk.file_mem_sightings_iff hds).mp (Discovery.mem_sourcePaths hnames)
  rw [List.nil_append] at hbelow
  subst hbelow
  have hall : ∀ s ∈ segs ++ names, IsSegment s :=
    List.forall_mem_append.mpr ⟨hsegs, fun n hn => (hplain n hn).toIsSegment⟩
  have hjoin : Location.join root (joinFields '/' (segs ++ names)) =
      Location.joinAll (Location.joinAll root segs) names := by
    rw [← Location.joinAll_eq_join hbase (by simp [hne]) hall, Location.joinAll_append]
  refine ⟨names, c, rfl, hne, hat, hadmitted, ?_⟩
  rw [hjoin]
  exact resolve_joinAll_at hq hplain hat (by simp)

theorem place_of_at? (hroot : host.root.WellFormed) (hr : host.resolve root = .ok r)
    (hq : host.resolve (Location.joinAll root segs) = .ok q) (hat : r.entry.at? segs = some q.entry)
    (hfolder : q.entry.isFolder = true) : q.place = r.place ++ segs := by
  have hplain := ((hroot.of_at? (at?_of_resolve hr)).1.of_at? hat).2
  rw [resolve_joinAll_at hr hplain hat] at hq
  · split at hq
    · rw [← Except.ok.inj hq]
    · cases hq
  · rintro target hlink
    simp [hlink, Entry.isFolder] at hfolder

/-- What the place `q` of a scope's folder says about a graph of the repository at `r`. -/
structure ListedFrom (b : GraphBuilder) (host : Host) (root : String) (r : Found)
    (segs : List String) (q : Found) (g : FileGraph) : Prop where
  nodes : ∀ n ∈ g.nodes, b.ReachedFrom host root segs q n.path
  /-- The folder may be outside of the repository only above it, and only if all the files that are
  found below it are in the repository again. -/
  confined_iff : Confined host root r.place g ↔ r.place <+: q.place ∨
    ∀ n ∈ g.nodes, ∀ f, host.resolve (Location.join root n.path) = .ok f →
      q.place <+: r.place ∧ r.place <+: f.place
  place_of_whole : segs = [] → q = r
  place_of_no_link : r.entry.at? segs = some q.entry → q.place = r.place ++ segs

/-- Where a build that follows no links finds its files, whatever links there are. -/
theorem listedFrom_of_buildFromRoot (hroot : host.root.WellFormed)
    (hlinks : b.discovery.followLinks = false) (hr : host.resolve root = .ok r)
    (hg : (b.buildFromRoot host root scope).value = .ok g) :
    ∃ segs q, Discovery.scopeFolders? scope = some segs ∧
      host.resolve (Location.joinAll root segs) = .ok q ∧ b.ListedFrom host root r segs q g := by
  obtain ⟨hrepo, files, hfiles, rfl⟩ := buildFromRoot_ok hg
  obtain ⟨segs, hscope, hstart, rfl⟩ := Discovery.discover_ok hroot hrepo hfiles
  obtain ⟨place, ds, hq⟩ := isFolder_iff.mp hstart
  have hreached : ∀ n ∈ (b.graphOf host root (b.discovery.listing host root segs)).nodes,
      b.ReachedFrom host root segs ⟨place, .folder ds⟩ n.path := by
    intro n hn
    obtain ⟨path, hpath, rfl⟩ := List.mem_map.mp hn
    exact reachedFrom_of_mem_listing hroot hlinks (Discovery.ne_empty_of_isFolder hrepo)
      (Discovery.isSegment_of_scopeFolders? hscope) hq hpath
  refine ⟨segs, _, hscope, hq,
    { nodes := hreached
      confined_iff := ⟨fun hconfined => ?_, fun hplace n hn f hf => ?_⟩
      place_of_whole := ?_
      place_of_no_link := fun hat => place_of_at? hroot hr hq hat rfl }⟩
  · rw [or_iff_not_imp_left]
    intro houtside n hn f hf
    have hin := hconfined n hn f hf
    have hcomparable := List.prefix_or_prefix_of_prefix hin ((hreached n hn).place hf)
    exact ⟨hcomparable.resolve_left houtside, hin⟩
  · rcases hplace with hplace | hback
    · exact hplace.trans ((hreached n hn).place hf)
    · exact (hback n hn f hf).2
  · rintro rfl
    rw [Location.joinAll_nil, hr, Except.ok.injEq] at hq
    exact hq.symm

/-! ### A link to a folder beside the repository -/

def escapeHost : Host :=
  ⟨.folder [("outside", .folder [("secret.js", .file ⟨#[0x3b]⟩)]),
    ("repo", .folder [("link", .link "../outside")])], []⟩

def escapeBuilder : GraphBuilder := { reader := fun _ _ => pure (.ok []) }

theorem resolve_escape : escapeHost.resolve "/repo" =
    .ok ⟨["repo"], .folder [("link", .link "../outside")]⟩ := by cbv

theorem resolve_escape_link : escapeHost.resolve "/repo/link" =
    .ok ⟨["outside"], .folder [("secret.js", .file ⟨#[0x3b]⟩)]⟩ := by
  have hpath : fields Location.isSlash "/repo/link" = ["", "repo", "link"] := by decide
  have htarget : fields Location.isSlash "../outside" = ["..", "outside"] := by decide
  have hrelative : Location.isAbsolute "../outside" = false := by decide
  have hstart : startTrail escapeHost "/repo/link" = [] := by decide
  have hshort : ¬ maxNameBytes < "repo".utf8ByteSize ∧ ¬ maxNameBytes < "link".utf8ByteSize ∧
      ¬ maxNameBytes < "outside".utf8ByteSize := by decide
  have hadvance : advance escapeHost.root maxLinks [] ["", "repo", "link"] =
      .ok (39, [("outside", .folder [("secret.js", .file ⟨#[0x3b]⟩)])]) := by
    simp [advance, htarget, hrelative, hshort, escapeHost, current, Entry.child?, Entry.find?,
      Entry.entries, Entry.isFolder, maxLinks]
  rw [resolve_eq, if_neg (by decide), if_neg (by decide), if_neg (by decide), hpath, hstart,
    hadvance]
  rfl

theorem listing_escape : escapeBuilder.discovery.listing escapeHost "/repo" ["link"] =
    ["link/secret.js"] := by
  have hmet : Walk.sightings Exclusions.standard [] (.folder [("secret.js", .file ⟨#[0x3b]⟩)]) =
      [.file ["secret.js"]] := by
    rw [Walk.sightings_of_sorted (by decide)]
    simp [Walk.sightingsAt, Entry.isFolder]
  rw [Discovery.listing_of_resolve rfl resolve_escape_link,
    show escapeBuilder.discovery.excluded = Exclusions.standard from rfl, hmet]
  cbv

theorem listedFrom_escape : ∃ g,
    (escapeBuilder.buildFromRoot escapeHost "/repo" (some "link")).value = .ok g ∧
      ¬ Confined escapeHost "/repo" ["repo"] g ∧
      ∃ segs q, Discovery.scopeFolders? (some "link") = some segs ∧
        escapeHost.resolve (Location.joinAll "/repo" segs) = .ok q ∧
        escapeBuilder.ListedFrom escapeHost "/repo"
          ⟨["repo"], .folder [("link", .link "../outside")]⟩ segs q g := by
  have hscope : Discovery.scopeFolders? (some "link") = some ["link"] := by
    rw [Discovery.scopeFolders?, Scope.folders?, String.contains_char_eq]
    decide
  have hg := value_buildFromRoot_of_isFolder (b := escapeBuilder) (by decide)
    (isFolder_iff.mpr ⟨_, _, resolve_escape⟩) hscope (isFolder_iff.mpr ⟨_, _, resolve_escape_link⟩)
  have hplain : ∀ n ∈ ["secret.js"], IsEntryName n := by decide
  have hfile : escapeHost.resolve (Location.join "/repo" "link/secret.js") =
      .ok ⟨["outside", "secret.js"], .file ⟨#[0x3b]⟩⟩ :=
    (resolve_joinAll_at resolve_escape_link hplain rfl (by simp)).trans (if_pos (by decide))
  refine ⟨_, hg, fun hconfined => ?_,
    listedFrom_of_buildFromRoot (by decide) rfl resolve_escape hg⟩
  have hin := hconfined (FileNode.ofPath "link/secret.js")
    (List.mem_map_of_mem (by rw [listing_escape]; exact List.mem_singleton_self _)) _ hfile
  exact absurd hin (by decide)

end ImportAtlas.GraphBuilder
