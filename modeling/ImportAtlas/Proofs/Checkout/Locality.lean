import ImportAtlas.Analysis
import ImportAtlas.Proofs.Checkout.Reading
import ImportAtlas.Proofs.Discovery.Order
import ImportAtlas.Proofs.Graph.Assembly
import ImportAtlas.Proofs.Host.Descent
import ImportAtlas.Proofs.Path.WrittenForm

/-!
# What depends on the tree of a checkout only

On two hosts where the path of a checkout leads to the same place, with the same tree without links,
each read of its files says the same and so does its graph, whatever else is on the hosts. A read
goes by real paths, a graph by lookups.
-/

namespace ImportAtlas

open Text Host

variable {host host' : Host} {root : String} {f : Found} {place : List String}
  {ts : List (String × Entry)}

namespace Checkout

variable {reposDir owner name path : String}

theorem exists_segments_of_written {normalized : String} (h : written path = .ok normalized) :
    ∃ segs, segs ≠ [] ∧ (∀ s ∈ segs, IsSegment s) ∧ normalized = joinFields '/' segs := by
  have hnormalized := written_ok h
  unfold written at h
  split at h
  · cases h
  · split at h
    · cases h
    next hplain =>
      rw [Bool.or_eq_true, not_or, String.isEmpty_iff, Bool.not_eq_true] at hplain
      rw [hnormalized]
      exact Path.exists_segments_of_normalize hplain.1 hplain.2

theorem located_eq (hroot : localPath reposDir owner name = .ok root)
    (h : host.canonicalize root = .ok f) :
    located reposDir host owner name path =
      written path >>= fun normalized =>
        ((host.canonicalize (Location.join root normalized)).mapError (.fileMissing normalized)).map
          fun file => (f, file) := by
  unfold located
  simp only [hroot, bind, Except.bind, h, Except.mapError]
  cases written path with
  | error e => rfl
  | ok normalized => cases host.canonicalize (Location.join root normalized) <;> rfl

theorem readSource_congr (hroot : localPath reposDir owner name = .ok root)
    (h : host.canonicalize root = .ok f) (h' : host'.canonicalize root = .ok f)
    (hfree : f.entry.LinkFree) :
    readSource reposDir host owner name path = readSource reposDir host' owner name path := by
  rw [readSource_eq, readSource_eq, located_eq hroot h, located_eq hroot h']
  cases hwritten : written path with
  | error e => rfl
  | ok normalized =>
      obtain ⟨segs, hne, hsegs, rfl⟩ := exists_segments_of_written hwritten
      have hbase : root ≠ "" := (canonicalize_ok h).2.1
      have hfile := canonicalize_joinAll_congr h h' hfree hsegs
      rw [Location.joinAll_eq_join hbase hne hsegs] at hfile
      simp only [bind, Except.bind, hfile]

/-- A read of a checkout without a real path says so, unless the path asked for is refused before
that. -/
theorem readSource_of_error {e : HostError} (hroot : localPath reposDir owner name = .ok root)
    (h : host.canonicalize root = .error e) :
    readSource reposDir host owner name path =
      written path >>= fun _ => .error (.checkoutMissing owner name e) := by
  rw [readSource_eq, located]
  simp only [hroot, bind, Except.bind, h, Except.mapError]
  cases written path <;> rfl

theorem readSource_of_refused {part : IdentityPart} {value : String}
    (hroot : localPath reposDir owner name = .error (.invalidIdentity part value)) :
    readSource reposDir host owner name path =
      written path >>= fun _ => .error (.invalidIdentity part value) := by
  rw [readSource_eq, located]
  simp only [hroot, bind, Except.bind]
  cases written path <;> rfl

end Checkout

namespace GraphBuilder

variable {b : GraphBuilder} {files : List String}

theorem graphOf_congr (h : ∀ path ∈ files, host.readBytes (Location.join root path) =
    host'.readBytes (Location.join root path)) :
    b.graphOf host root files = b.graphOf host' root files := by
  rw [graphOf, graphOf]
  congr 1
  apply List.map_congr_left
  intro path hpath
  rw [value_fileEdges, value_fileEdges, importsOf, importsOf, imports?, imports?, h path hpath]

theorem value_buildFromRoot_congr (hwf : host.root.WellFormed) (hwf' : host'.root.WellFormed)
    (h : host.resolve root = .ok ⟨place, .folder ts⟩)
    (h' : host'.resolve root = .ok ⟨place, .folder ts⟩) (hfree : (Entry.folder ts).LinkFree) :
    (b.buildFromRoot host root none).value = (b.buildFromRoot host' root none).value := by
  have hlisting : b.discovery.listing host root [] = b.discovery.listing host' root [] := by
    rw [Discovery.listing, Discovery.listing, Location.joinAll_nil,
      Walk.run_of_linkFree hwf h hfree,
      Walk.run_of_linkFree hwf' h' hfree]
  rw [value_buildFromRoot, value_buildFromRoot, if_pos (isFolder_iff.mpr ⟨place, ts, h⟩),
    if_pos (isFolder_iff.mpr ⟨place, ts, h'⟩), Discovery.discover_whole hwf h,
    Discovery.discover_whole hwf' h', ← hlisting]
  apply congrArg Except.ok
  apply graphOf_congr
  intro path hpath
  rw [Discovery.listing, List.mem_map] at hpath
  obtain ⟨names, hnames, rfl⟩ := hpath
  obtain ⟨hne, hplain⟩ := Discovery.plain_of_mem_sourcePaths
    (Walk.spreadInside_run b.discovery.excluded hwf h b.discovery.followLinks) hnames
  have hsegs : ∀ n ∈ names, IsSegment n := fun n hn => (hplain n hn).toIsSegment
  have hbase : root ≠ "" := (resolve_ok h).2.1
  rw [List.nil_append, ← Location.joinAll_eq_join hbase hne hsegs, readBytes, readBytes,
    resolve_joinAll_congr h h' hfree hsegs]

theorem value_buildFromRoot_of_absent (h : host.isFolder root = false) :
    (b.buildFromRoot host root none).value = .error (.repositoryNotFound root) := by
  rw [value_buildFromRoot, h]
  rfl

theorem value_buildGraph_store (b : GraphBuilder) (host : Host) (reposDir owner name : String) :
    (b.buildGraph host (.store reposDir) owner name none).value =
      match Checkout.localPath reposDir owner name with
      | .error e => .error e
      | .ok root => (b.buildFromRoot host root none).value.mapError .build := by
  rw [buildGraph, Logged.value_bind]
  simp only [Locator.store]
  cases Checkout.localPath reposDir owner name <;> rfl

end GraphBuilder

end ImportAtlas
