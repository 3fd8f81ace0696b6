import ImportAtlas.Discovery
import ImportAtlas.Proofs.Discovery.Walk
import ImportAtlas.Proofs.Host.Contents

/-!
# Discovery never looks into files

A walk meets the same entries whatever bytes the files of the tree hold, so a discovery comes to
the same list, with the same messages on the way.
-/

namespace ImportAtlas

open Host

variable {change : List String → ByteArray → ByteArray}

namespace Walk

variable {excluded : List String} {start : String}

theorem sightings_rewrite (e : Entry) (place path : List String) :
    sightings excluded path (e.rewrite change place) = sightings excluded path e := by
  induction e using Entry.induction_on generalizing place path with
  | file c => rw [Entry.rewrite_file, sightings_file, sightings_file]
  | link target => rw [Entry.rewrite_link]
  | folder es ih =>
      rw [Entry.rewrite_folder, sightings_folder, sightings_folder, List.map_map]
      congr 1
      apply List.map_congr_left
      intro x hx
      have hinside := ih x hx (place ++ [x.1]) (path ++ [x.1])
      simp only [Function.comp_apply, sightingsAt, Entry.isFolder_rewrite, hinside]

theorem visit_rewrite {host : Host} {depth : Nat} {chain : List Opened} {place path : List String}
    (h : ∀ chain place path,
      sightingsFollowing excluded (host.rewrite change) start depth chain place path =
        sightingsFollowing excluded host start depth chain place path)
    (name : String) (e : Entry) (inside : List String) :
    sightingsFollowing.visit excluded (host.rewrite change) start depth chain place path name
        (e.rewrite change inside) =
      sightingsFollowing.visit excluded host start depth chain place path name e := by
  have henter : ∀ place path,
      sightingsFollowing.enter excluded (host.rewrite change) start depth chain place path name =
        sightingsFollowing.enter excluded host start depth chain place path name := by
    intro place path
    rw [sightingsFollowing.enter, sightingsFollowing.enter, h]
  cases e with
  | file c => rw [Entry.rewrite_file, sightingsFollowing.visit, sightingsFollowing.visit]
  | folder es =>
      rw [Entry.rewrite_folder, sightingsFollowing.visit, sightingsFollowing.visit, henter]
  | link target =>
      rw [Entry.rewrite_link, sightingsFollowing.visit, sightingsFollowing.visit, resolve_rewrite]
      cases host.resolve (Location.joinAll start (path ++ [name])) with
      | error e => rfl
      | ok f =>
          obtain ⟨target, d⟩ := f
          cases d with
          | file c => simp only [Except.map, Found.rewrite, Entry.rewrite_file]
          | link t => simp only [Except.map, Found.rewrite, Entry.rewrite_link]
          | folder es =>
              simp only [Except.map, Found.rewrite, Entry.rewrite_folder]
              split
              · rfl
              · exact henter _ _

theorem sightingsFollowing_rewrite (host : Host) (depth : Nat) (chain : List Opened)
    (place path : List String) :
    sightingsFollowing excluded (host.rewrite change) start depth chain place path =
      sightingsFollowing excluded host start depth chain place path := by
  induction depth generalizing chain place path with
  | zero => rw [sightingsFollowing, sightingsFollowing]
  | succ depth ih =>
      have hat : (host.rewrite change).root.at? place =
          (host.root.at? place).map (Entry.rewrite change place) := by
        rw [Host.rewrite, Entry.at?_rewrite, List.nil_append]
      rw [sightingsFollowing, sightingsFollowing, hat]
      cases host.root.at? place with
      | none => rfl
      | some e =>
          simp only [Option.map_some, Option.getD_some, Entry.entries_rewrite, List.map_map]
          congr 1
          apply List.map_congr_left
          intro x _
          exact congrArg (Prod.mk x.1) (visit_rewrite ih x.1 x.2 _)

theorem depthBound_rewrite (host : Host) : depthBound (host.rewrite change) = depthBound host := by
  rw [depthBound, Host.rewrite, Entry.count_rewrite, depthBound]

theorem sightings_folder_rewrite (place path : List String) (es : List (String × Entry)) :
    sightings excluded path
        (.folder (es.map fun x => (x.1, x.2.rewrite change (place ++ [x.1])))) =
      sightings excluded path (.folder es) := by
  rw [← Entry.rewrite_folder, sightings_rewrite]

/-- A walk meets the same entries whatever bytes the files hold. -/
theorem run_rewrite (excluded : List String) (host : Host) (start : String) (followLinks : Bool) :
    run excluded (host.rewrite change) start followLinks = run excluded host start followLinks := by
  rw [run, run, lookup_rewrite, resolve_rewrite, depthBound_rewrite]
  cases host.lookup followLinks start with
  | error e => rfl
  | ok f =>
      obtain ⟨place, e⟩ := f
      simp only [Except.map, Found.rewrite]
      cases e with
      | file c => simp only [Entry.rewrite_file, sightings_file]
      | folder es =>
          simp only [Entry.rewrite_folder, sightings_folder_rewrite, sightingsFollowing_rewrite]
      | link target =>
          simp only [Entry.rewrite_link, sightings_link]
          cases host.resolve start with
          | error e => rfl
          | ok f =>
              obtain ⟨place, d⟩ := f
              cases d with
              | file c => simp only [Entry.rewrite_file]
              | link t => simp only [Entry.rewrite_link]
              | folder es => simp only [Entry.rewrite_folder, sightings_folder_rewrite]

end Walk

namespace Discovery

theorem scopeRoot_rewrite (host : Host) (base : String) (scope : Option String) :
    scopeRoot (host.rewrite change) base scope = scopeRoot host base scope := by
  cases scope with
  | none => rfl
  | some folder => simp only [scopeRoot, isFolder_rewrite]

theorem walk_rewrite (d : Discovery) (host : Host) (start base : String) :
    d.walk (host.rewrite change) start base = d.walk host start base := by
  rw [walk, walk, Walk.run_rewrite]

theorem discover_rewrite (d : Discovery) (host : Host) (base : String) (scope : Option String) :
    d.discover (host.rewrite change) base scope = d.discover host base scope := by
  simp only [discover, scopeRoot_rewrite, walk_rewrite]

end Discovery

end ImportAtlas
