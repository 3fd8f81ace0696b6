import ImportAtlas.Proofs.Discovery.Listing

/-!
# Scopes that are refused

A scope is refused by its text if it holds a colon or leads up, and else if the folder it names is
not there. The refusal carries the scope as it was given. Any other scope lists nothing outside of
its folder, and one that names no folder lists the whole repository.
-/

namespace ImportAtlas

open Text Host

namespace Scope

variable {scope : String}

/-- A scope without surrounding blanks, its separators all `/`. -/
def tidied (scope : String) : String := Path.slashed (trim scope)

/-- The folders that are named by a scope, one in the other. -/
def named (scope : String) : List String := plainSegments (tidied scope)

/-- No repository has a folder of such a name. -/
def IsForeign (scope : String) : Prop :=
  ':' ∈ (tidied scope).toList ∨ ".." ∈ fields Path.isSlash (tidied scope)

instance (scope : String) : Decidable (IsForeign scope) := inferInstanceAs (Decidable (_ ∨ _))

/-- Slashes in front make no segments that count. -/
theorem plainSegments_dropWhile (s : List Char) :
    plainSegments (String.ofList (s.dropWhile Path.isSlash)) = plainSegments (String.ofList s) := by
  induction s with
  | nil => rfl
  | cons c cs ih =>
      by_cases hc : Path.isSlash c = true
      · have hfields : fields Path.isSlash (String.ofList (c :: cs)) =
            "" :: fields Path.isSlash (String.ofList cs) := by
          rw [fields, fields, String.toList_ofList, String.toList_ofList, splitBy_cons_sep hc]
          rfl
        rw [List.dropWhile_cons_of_pos hc, ih, plainSegments, plainSegments, hfields]
        rfl
      · rw [List.dropWhile_cons_of_neg hc]

theorem plainSegments_clean (scope : String) : plainSegments (clean scope) = named scope := by
  rw [clean, plainSegments_dropWhile, String.ofList_toList]
  rfl

theorem mem_clean_iff {c : Char} (hc : Path.isSlash c = false) :
    c ∈ (clean scope).toList ↔ c ∈ (tidied scope).toList := by
  have hsplit : (tidied scope).toList.takeWhile Path.isSlash ++ (clean scope).toList =
      (tidied scope).toList := by
    rw [clean, String.toList_ofList]
    exact List.takeWhile_append_dropWhile
  rw [← hsplit, List.mem_append, or_iff_right]
  intro hfront
  rw [List.mem_takeWhile_imp hfront] at hc
  cases hc

theorem parent_mem_named_iff :
    ".." ∈ named scope ↔ ".." ∈ fields Path.isSlash (tidied scope) := by
  rw [named, plainSegments, List.mem_filter, and_iff_left (by decide)]

theorem folders?_eq_none_iff : folders? scope = none ↔ IsForeign scope := by
  rw [folders?, plainSegments_clean, IsForeign, ← mem_clean_iff (by decide),
    ← parent_mem_named_iff]
  simp only [String.contains_char_eq, Bool.or_eq_true, decide_eq_true_eq, List.contains_iff_mem,
    ite_eq_left_iff, reduceCtorEq, imp_false, not_not]

theorem folders?_eq_some (h : ¬ IsForeign scope) : folders? scope = some (named scope) := by
  rw [← folders?_eq_none_iff, folders?] at h
  rw [folders?, plainSegments_clean]
  split at h
  · exact absurd rfl h
  next hgood =>
    rw [plainSegments_clean] at hgood
    rw [if_neg hgood]

end Scope

namespace Discovery

variable {d : Discovery} {host : Host} {base scope : String} {place files : List String}
  {es : List (String × Entry)}

/-- A scope that holds a colon, leads up or names a folder that is not found. -/
def IsRefused (host : Host) (base scope : String) : Prop :=
  Scope.IsForeign scope ∨ Scope.named scope ≠ [] ∧
    host.isFolder (Location.joinAll base (Scope.named scope)) = false

/-- What a discovery of a scope gives in a repository that holds the tree `es`. -/
structure DiscoversScope (d : Discovery) (host : Host) (base : String)
    (es : List (String × Entry)) (scope : String) : Prop where
  refused_iff : (d.discover host base (some scope)).value = .error (.scopeNotFound scope) ↔
    IsRefused host base scope
  /-- The folder is found if it stands in the tree and its path is not too long for the host. -/
  isFolder_iff : ¬ Scope.IsForeign scope →
    (host.isFolder (Location.joinAll base (Scope.named scope)) = true ↔
      (∃ ds, (Entry.folder es).at? (Scope.named scope) = some (.folder ds)) ∧
        Fits (Location.joinAll base (Scope.named scope)) (Scope.named scope))
  whole : ¬ IsRefused host base scope → Scope.named scope = [] →
    ∃ files, (d.discover host base (some scope)).value = .ok files ∧
      (d.discover host base none).value = .ok files
  inside : ¬ IsRefused host base scope → Scope.named scope ≠ [] →
    ∃ folder files, Scope.normalize scope = .ok (some folder) ∧
      (d.discover host base (some scope)).value = .ok files ∧
      ∀ f ∈ files, ∃ below, f = folder ++ "/" ++ below

theorem value_discover_of_refused (hbase : base ≠ "") (h : IsRefused host base scope) :
    (d.discover host base (some scope)).value = .error (.scopeNotFound scope) := by
  rw [value_discover, value_scopeRoot hbase, scopeFolders?]
  by_cases hforeign : Scope.IsForeign scope
  · rw [Scope.folders?_eq_none_iff.mpr hforeign]
    rfl
  · obtain ⟨hne, hmissing⟩ := h.resolve_left hforeign
    rw [Scope.folders?_eq_some hforeign]
    simp [hne, hmissing, Except.map]

/-- A scope that is not refused is one of a folder that is found. -/
theorem scopeFolders?_of_not_refused (hrepo : host.isFolder base = true)
    (h : ¬ IsRefused host base scope) :
    scopeFolders? (some scope) = some (Scope.named scope) ∧
      host.isFolder (Location.joinAll base (Scope.named scope)) = true := by
  rw [IsRefused, not_or, not_and, Bool.not_eq_false] at h
  obtain ⟨hforeign, hfolder⟩ := h
  constructor
  · rw [scopeFolders?, Scope.folders?_eq_some hforeign]
  · by_cases hne : Scope.named scope = []
    · rw [hne, Location.joinAll_nil, hrepo]
    · exact hfolder hne

theorem isFolder_joinAll_iff {segs : List String} (hroot : host.root.WellFormed)
    (hbase : host.resolve base = .ok ⟨place, .folder es⟩) (hfree : (Entry.folder es).LinkFree)
    (hsegs : ∀ s ∈ segs, IsSegment s) :
    host.isFolder (Location.joinAll base segs) = true ↔
      (∃ ds, (Entry.folder es).at? segs = some (.folder ds)) ∧
        Fits (Location.joinAll base segs) segs := by
  have hlookup {ds : List (String × Entry)}
      (hat : (Entry.folder es).at? segs = some (.folder ds)) :
      host.resolve (Location.joinAll base segs) =
        if Fits (Location.joinAll base segs) segs then .ok ⟨place ++ segs, .folder ds⟩
        else .error .nameTooLong :=
    resolve_joinAll_at hbase ((hroot.of_at? (at?_of_resolve hbase)).1.of_at? hat).2 hat (by simp)
  rw [isFolder_iff]
  constructor
  · rintro ⟨place', ds, hres⟩
    have hat : (Entry.folder es).at? segs = some (.folder ds) :=
      (at?_of_resolve_joinAll hbase hfree hsegs hres).1
    refine ⟨⟨ds, hat⟩, ?_⟩
    by_contra hlong
    rw [hlookup hat, if_neg hlong] at hres
    cases hres
  · rintro ⟨⟨ds, hat⟩, hfits⟩
    exact ⟨_, ds, (hlookup hat).trans (if_pos hfits)⟩

/-- In a repository without links a scope is refused, with its text as it was given, exactly if it
holds a colon, leads up or names a folder that is not there; else all that is listed lies in its
folder. -/
theorem discoversScope_of_linkFree (d : Discovery) (scope : String) (hroot : host.root.WellFormed)
    (hbase : host.resolve base = .ok ⟨place, .folder es⟩) (hfree : (Entry.folder es).LinkFree) :
    DiscoversScope d host base es scope := by
  have hrepo : host.isFolder base = true := isFolder_iff.mpr ⟨_, _, hbase⟩
  have hne : base ≠ "" := ne_empty_of_isFolder hrepo
  have hfound (h : ¬ IsRefused host base scope) :
      (d.discover host base (some scope)).value =
        .ok (d.listing host base (Scope.named scope)) := by
    obtain ⟨hsegs, hstart⟩ := scopeFolders?_of_not_refused hrepo h
    exact value_discover_of_isFolder hroot hne hsegs hstart
  constructor
  case refused_iff =>
    refine ⟨fun herror => ?_, value_discover_of_refused hne⟩
    by_contra h
    rw [hfound h] at herror
    cases herror
  case isFolder_iff =>
    intro hforeign
    have hsegs : scopeFolders? (some scope) = some (Scope.named scope) :=
      Scope.folders?_eq_some hforeign
    exact isFolder_joinAll_iff hroot hbase hfree (isSegment_of_scopeFolders? hsegs)
  case whole =>
    intro h hnone
    refine ⟨_, hfound h, ?_⟩
    have hwhole : scopeFolders? none = some [] := rfl
    rw [hnone]
    exact value_discover_of_isFolder hroot hne hwhole hrepo
  case inside =>
    intro h hsome
    obtain ⟨hsegs, hstart⟩ := scopeFolders?_of_not_refused hrepo h
    refine ⟨joinFields '/' (Scope.named scope), _, ?_, hfound h, fun f hf => ?_⟩
    · rw [Scope.normalize_of_some hsegs, if_neg hsome]
    · exact Path.liesIn_iff.mp (liesIn_of_mem_listing hroot hsome hstart hf)

/-! ### A folder in a folder, and a file beside it -/

def nestedEntries : List (String × Entry) :=
  [("backend", .folder [("index.js", .file ⟨#[]⟩), ("src", .folder [("a.js", .file ⟨#[]⟩)])])]

def nestedHost : Host := ⟨.folder [("repo", .folder nestedEntries)], []⟩

theorem resolve_nested : nestedHost.resolve "/repo" = .ok ⟨["repo"], .folder nestedEntries⟩ := by
  cbv

theorem isFolder_nested_iff {segs : List String} (hsegs : ∀ s ∈ segs, IsSegment s) :
    nestedHost.isFolder (Location.joinAll "/repo" segs) = true ↔
      (∃ ds, (Entry.folder nestedEntries).at? segs = some (.folder ds)) ∧
        Fits (Location.joinAll "/repo" segs) segs :=
  isFolder_joinAll_iff (by decide) resolve_nested (by decide) hsegs

theorem named_mixed : Scope.named " \\backend\\.//src/ " = ["backend", "src"] := by decide

theorem not_isRefused_mixed : ¬ IsRefused nestedHost "/repo" " \\backend\\.//src/ " := by
  rw [IsRefused, not_or, not_and, Bool.not_eq_false, named_mixed]
  exact ⟨by decide, fun _ => (isFolder_nested_iff (by decide)).mpr ⟨⟨_, rfl⟩, by decide⟩⟩

theorem isRefused_nested {segs : List String} (hnamed : Scope.named scope = segs) (hne : segs ≠ [])
    (hsegs : ∀ s ∈ segs, IsSegment s)
    (hat : ∀ ds, (Entry.folder nestedEntries).at? segs ≠ some (.folder ds)) :
    IsRefused nestedHost "/repo" scope := by
  subst hnamed
  refine .inr ⟨hne, ?_⟩
  rw [Bool.eq_false_iff, ne_eq, isFolder_nested_iff hsegs]
  exact fun h => h.1.elim hat

/-- A file, a way up, a drive and a folder that is not there are refused; blanks, backslashes, dots
and empty segments are not. -/
theorem discoversScope_nested :
    (∀ scope ∈ ["backend/index.js", "backend\\..\\backend", "c:/backend", "lib"],
      (discover {} nestedHost "/repo" (some scope)).value = .error (.scopeNotFound scope)) ∧
    (∃ files, (discover {} nestedHost "/repo" (some " \\backend\\.//src/ ")).value = .ok files ∧
      ∀ f ∈ files, ∃ below, f = "backend/src" ++ "/" ++ below) ∧
    ∃ files, (discover {} nestedHost "/repo" (some " ./ ")).value = .ok files ∧
      (discover {} nestedHost "/repo" none).value = .ok files := by
  have hdiscovers (scope : String) : DiscoversScope {} nestedHost "/repo" nestedEntries scope :=
    discoversScope_of_linkFree {} scope (by decide) resolve_nested (by decide)
  refine ⟨?_, ?_, (hdiscovers " ./ ").whole ?_ (by decide)⟩
  · have hindex : Scope.named "backend/index.js" = ["backend", "index.js"] := by decide
    have hlib : Scope.named "lib" = ["lib"] := by decide
    simp only [List.forall_mem_cons, (hdiscovers _).refused_iff]
    exact ⟨isRefused_nested hindex (by decide) (by decide) nofun, .inl (by decide),
      .inl (by decide), isRefused_nested hlib (by decide) (by decide) nofun, by simp⟩
  · obtain ⟨folder, files, hfolder, hfiles, hinside⟩ :=
      (hdiscovers " \\backend\\.//src/ ").inside not_isRefused_mixed (by simp [named_mixed])
    have hnormal : Scope.normalize " \\backend\\.//src/ " = .ok (some "backend/src") := by
      rw [Scope.normalize, String.contains_char_eq]
      decide
    rw [hnormal, Except.ok.injEq, Option.some.injEq] at hfolder
    exact ⟨files, hfiles, hfolder ▸ hinside⟩
  · rw [IsRefused, not_or]
    exact ⟨by decide, fun h => h.1 (by decide)⟩

end Discovery

end ImportAtlas
