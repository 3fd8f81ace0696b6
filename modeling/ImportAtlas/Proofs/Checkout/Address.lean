import ImportAtlas.Proofs.Checkout.Locality
import ImportAtlas.Proofs.Checkout.Reading
import ImportAtlas.Proofs.Discovery.Order
import ImportAtlas.Source

/-!
# The paths of a graph as addresses

A file is read by the path under which a graph lists it, as far as the host has a real path for it,
unless a name on the way holds a backslash: in the path of a read this is a separator like the
slash.
-/

namespace ImportAtlas

open Text Host

variable {reposDir owner name path root : String} {host : Host} {place : List String} {e : Entry}
  {es : List (String × Entry)} {content : ByteArray}

/-- The error, if it is about the path that was asked for, about another one. -/
def CheckoutError.naming (path : String) : CheckoutError → CheckoutError
  | invalidFilePath _ => invalidFilePath path
  | e => e

namespace Checkout

/-! ## Both separators -/

theorem isAllBlank_slashed (path : String) : isAllBlank (Path.slashed path) = isAllBlank path := by
  rw [isAllBlank, isAllBlank, Path.slashed, replaceChar, String.toList_ofList, List.all_map]
  congr 1
  funext c
  by_cases hc : c = '\\'
  · subst hc
    decide
  · simp [hc]

theorem mapError_bind {ε ε' α β : Type} (x : Except ε α) (g : α → Except ε β) (f : ε → ε') :
    (x >>= g).mapError f = x.mapError f >>= fun a => (g a).mapError f := by
  cases x <;> rfl

theorem written_slashed (path : String) :
    written path = (written (Path.slashed path)).mapError (.naming path) := by
  rw [written, written, isAllBlank_slashed, Path.normalize_slashed]
  split
  · rfl
  · split <;> rfl

theorem localPath_naming (reposDir owner name path : String) :
    (localPath reposDir owner name).mapError (.naming path) = localPath reposDir owner name := by
  rw [localPath]
  split
  · rfl
  · split <;> rfl

theorem located_slashed (reposDir : String) (host : Host) (owner name path : String) :
    located reposDir host owner name path =
      (located reposDir host owner name (Path.slashed path)).mapError (.naming path) := by
  have hhost {α : Type} (x : Except HostError α) {f : HostError → CheckoutError}
      (hf : ∀ e, (f e).naming path = f e) :
      (x.mapError f).mapError (.naming path) = x.mapError f := by
    cases x with
    | error e => exact congrArg Except.error (hf e)
    | ok a => rfl
  simp only [located, mapError_bind, ← written_slashed, localPath_naming]
  refine bind_congr fun normalized => bind_congr fun root => ?_
  rw [hhost _ fun _ => rfl]
  refine bind_congr fun realRoot => ?_
  rw [hhost _ fun _ => rfl]
  rfl

theorem opened_slashed (path : String) (r f : Found) :
    opened path r f = (opened (Path.slashed path) r f).mapError (.naming path) := by
  rw [opened, opened, Path.normalize_slashed]
  split
  · rfl
  · cases f.entry with
    | file content =>
        simp only
        cases decodeText content <;> rfl
    | link target => rfl
    | folder entries => rfl

/-- Reading by a path is reading by the path with `/` as its only separator. -/
theorem readSource_slashed (reposDir : String) (host : Host) (owner name path : String) :
    readSource reposDir host owner name path =
      (readSource reposDir host owner name (Path.slashed path)).mapError (.naming path) := by
  rw [readSource_eq, readSource_eq, mapError_bind, ← located_slashed]
  refine bind_congr fun found => opened_slashed path found.1 found.2

/-! ## Files of a checkout -/

/-- A path whose names are those of entries, none of which holds a backslash. -/
structure IsPlain (path : String) : Prop where
  not_blank : isAllBlank path = false
  names : ∀ n ∈ Path.segments path, IsEntryName n
  no_backslash : '\\' ∉ path.toList

theorem IsPlain.isCanonical (h : IsPlain path) : Path.IsCanonical path where
  ne_empty := by
    rintro rfl
    exact absurd h.not_blank (by decide)
  plain n hn := (h.names n hn).toIsSegment
  no_backslash := h.no_backslash

theorem IsPlain.written (h : IsPlain path) : written path = .ok path := by
  have hpath := h.isCanonical
  rw [Checkout.written, if_neg (by simp [h.not_blank]), hpath.normalize,
    if_neg (by simp [hpath.ne_empty, hpath.leavesRoot_eq_false])]

theorem resolve_join_segments (hr : host.resolve root = .ok ⟨place, e⟩)
    (hnames : ∀ n ∈ Path.segments path, IsEntryName n) (hne : Path.segments path ≠ [])
    (hat : e.at? (Path.segments path) = some (.file content)) :
    host.resolve (Location.join root path) =
      if Fits (Location.join root path) (Path.segments path) then
        .ok ⟨place ++ Path.segments path, .file content⟩
      else .error .nameTooLong := by
  have hjoin : Location.join root path = Location.joinAll root (Path.segments path) := by
    rw [Location.joinAll_eq_join (resolve_ok hr).2.1 hne fun n hn => (hnames n hn).toIsSegment,
      Path.joinFields_segments]
  rw [hjoin]
  exact resolve_joinAll_at hr hnames hat (by simp)

theorem readBytes_join_segments (hr : host.resolve root = .ok ⟨place, e⟩)
    (hnames : ∀ n ∈ Path.segments path, IsEntryName n) (hne : Path.segments path ≠ [])
    (hat : e.at? (Path.segments path) = some (.file content)) :
    host.readBytes (Location.join root path) =
      if Fits (Location.join root path) (Path.segments path) then .ok content
      else .error .nameTooLong := by
  rw [readBytes, resolve_join_segments hr hnames hne hat]
  split <;> rfl

/-- A read of a file goes by its real path, which continues that of the checkout. -/
theorem IsPlain.readSource (h : IsPlain path) (hroot : localPath reposDir owner name = .ok root)
    (hreal : host.canonicalize root = .ok ⟨place, e⟩)
    (hat : e.at? (Path.segments path) = some (.file content)) :
    readSource reposDir host owner name path =
      if FitsBelow place (Path.segments path) then (decodeText content).mapError (.unreadable path)
      else .error (.fileMissing path .nameTooLong) := by
  have hne : Path.segments path ≠ [] := h.isCanonical.ne_nil
  have hfile := canonicalize_joinAll_at hreal hne h.names hat (by simp)
  rw [Location.joinAll_eq_join (canonicalize_ok hreal).2.1 hne fun n hn =>
    (h.names n hn).toIsSegment, Path.joinFields_segments] at hfile
  have hinside : Location.startsWith (place ++ Path.segments path) place = true :=
    Location.startsWith_iff.mpr (List.prefix_append _ _)
  rw [readSource_eq, located_eq hroot hreal, h.written]
  simp only [bind, Except.bind, hfile]
  by_cases hfits : FitsBelow place (Path.segments path)
  · rw [if_pos hfits, if_pos hfits]
    simp only [Except.mapError, Except.map, opened, hinside, Bool.not_true, Bool.false_eq_true,
      if_false, h.isCanonical.normalize]
  · rw [if_neg hfits, if_neg hfits]
    rfl

theorem IsPlain.readSource_of_error {cause : HostError} (h : IsPlain path)
    (hroot : localPath reposDir owner name = .ok root)
    (hreal : host.canonicalize root = .error cause) :
    Checkout.readSource reposDir host owner name path =
      .error (.checkoutMissing owner name cause) := by
  rw [Checkout.readSource_of_error hroot hreal, h.written]
  rfl

/-! ## Nodes -/

theorem isPlain_of_leadsToSource {excluded : List String} (he : e.WellFormed)
    (h : Discovery.LeadsToSource excluded e (Path.segments path))
    (hbackslash : '\\' ∉ path.toList) : IsPlain path := by
  obtain ⟨c, hat⟩ := h.file
  obtain ⟨last, hlast, stem, ext, _, rfl⟩ := h.source
  have hdot : '.' ∈ path.toList := by
    rw [← Path.joinFields_segments path, mem_joinFields (by decide)]
    exact ⟨_, List.mem_of_getLast? hlast, by simp⟩
  refine ⟨?_, (he.of_at? hat).2, hbackslash⟩
  rw [isAllBlank, Bool.eq_false_iff]
  exact fun hblank => absurd (List.all_eq_true.mp hblank _ hdot) (by decide)

/-- How a read answers for the path under which a file is listed. -/
structure Answers (reposDir : String) (host : Host) (owner name root : String) (e : Entry)
    (path : String) (content : ByteArray) : Prop where
  /-- The names of the path lead to the file and to no other. -/
  at_path : e.at? (Path.segments path) = some (.file content)
  real : '\\' ∉ path.toList → ∀ f, host.canonicalize root = .ok f →
    FitsBelow f.place (Path.segments path) →
      readSource reposDir host owner name path = (decodeText content).mapError (.unreadable path)
  too_deep : '\\' ∉ path.toList → ∀ f, host.canonicalize root = .ok f →
    ¬ FitsBelow f.place (Path.segments path) →
      readSource reposDir host owner name path = .error (.fileMissing path .nameTooLong)
  unreal : '\\' ∉ path.toList → ∀ cause, host.canonicalize root = .error cause →
    readSource reposDir host owner name path = .error (.checkoutMissing owner name cause)
  slashed : readSource reposDir host owner name path =
    (readSource reposDir host owner name (Path.slashed path)).mapError (.naming path)

theorem answers_of_leadsToSource {excluded : List String} (he : e.WellFormed)
    (hroot : localPath reposDir owner name = .ok root) (hr : host.resolve root = .ok ⟨place, e⟩)
    (h : Discovery.LeadsToSource excluded e (Path.segments path)) :
    ∃ content, Answers reposDir host owner name root e path content := by
  obtain ⟨content, hat⟩ := h.file
  refine ⟨content, hat, fun hbackslash f hreal hfits => ?_, fun hbackslash f hreal hlong => ?_,
    fun hbackslash cause hreal => ?_, readSource_slashed reposDir host owner name path⟩
  · obtain rfl := eq_of_canonicalize_of_resolve hr hreal
    rw [(isPlain_of_leadsToSource he h hbackslash).readSource hroot hreal hat, if_pos hfits]
  · obtain rfl := eq_of_canonicalize_of_resolve hr hreal
    rw [(isPlain_of_leadsToSource he h hbackslash).readSource hroot hreal hat, if_neg hlong]
  · exact (isPlain_of_leadsToSource he h hbackslash).readSource_of_error hroot hreal

end Checkout

namespace GraphBuilder

variable {b : GraphBuilder}

theorem value_buildGraph_of_resolve (hwf : host.root.WellFormed)
    (hroot : Checkout.localPath reposDir owner name = .ok root)
    (hr : host.resolve root = .ok ⟨place, .folder es⟩) :
    (b.buildGraph host (.store reposDir) owner name none).value =
      .ok (b.graphOf host root (b.discovery.listing host root [])) := by
  have hfolder : host.isFolder root = true := isFolder_iff.mpr ⟨_, _, hr⟩
  have hnone : Discovery.scopeFolders? none = some [] := rfl
  rw [value_buildGraph_store, hroot]
  simp only [value_buildFromRoot_of_isFolder hwf hfolder hnone hfolder]
  rfl

theorem exists_buildGraph (hwf : host.root.WellFormed)
    (hroot : Checkout.localPath reposDir owner name = .ok root)
    (hr : host.resolve root = .ok ⟨place, .folder es⟩) (hfree : (Entry.folder es).LinkFree) :
    ∃ g, (b.buildGraph host (.store reposDir) owner name none).value = .ok g ∧
      ∀ path, path ∈ g.ids ↔
        Discovery.LeadsToSource b.discovery.excluded (.folder es) (Path.segments path) := by
  refine ⟨_, value_buildGraph_of_resolve hwf hroot hr, fun path => ?_⟩
  rw [ids_graphOf]
  exact (Discovery.listsInOrder_of_linkFree hwf hr hfree).mem_iff path

end GraphBuilder

namespace Checkout

/-- A graph of a checkout without links lists each file under a path by which it is read, as far as
this holds no backslash and the host has real paths for the checkout and the file. -/
theorem answers_of_mem_ids (b : GraphBuilder) (hwf : host.root.WellFormed)
    (hroot : localPath reposDir owner name = .ok root)
    (hr : host.resolve root = .ok ⟨place, .folder es⟩) (hfree : (Entry.folder es).LinkFree) :
    (host.HasWorkingFolder → ∀ cause, host.canonicalize root = .error cause →
        cause = .nameTooLong) ∧
      ∃ g, (b.buildGraph host (.store reposDir) owner name none).value = .ok g ∧
        ∀ path ∈ g.ids, ∃ content,
          Answers reposDir host owner name root (.folder es) path content := by
  obtain ⟨g, hg, hids⟩ := GraphBuilder.exists_buildGraph (b := b) hwf hroot hr hfree
  have hes : (Entry.folder es).WellFormed := (hwf.of_at? (at?_of_resolve hr)).1
  refine ⟨fun hworking cause hreal => eq_nameTooLong_of_canonicalize hworking hr hreal, g, hg, ?_⟩
  exact fun path hpath => answers_of_leadsToSource hes hroot hr ((hids path).mp hpath)

/-! ### Two files whose paths differ in a separator -/

def shelfHost (es : List (String × Entry)) : Host :=
  ⟨.folder [("repos", .folder [("o", .folder [("n", .folder es)])])], []⟩

theorem resolve_shelfHost (es : List (String × Entry)) :
    (shelfHost es).resolve "/repos/o/n" = .ok ⟨["repos", "o", "n"], .folder es⟩ := by
  cbv

theorem canonicalize_shelfHost (es : List (String × Entry)) :
    (shelfHost es).canonicalize "/repos/o/n" = .ok ⟨["repos", "o", "n"], .folder es⟩ := by
  cbv

theorem localPath_shelf : localPath "/repos" "o" "n" = .ok "/repos/o/n" := by decide

theorem wellFormed_shelfHost (hes : (Entry.folder es).WellFormed) :
    (shelfHost es).root.WellFormed :=
  Entry.wellFormed_singleton (by decide)
    (Entry.wellFormed_singleton (by decide) (Entry.wellFormed_singleton (by decide) hes))

def twinEntries : List (String × Entry) :=
  [("a", .folder [("b.js", .file "other".toUTF8)]), ("a\\b.js", .file "odd".toUTF8)]

theorem wellFormed_twinEntries : (Entry.folder twinEntries).WellFormed := by decide

theorem segments_twin : Path.segments "a\\b.js" = ["a\\b.js"] ∧
    Path.segments "a/b.js" = ["a", "b.js"] := by decide

theorem at?_twin :
    (Entry.folder twinEntries).at? (Path.segments "a\\b.js") = some (.file "odd".toUTF8) ∧
      (Entry.folder twinEntries).at? (Path.segments "a/b.js") = some (.file "other".toUTF8) := by
  rw [segments_twin.1, segments_twin.2]
  exact ⟨rfl, rfl⟩

theorem leadsToSource_twin : ∀ path ∈ ["a\\b.js", "a/b.js"],
    Discovery.LeadsToSource Exclusions.standard (.folder twinEntries) (Path.segments path) := by
  simp only [List.forall_mem_cons, segments_twin.1, segments_twin.2]
  exact ⟨⟨⟨_, rfl⟩, by simp, ⟨_, rfl, "a\\b", "js", by decide, by decide⟩⟩,
    ⟨⟨_, rfl⟩, by decide, ⟨_, rfl, "b", "js", by decide, by decide⟩⟩, by simp⟩

theorem answers_twin :
    (shelfHost twinEntries).root.WellFormed ∧ (Entry.folder twinEntries).LinkFree ∧
    ∃ g, ((Source.builder {}).buildGraph (shelfHost twinEntries) (.store "/repos") "o" "n"
        none).value = .ok g ∧ "a/b.js" ∈ g.ids ∧
      readSource "/repos" (shelfHost twinEntries) "o" "n" "a/b.js" = .ok "other" := by
  have hwf := wellFormed_shelfHost wellFormed_twinEntries
  have hfree : (Entry.folder twinEntries).LinkFree := by decide
  obtain ⟨g, hg, hids⟩ := GraphBuilder.exists_buildGraph (b := Source.builder {}) hwf
    localPath_shelf (resolve_shelfHost _) hfree
  obtain ⟨_, g', hg', hanswers⟩ := answers_of_mem_ids (Source.builder {}) hwf localPath_shelf
    (resolve_shelfHost _) hfree
  obtain rfl : g' = g := Except.ok.inj (hg'.symm.trans hg)
  have hmem : "a/b.js" ∈ g'.ids := (hids _).mpr (leadsToSource_twin _ (by simp))
  obtain ⟨content, hanswer⟩ := hanswers _ hmem
  have hcontent : Entry.file content = .file "other".toUTF8 :=
    Option.some.inj (hanswer.at_path.symm.trans at?_twin.2)
  refine ⟨hwf, hfree, g', hg, hmem, ?_⟩
  rw [hanswer.real (by decide) _ (canonicalize_shelfHost _) (by decide), Entry.file.inj hcontent,
    decodeText_toUTF8]
  rfl

theorem readSource_twin :
    readSource "/repos" (shelfHost twinEntries) "o" "n" "a\\b.js" = .ok "other" := by
  have hplain : IsPlain "a/b.js" := ⟨by decide, by decide, by decide⟩
  rw [readSource_slashed, show Path.slashed "a\\b.js" = "a/b.js" from by decide,
    hplain.readSource localPath_shelf (canonicalize_shelfHost _) at?_twin.2, if_pos (by decide),
    decodeText_toUTF8]
  rfl

/-! ### A path that is too long -/

/-- Folders with long names one inside the other, and a file in the last of them. -/
def longNames (depth size : Nat) : List String :=
  List.replicate depth (longName size) ++ [longName size ++ ".js"]

variable {size : Nat}

theorem utf8ByteSize_of_mem_longNames (depth size : Nat) :
    ∀ n ∈ longNames depth size, n.utf8ByteSize ≤ size + 3 := by
  have hfile : (longName size ++ ".js").utf8ByteSize = size + 3 := by
    rw [String.utf8ByteSize_append, utf8ByteSize_longName]
    rfl
  simp only [longNames, List.forall_mem_append, List.forall_mem_singleton]
  refine ⟨fun n hn => ?_, hfile.le⟩
  rw [List.eq_of_mem_replicate hn, utf8ByteSize_longName]
  exact Nat.le_add_right size 3

theorem isEntryName_of_mem_longNames (depth : Nat) (hsize : 2 < size) :
    ∀ n ∈ longNames depth size, IsEntryName n := by
  have hfolder : IsEntryName (longName size ++ "") :=
    isEntryName_longName_append hsize (by decide)
  have hfile : IsEntryName (longName size ++ ".js") :=
    isEntryName_longName_append hsize (by decide)
  rw [String.append_empty] at hfolder
  simp only [longNames, List.forall_mem_append, List.forall_mem_singleton]
  exact ⟨fun n hn => List.eq_of_mem_replicate hn ▸ hfolder, hfile⟩

def deepEntries : List (String × Entry) :=
  [(longName 250, Entry.chain (longNames 15 250) (.file "deep".toUTF8))]

def deepPath : String := joinFields '/' (longNames 16 250)

theorem folder_deepEntries :
    Entry.folder deepEntries = Entry.chain (longNames 16 250) (.file "deep".toUTF8) := rfl

theorem segments_deepPath : Path.segments deepPath = longNames 16 250 :=
  Path.segments_joinFields (by simp [longNames]) fun n hn =>
    (isEntryName_of_mem_longNames 16 (by decide) n hn).toIsSegment

theorem at?_deepPath :
    (Entry.folder deepEntries).at? (Path.segments deepPath) = some (.file "deep".toUTF8) := by
  rw [segments_deepPath, folder_deepEntries]
  exact Entry.at?_chain _ _

theorem wellFormed_deepEntries : (Entry.folder deepEntries).WellFormed := by
  rw [folder_deepEntries]
  exact Entry.wellFormed_chain (isEntryName_of_mem_longNames 16 (by decide)) (.file _)

theorem linkFree_deepEntries : (Entry.folder deepEntries).LinkFree := by
  rw [folder_deepEntries]
  exact Entry.linkFree_chain _ (.file _)

theorem leadsToSource_deepPath :
    Discovery.LeadsToSource Exclusions.standard (.folder deepEntries) (Path.segments deepPath) := by
  refine ⟨⟨_, at?_deepPath⟩, ?_, ?_⟩
  · rw [segments_deepPath, longNames, List.dropLast_concat]
    intro n hn hexcluded
    have hsize : n.utf8ByteSize = 250 :=
      List.eq_of_mem_replicate hn ▸ utf8ByteSize_longName 250
    have hshort : ∀ m ∈ Exclusions.standard, m.utf8ByteSize < 250 := by decide
    have := hshort n hexcluded
    omega
  · refine ⟨longName 250 ++ ".js", ?_, longName 250, "js", by decide, ?_⟩
    · rw [segments_deepPath, longNames, List.getLast?_concat]
    · rw [String.append_assoc]
      rfl

theorem no_backslash_deepPath : '\\' ∉ deepPath.toList := by
  rw [deepPath, mem_joinFields (by decide)]
  rintro ⟨n, hn, hc⟩
  rw [longNames, List.mem_append, List.mem_replicate, List.mem_singleton] at hn
  rcases hn with ⟨_, rfl⟩ | rfl
  · cases eq_of_mem_longName hc
  · rw [String.toList_append, List.mem_append] at hc
    rcases hc with hc | hc
    · cases eq_of_mem_longName hc
    · exact absurd hc (by decide)

theorem not_fitsBelow_deepPath : ¬ FitsBelow ["repos", "o", "n"] (Path.segments deepPath) := by
  intro hfits
  have hpath := hfits.1
  simp only [segments_deepPath, longNames, placeBytes_append, placeBytes_replicate, placeBytes_cons,
    String.utf8ByteSize_append, utf8ByteSize_longName, maxPathBytes] at hpath
  omega

theorem readSource_deep : readSource "/repos" (shelfHost deepEntries) "o" "n" deepPath =
    .error (.fileMissing deepPath .nameTooLong) := by
  have hplain : IsPlain deepPath :=
    isPlain_of_leadsToSource wellFormed_deepEntries leadsToSource_deepPath no_backslash_deepPath
  rw [hplain.readSource localPath_shelf (canonicalize_shelfHost _) at?_deepPath,
    if_neg not_fitsBelow_deepPath]

/-- A file whose name holds a backslash is not read by its path, nor is one whose path is too
long. -/
theorem misread_twin_deep :
    ((Entry.folder twinEntries).LinkFree ∧
      ∃ g, ((Source.builder {}).buildGraph (shelfHost twinEntries) (.store "/repos") "o" "n"
          none).value = .ok g ∧ "a\\b.js" ∈ g.ids ∧
        (Entry.folder twinEntries).at? (Path.segments "a\\b.js") = some (.file "odd".toUTF8) ∧
        readSource "/repos" (shelfHost twinEntries) "o" "n" "a\\b.js" = .ok "other") ∧
    (Entry.folder deepEntries).LinkFree ∧
      (∀ n ∈ Path.segments deepPath, n.utf8ByteSize ≤ maxNameBytes) ∧
      ∃ g, ((Source.builder {}).buildGraph (shelfHost deepEntries) (.store "/repos") "o" "n"
          none).value = .ok g ∧ deepPath ∈ g.ids ∧
        (Entry.folder deepEntries).at? (Path.segments deepPath) = some (.file "deep".toUTF8) ∧
        readSource "/repos" (shelfHost deepEntries) "o" "n" deepPath =
          .error (.fileMissing deepPath .nameTooLong) := by
  have htwin : (Entry.folder twinEntries).LinkFree := by decide
  obtain ⟨g, hg, hids⟩ := GraphBuilder.exists_buildGraph (b := Source.builder {})
    (wellFormed_shelfHost wellFormed_twinEntries) localPath_shelf (resolve_shelfHost _) htwin
  obtain ⟨g', hg', hids'⟩ := GraphBuilder.exists_buildGraph (b := Source.builder {})
    (wellFormed_shelfHost wellFormed_deepEntries) localPath_shelf (resolve_shelfHost _)
    linkFree_deepEntries
  have hnames : ∀ n ∈ Path.segments deepPath, n.utf8ByteSize ≤ maxNameBytes := by
    rw [segments_deepPath]
    exact fun n hn => (utf8ByteSize_of_mem_longNames 16 250 n hn).trans (by decide)
  exact ⟨⟨htwin, g, hg, (hids _).mpr (leadsToSource_twin _ (by simp)), at?_twin.1, readSource_twin⟩,
    linkFree_deepEntries, hnames, g', hg', (hids' _).mpr leadsToSource_deepPath, at?_deepPath,
    readSource_deep⟩

end Checkout

end ImportAtlas
