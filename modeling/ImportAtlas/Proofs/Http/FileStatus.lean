import ImportAtlas.Proofs.Checkout.Address
import ImportAtlas.Proofs.Checkout.Depot
import ImportAtlas.Proofs.Http.Agreement

/-!
# The status of a file's answer

A request for one file is answered from the tree below the directory of the checkouts, if that tree
holds no links: with the text of the file, with 404 if some folder on the way lacks the next name,
and with 400 for every other reason. A file in the place of a folder is such a reason, and so is a
real path that is too long.
-/

namespace ImportAtlas

open Text Host

namespace Checkout

variable {reposDir owner name path text : String} {host : Host}

/-- The written form of a path leads to something below the folder it starts from. -/
structure IsInside (path : String) : Prop where
  filled : Path.normalize path ≠ ""
  stays : Path.leavesRoot (Path.normalize path) = false

/-- The names that lead from the directory of the checkouts to a file of one of them. -/
def fileNames (owner name path : String) : List String :=
  [owner, name] ++ Path.segments (Path.normalize path)

/-- A text is that of a regular file of a checkout, and neither its real path nor a name in it is
too long. -/
structure Opens (reposDir : String) (host : Host) (owner name path text : String) : Prop where
  identity : IsIdentity owner name
  inside : IsInside path
  no_nul : ∀ n ∈ fileNames owner name path, '\x00' ∉ n.toList
  file : ∃ f content, host.realBase reposDir = .ok f ∧
    f.entry.at? (fileNames owner name path) = some (.file content) ∧
    FitsBelow f.place (fileNames owner name path) ∧ decodeText content = .ok text

/-- Some folder on the way to a file lacks the next name, be it on the way to the checkout or in
it. -/
structure Misses (reposDir : String) (host : Host) (owner name path : String) : Prop where
  identity : IsIdentity owner name
  inside : IsInside path
  lacking : host.LacksBelow reposDir [owner, name] ∨
    (∀ n ∈ fileNames owner name path, '\x00' ∉ n.toList) ∧
      host.LacksBelow reposDir (fileNames owner name path)

theorem fileNames_ne_nil (owner name path : String) : fileNames owner name path ≠ [] :=
  List.cons_ne_nil owner _

theorem IsInside.segments (h : IsInside path) :
    Path.segments (Path.normalize path) ≠ [] ∧
      ∀ n ∈ Path.segments (Path.normalize path), IsSegment n := by
  obtain ⟨segs, hne, hsegs, hnormal⟩ := Path.exists_segments_of_normalize h.filled h.stays
  rw [hnormal, Path.segments_joinFields hne hsegs]
  exact ⟨hne, hsegs⟩

theorem IsInside.isSegment_fileNames (h : IsInside path) (hid : IsIdentity owner name) :
    ∀ n ∈ fileNames owner name path, IsSegment n :=
  List.forall_mem_append.mpr ⟨hid.isSegment, h.segments.2⟩

theorem checkout_ne_empty (hid : IsIdentity owner name) :
    Location.joinAll reposDir [owner, name] ≠ "" :=
  Location.joinAll_ne_empty_of_ne_nil (List.cons_ne_nil _ _) hid.isSegment

theorem IsInside.join_normalize (h : IsInside path) (hid : IsIdentity owner name) :
    Location.join (Location.joinAll reposDir [owner, name]) (Path.normalize path) =
      Location.joinAll reposDir (fileNames owner name path) := by
  obtain ⟨hne, hsegs⟩ := h.segments
  rw [fileNames, Location.joinAll_append,
    Location.joinAll_eq_join (checkout_ne_empty hid) hne hsegs, Path.joinFields_segments]

/-! ## What a read depends on -/

theorem written_of_isInside (hblank : isAllBlank path = false) (h : IsInside path) :
    written path = .ok (Path.normalize path) := by
  rw [written, if_neg (by simp [hblank]), if_neg (by simp [h.filled, h.stays])]

theorem written_of_not_isInside (hblank : isAllBlank path = false) (h : ¬ IsInside path) :
    written path = .error (.invalidFilePath path) := by
  rw [written, if_neg (by simp [hblank]), if_pos]
  by_contra hout
  rw [Bool.or_eq_true, not_or, String.isEmpty_iff, Bool.not_eq_true] at hout
  exact h ⟨hout.1, hout.2⟩

/-- A path that leads out, or an identity that is none, is refused before anything is looked up. -/
theorem exists_refusal (hblank : isAllBlank path = false)
    (h : ¬ (IsIdentity owner name ∧ IsInside path)) :
    ∃ e, readSource reposDir host owner name path = .error e ∧ e.isNotFound = false := by
  by_cases hin : IsInside path
  · obtain ⟨part, value, hroot⟩ := localPath_eq_error reposDir fun hid => h ⟨hid, hin⟩
    refine ⟨.invalidIdentity part value, ?_, rfl⟩
    rw [readSource_of_refused hroot, written_of_isInside hblank hin]
    rfl
  · refine ⟨.invalidFilePath path, ?_, rfl⟩
    rw [readSource_eq, located, written_of_not_isInside hblank hin]
    rfl

theorem readSource_of_isInside (hblank : isAllBlank path = false) (h : IsInside path)
    (hid : IsIdentity owner name) :
    readSource reposDir host owner name path =
      match host.canonicalize (Location.joinAll reposDir [owner, name]) with
      | .error e => .error (.checkoutMissing owner name e)
      | .ok root =>
        match host.canonicalize (Location.joinAll reposDir (fileNames owner name path)) with
        | .error e => .error (.fileMissing (Path.normalize path) e)
        | .ok file => opened path root file := by
  have hroot := localPath_eq reposDir hid
  cases hres : host.canonicalize (Location.joinAll reposDir [owner, name]) with
  | error e =>
      rw [readSource_of_error hroot hres, written_of_isInside hblank h]
      rfl
  | ok root =>
      rw [readSource_eq, located_eq hroot hres, written_of_isInside hblank h]
      simp only [bind, Except.bind, h.join_normalize hid]
      cases host.canonicalize (Location.joinAll reposDir (fileNames owner name path)) <;> rfl

/-- Without links no path that stays inside leads out of the checkout. -/
theorem place_le_place (hfree : host.IsLinkFreeAt reposDir) (hid : IsIdentity owner name)
    (h : IsInside path) {root file : Found}
    (hroot : host.canonicalize (Location.joinAll reposDir [owner, name]) = .ok root)
    (hfile : host.canonicalize (Location.joinAll reposDir (fileNames owner name path)) =
      .ok file) : root.place <+: file.place := by
  obtain ⟨_, f, hf, _, _, hplace⟩ :=
    (canonicalize_joinAll_eq_ok_iff hfree (List.cons_ne_nil _ _) hid.isSegment).mp hroot
  obtain ⟨_, g, hg, _, _, hplace'⟩ := (canonicalize_joinAll_eq_ok_iff hfree
    (fileNames_ne_nil _ _ _) (h.isSegment_fileNames hid)).mp hfile
  obtain rfl : f = g := Except.ok.inj (hf.symm.trans hg)
  rw [hplace, hplace', fileNames, ← List.append_assoc]
  exact List.prefix_append _ _

/-- What keeps the checkout from being reached keeps all its files from it. -/
theorem canonicalize_file_of_error {e : HostError} (hfree : host.IsLinkFreeAt reposDir)
    (hid : IsIdentity owner name) (h : IsInside path)
    (hnul : ∀ n ∈ fileNames owner name path, '\x00' ∉ n.toList)
    (hroot : host.canonicalize (Location.joinAll reposDir [owner, name]) = .error e) :
    host.canonicalize (Location.joinAll reposDir (fileNames owner name path)) = .error e :=
  canonicalize_joinAll_append_of_error hfree (List.cons_ne_nil owner [name])
    (h.isSegment_fileNames hid) hnul hroot

theorem readSource_of_file (hblank : isAllBlank path = false) (hfree : host.IsLinkFreeAt reposDir)
    (hid : IsIdentity owner name) (h : IsInside path)
    (hnul : ∀ n ∈ fileNames owner name path, '\x00' ∉ n.toList) {place : List String}
    {content : ByteArray}
    (hfile : host.canonicalize (Location.joinAll reposDir (fileNames owner name path)) =
      .ok ⟨place, .file content⟩) :
    readSource reposDir host owner name path =
      (decodeText content).mapError (.unreadable (Path.normalize path)) := by
  rw [readSource_of_isInside hblank h hid]
  cases hroot : host.canonicalize (Location.joinAll reposDir [owner, name]) with
  | error e =>
      rw [canonicalize_file_of_error hfree hid h hnul hroot] at hfile
      cases hfile
  | ok root =>
      have hinside := Location.startsWith_iff.mpr (place_le_place hfree hid h hroot hfile)
      rw [hfile]
      simp only [opened, hinside]
      rfl

theorem exists_file_of_readSource (hblank : isAllBlank path = false) (hid : IsIdentity owner name)
    (h : IsInside path) (hread : readSource reposDir host owner name path = .ok text) :
    ∃ place content, host.canonicalize (Location.joinAll reposDir (fileNames owner name path)) =
      .ok ⟨place, .file content⟩ ∧ decodeText content = .ok text := by
  rw [readSource_of_isInside hblank h hid] at hread
  split at hread
  · cases hread
  · split at hread
    · cases hread
    next file hfile =>
      obtain ⟨_, content, hcontent, hdecoded⟩ := opened_ok hread
      obtain ⟨place, e⟩ := file
      obtain rfl : e = .file content := hcontent
      exact ⟨place, content, hfile, hdecoded⟩

/-- A read gives a text exactly if it is that of a file in its place. -/
theorem readSource_eq_ok_iff (hblank : isAllBlank path = false)
    (hfree : host.IsLinkFreeAt reposDir) :
    readSource reposDir host owner name path = .ok text ↔
      Opens reposDir host owner name path text := by
  constructor
  · intro hread
    by_cases hvalid : IsIdentity owner name ∧ IsInside path
    · obtain ⟨hid, hin⟩ := hvalid
      obtain ⟨place, content, hfile, hdecoded⟩ := exists_file_of_readSource hblank hid hin hread
      obtain ⟨hnul, f, hf, hat, hfits, _⟩ := (canonicalize_joinAll_eq_ok_iff hfree
        (fileNames_ne_nil _ _ _) (hin.isSegment_fileNames hid)).mp hfile
      exact ⟨hid, hin, hnul, f, content, hf, hat, hfits, hdecoded⟩
    · obtain ⟨e, hrefused, _⟩ := exists_refusal hblank hvalid
      rw [hrefused] at hread
      cases hread
  · rintro ⟨hid, hin, hnul, f, content, hf, hat, hfits, hdecoded⟩
    have hfile : host.canonicalize (Location.joinAll reposDir (fileNames owner name path)) =
        .ok ⟨f.place ++ fileNames owner name path, .file content⟩ :=
      (canonicalize_joinAll_eq_ok_iff hfree (fileNames_ne_nil _ _ _)
        (hin.isSegment_fileNames hid)).mpr ⟨hnul, f, hf, hat, hfits, rfl⟩
    rw [readSource_of_file hblank hfree hid hin hnul hfile, hdecoded]
    rfl

theorem not_isNotFound_of_opened {root file : Found} {e : CheckoutError}
    (h : opened path root file = .error e) : e.isNotFound = false := by
  unfold opened at h
  split at h
  · cases h
    rfl
  · split at h
    next content _ =>
      -- Bytes that are no text are the one reason left.
      unfold decodeText at h
      split at h
      · cases h
      · cases h
        rfl
    next =>
      cases h
      rfl

/-- Below a valid identity, a read fails because something is missing exactly if the host says so of
the checkout or of the file. -/
theorem isNotFound_iff_canonicalize (hblank : isAllBlank path = false)
    (hfree : host.IsLinkFreeAt reposDir) (hid : IsIdentity owner name) (h : IsInside path) :
    (∃ e, readSource reposDir host owner name path = .error e ∧ e.isNotFound = true) ↔
      host.canonicalize (Location.joinAll reposDir [owner, name]) = .error .notFound ∨
        host.canonicalize (Location.joinAll reposDir (fileNames owner name path)) =
          .error .notFound := by
  have hmissing (e : HostError) : (CheckoutError.checkoutMissing owner name e).isNotFound = true ↔
      e = .notFound := by simp [CheckoutError.isNotFound, CheckoutError.hostCause]
  have hlost (e : HostError) : (CheckoutError.fileMissing (Path.normalize path) e).isNotFound =
      true ↔ e = .notFound := by simp [CheckoutError.isNotFound, CheckoutError.hostCause]
  rw [readSource_of_isInside hblank h hid]
  cases hroot : host.canonicalize (Location.joinAll reposDir [owner, name]) with
  | error cause =>
      have hsame : host.canonicalize (Location.joinAll reposDir (fileNames owner name path)) =
          .error .notFound → cause = .notFound := by
        intro hfile
        have hnul := ((canonicalize_joinAll_eq_notFound_iff hfree (fileNames_ne_nil _ _ _)
          (h.isSegment_fileNames hid)).mp hfile).1
        rw [canonicalize_file_of_error hfree hid h hnul hroot] at hfile
        exact Except.error.inj hfile
      simpa [hmissing] using hsame
  | ok root =>
      cases hfile : host.canonicalize (Location.joinAll reposDir (fileNames owner name path)) with
      | error cause => simp [hlost]
      | ok file =>
          have hopened (e : CheckoutError) : opened path root file = .error e →
              ¬ e.isNotFound = true := fun he => by simp [not_isNotFound_of_opened he]
          simpa using hopened

theorem isNotFound_readSource_iff (hblank : isAllBlank path = false)
    (hfree : host.IsLinkFreeAt reposDir) :
    (∃ e, readSource reposDir host owner name path = .error e ∧ e.isNotFound = true) ↔
      Misses reposDir host owner name path := by
  by_cases hvalid : IsIdentity owner name ∧ IsInside path
  · obtain ⟨hid, hin⟩ := hvalid
    have hidnul : ∀ n ∈ [owner, name], '\x00' ∉ n.toList :=
      fun n hn => (hid.isEntryName n hn).no_nul
    rw [isNotFound_iff_canonicalize hblank hfree hid hin,
      canonicalize_joinAll_eq_notFound_iff hfree (List.cons_ne_nil _ _) hid.isSegment,
      canonicalize_joinAll_eq_notFound_iff hfree (fileNames_ne_nil _ _ _)
        (hin.isSegment_fileNames hid), and_iff_right hidnul]
    exact ⟨fun hlacking => ⟨hid, hin, hlacking⟩, fun hmisses => hmisses.lacking⟩
  · refine iff_of_false ?_ fun hmisses => hvalid ⟨hmisses.identity, hmisses.inside⟩
    rintro ⟨e, hread, hmissing⟩
    obtain ⟨e', hrefused, hother⟩ := exists_refusal hblank hvalid
    rw [hrefused] at hread
    rw [← Except.error.inj hread, hother] at hmissing
    cases hmissing

/-- Names that lead through a file lack nothing. -/
theorem not_lacksBelow_behind {f : Found} {names above below : List String}
    (hf : host.realBase reposDir = .ok f) (hnames : names = above ++ below)
    {content : ByteArray} (hat : f.entry.at? above = some (.file content)) :
    ¬ host.LacksBelow reposDir names := by
  rintro (hmissing | ⟨g, front, hg, ⟨more, hmore⟩, _, hlacks⟩)
  · rw [hf] at hmissing
    cases hmissing
  · obtain rfl := Except.ok.inj (hf.symm.trans hg)
    have hall : f.entry.Lacks (above ++ below) := hnames ▸ hmore ▸ hlacks.append more
    exact Entry.not_lacks_behind hat rfl hall

/-- A file that stands where a folder is asked for is not missing, and nothing behind it is. -/
theorem not_opens_behind {f : Found} {above below : List String} {content : ByteArray}
    (hf : host.realBase reposDir = .ok f) (hbelow : below ≠ [])
    (hnames : fileNames owner name path = above ++ below)
    (hat : f.entry.at? above = some (.file content)) :
    (¬ ∃ text, Opens reposDir host owner name path text) ∧
      ¬ Misses reposDir host owner name path := by
  constructor
  · rintro ⟨text, hopens⟩
    obtain ⟨g, other, hg, hother, _⟩ := hopens.file
    obtain rfl := Except.ok.inj (hf.symm.trans hg)
    obtain ⟨n, rest, rfl⟩ := List.exists_cons_of_ne_nil hbelow
    rw [hnames, Entry.at?_append, hat, Option.bind_some, Entry.at?_cons] at hother
    cases hother
  · intro hmisses
    rcases hmisses.lacking with hlacks | ⟨_, hlacks⟩
    · exact not_lacksBelow_behind hf hnames hat (hlacks.append _)
    · exact not_lacksBelow_behind hf hnames hat hlacks

end Checkout

namespace Http

variable {config : Config} {ws : Workspace} {owner name path text : String} {r : Request}

/-- A request for the text of one file. -/
structure AsksFile (r : Request) (owner name path : String) : Prop where
  method : r.method = "GET"
  target : r.path = "/api/file"
  fields : ∃ get, queryFields ["owner", "name", "path"] r.query = .ok get ∧
    Api.nonBlank (get "owner") = some owner ∧ Api.nonBlank (get "name") = some name ∧
    Api.nonBlank (get "path") = some path

theorem AsksFile.not_blank (h : AsksFile r owner name path) : isAllBlank path = false := by
  obtain ⟨get, _, _, _, hpath⟩ := h.fields
  exact (nonBlank_eq_some.mp hpath).2

theorem isTargetPath_file : IsTargetPath "/api/file" := ⟨⟨_, by simp; rfl⟩, by simp⟩

theorem asksFile_getRequest (howner : isAllBlank owner = false) (hname : isAllBlank name = false)
    (hpath : isAllBlank path = false) :
    AsksFile (getRequest "/api/file" [("owner", owner), ("name", name), ("path", path)])
      owner name path where
  method := rfl
  target := path_getRequest isTargetPath_file _
  fields := by
    refine ⟨_, queryFields_getRequest isTargetPath_file (by simp) (by simp) _, ?_, ?_, ?_⟩
    · exact nonBlank_eq_some.mpr ⟨by simp, howner⟩
    · exact nonBlank_eq_some.mpr ⟨by simp, hname⟩
    · exact nonBlank_eq_some.mpr ⟨by simp, hpath⟩

/-- The answer that shows the text of a file. -/
def fileResponse (owner name path text : String) : Response :=
  .ofJson 200 (.obj [("owner", .str owner), ("name", .str name), ("path", .str path),
    ("content", .str text)])

theorem value_respond_file (h : AsksFile r owner name path) (config : Config) (ws : Workspace) :
    (Api.respond config ws r).value =
      match Checkout.readSource config.reposDir ws.host owner name path with
      | .ok text => (ws, (fileResponse owner name path text).open)
      | .error e => (ws, (Api.failure 400 e).open) := by
  obtain ⟨get, hget, howner, hname, hpath⟩ := h.fields
  rw [value_respond_get h.method (h.target ▸ rfl : Api.route? r.path = some ("GET", Api.file))]
  simp only [Api.file, Api.withFileFields, Api.withFields, hget, howner, hname, hpath,
    Logged.value_bind]
  cases Checkout.readSource config.reposDir ws.host owner name path <;> rfl

/-- Which status a request for a file is answered with, and what with it. -/
structure FileAnswers (config : Config) (ws : Workspace) (r : Request) (owner name path : String) :
    Prop where
  found : (Api.respond config ws r).value.2.status = 200 ↔
    ∃ text, Checkout.Opens config.reposDir ws.host owner name path text
  content : ∀ text, Checkout.Opens config.reposDir ws.host owner name path text →
    (Api.respond config ws r).value = (ws, (fileResponse owner name path text).open)
  missing : (Api.respond config ws r).value.2.status = 404 ↔
    Checkout.Misses config.reposDir ws.host owner name path
  otherwise : (Api.respond config ws r).value.2.status = 400 ↔
    (¬ ∃ text, Checkout.Opens config.reposDir ws.host owner name path text) ∧
      ¬ Checkout.Misses config.reposDir ws.host owner name path
  behind : ∀ f above below content, ws.host.realBase config.reposDir = .ok f → below ≠ [] →
    Checkout.fileNames owner name path = above ++ below →
    f.entry.at? above = some (.file content) → (Api.respond config ws r).value.2.status = 400

theorem value_respond_of_opens (h : AsksFile r owner name path)
    (hfree : ws.host.IsLinkFreeAt config.reposDir)
    (hopens : Checkout.Opens config.reposDir ws.host owner name path text) :
    (Api.respond config ws r).value = (ws, (fileResponse owner name path text).open) := by
  rw [value_respond_file h, (Checkout.readSource_eq_ok_iff h.not_blank hfree).mpr hopens]

theorem status_of_misses (h : AsksFile r owner name path)
    (hfree : ws.host.IsLinkFreeAt config.reposDir)
    (hmisses : Checkout.Misses config.reposDir ws.host owner name path) :
    (Api.respond config ws r).value.2.status = 404 := by
  obtain ⟨e, hread, hmissing⟩ :=
    (Checkout.isNotFound_readSource_iff h.not_blank hfree).mpr hmisses
  rw [value_respond_file h, hread]
  exact if_pos hmissing

theorem status_of_neither (h : AsksFile r owner name path)
    (hfree : ws.host.IsLinkFreeAt config.reposDir)
    (hclosed : ¬ ∃ text, Checkout.Opens config.reposDir ws.host owner name path text)
    (hthere : ¬ Checkout.Misses config.reposDir ws.host owner name path) :
    (Api.respond config ws r).value.2.status = 400 := by
  rw [value_respond_file h]
  cases hread : Checkout.readSource config.reposDir ws.host owner name path with
  | ok text =>
      exact absurd ⟨text, (Checkout.readSource_eq_ok_iff h.not_blank hfree).mp hread⟩ hclosed
  | error e =>
      refine if_neg fun hmissing => hthere ?_
      exact (Checkout.isNotFound_readSource_iff h.not_blank hfree).mp ⟨e, hread, hmissing⟩

/-- Where the directory of the checkouts holds no links, a file is answered with its text, with 404
if some folder on the way lacks the next name, and else with 400. -/
theorem fileAnswers (hasks : AsksFile r owner name path)
    (hfree : ws.host.IsLinkFreeAt config.reposDir) : FileAnswers config ws r owner name path := by
  have hfound : (∃ text, Checkout.Opens config.reposDir ws.host owner name path text) →
      (Api.respond config ws r).value.2.status = 200 := by
    rintro ⟨text, hopens⟩
    rw [value_respond_of_opens hasks hfree hopens]
    rfl
  have hotherwise := status_of_neither hasks hfree
  have hrefused : (¬ ∃ text, Checkout.Opens config.reposDir ws.host owner name path text) ∧
      ¬ Checkout.Misses config.reposDir ws.host owner name path →
        (Api.respond config ws r).value.2.status = 400 := fun h => hotherwise h.1 h.2
  obtain ⟨h400, h404, _, h200, _⟩ :=
    statuses_iff hrefused (status_of_misses hasks hfree) False.elim hfound (by tauto)
  refine ⟨h200, fun text => value_respond_of_opens hasks hfree, h404, h400, ?_⟩
  intro f above below content hbase hbelow hnames hat
  obtain ⟨hclosed, hthere⟩ := Checkout.not_opens_behind hbase hbelow hnames hat
  exact hotherwise hclosed hthere

/-! ### A file, a missing one, and one behind a file -/

theorem realBase_pair : pairWorkspace.host.realBase "/repos" =
    .ok ⟨["repos"], .folder [("o", .folder [("n", .folder pairEntries)])]⟩ := by
  cbv

theorem isLinkFreeAt_pair : pairWorkspace.host.IsLinkFreeAt (configAt "/repos").reposDir := by
  intro f hf
  obtain rfl := Except.ok.inj (realBase_pair.symm.trans hf)
  decide

theorem isIdentity_pair : Checkout.IsIdentity "o" "n" := ⟨by decide, by decide⟩

theorem opens_pair : Checkout.Opens (configAt "/repos").reposDir pairWorkspace.host "o" "n" "./a.js"
    "require('./b')" where
  identity := isIdentity_pair
  inside := ⟨by decide, by decide⟩
  no_nul := by decide
  file := by
    refine ⟨_, _, realBase_pair, ?_, by decide, decodeText_toUTF8 _⟩
    rw [show Checkout.fileNames "o" "n" "./a.js" = ["o", "n", "a.js"] from by decide]
    rfl

theorem misses_pair :
    Checkout.Misses (configAt "/repos").reposDir pairWorkspace.host "o" "n" "x/c.js" where
  identity := isIdentity_pair
  inside := ⟨by decide, by decide⟩
  lacking := by
    refine .inr ⟨by decide, .inr ⟨_, ["o", "n", "x"], realBase_pair, ?_, by decide, ?_⟩⟩
    · rw [show Checkout.fileNames "o" "n" "x/c.js" = ["o", "n", "x", "c.js"] from by decide]
      exact List.prefix_append ["o", "n", "x"] ["c.js"]
    · exact ⟨["o", "n"], "x", [], _, rfl, rfl, rfl, by decide⟩

def askPair (path : String) : Request :=
  getRequest "/api/file" [("owner", "o"), ("name", "n"), ("path", path)]

/-- A file is shown, one in a missing folder is missing, and one behind a file is asked for
wrongly. -/
theorem fileAnswers_pair :
    (Api.respond (configAt "/repos") pairWorkspace (askPair "./a.js")).value =
        (pairWorkspace, (fileResponse "o" "n" "./a.js" "require('./b')").open) ∧
      (Api.respond (configAt "/repos") pairWorkspace (askPair "x/c.js")).value.2.status = 404 ∧
      (Api.respond (configAt "/repos") pairWorkspace
        (askPair "a.js/c.js")).value.2.status = 400 := by
  have hasks (path : String) (hpath : isAllBlank path = false) :
      AsksFile (askPair path) "o" "n" path := asksFile_getRequest (by decide) (by decide) hpath
  have hbehind : Checkout.fileNames "o" "n" "a.js/c.js" = ["o", "n", "a.js"] ++ ["c.js"] := by
    decide
  refine ⟨?_, ?_, ?_⟩
  · exact (fileAnswers (hasks "./a.js" (by decide)) isLinkFreeAt_pair).content _ opens_pair
  · exact (fileAnswers (hasks "x/c.js" (by decide)) isLinkFreeAt_pair).missing.mpr misses_pair
  · exact (fileAnswers (hasks "a.js/c.js" (by decide)) isLinkFreeAt_pair).behind _ _ _ _
      realBase_pair (List.cons_ne_nil _ _) hbehind rfl

end Http

end ImportAtlas
