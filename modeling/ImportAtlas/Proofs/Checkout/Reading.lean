import ImportAtlas.Checkout.Store
import ImportAtlas.Proofs.Host.Contents
import ImportAtlas.Proofs.Host.Reach

/-!
# Reading the files of a checkout

Real paths are asked for of both the checkout and the file, with all links followed, and the file is
opened only if its real place lies at or below that of the checkout. So what a read says depends on
no bytes that are stored elsewhere.
-/

namespace ImportAtlas.Checkout

open Text Host

variable {reposDir owner name path text : String} {host : Host} {r f : Found}
  {change : List String → ByteArray → ByteArray}

theorem bind_eq_ok {ε α β : Type} {x : Except ε α} {g : α → Except ε β} {b : β} :
    (x >>= g) = .ok b ↔ ∃ a, x = .ok a ∧ g a = .ok b := by
  cases x <;> simp [bind, Except.bind]

theorem mapError_eq_ok {ε ε' α : Type} {x : Except ε α} {g : ε → ε'} {a : α} :
    x.mapError g = .ok a ↔ x = .ok a := by
  cases x <;> simp [Except.mapError]

/-- The written form of a path, unless it is blank or leads out of the folder it starts from. -/
def written (path : String) : Except CheckoutError String :=
  if isAllBlank path then .error .noFilePath
  else if (Path.normalize path).isEmpty || Path.leavesRoot (Path.normalize path) then
    .error (.invalidFilePath path)
  else .ok (Path.normalize path)

/-- What the folder of a checkout and a path in it lead to. -/
def located (reposDir : String) (host : Host) (owner name path : String) :
    Except CheckoutError (Found × Found) := do
  let normalized ← written path
  let root ← localPath reposDir owner name
  let realRoot ← (host.canonicalize root).mapError (.checkoutMissing owner name)
  let realFile ←
    (host.canonicalize (Location.join root normalized)).mapError (.fileMissing normalized)
  return (realRoot, realFile)

/-- The text of what was found, unless it lies outside of the checkout. -/
def opened (path : String) (realRoot realFile : Found) : Except CheckoutError String :=
  if !Location.startsWith realFile.place realRoot.place then .error (.invalidFilePath path)
  else
    match realFile.entry with
    | .file content => (decodeText content).mapError (.unreadable (Path.normalize path))
    | _ => .error (.unreadable (Path.normalize path) .isDirectory)

theorem readSource_eq (reposDir : String) (host : Host) (owner name path : String) :
    readSource reposDir host owner name path =
      located reposDir host owner name path >>= fun found => opened path found.1 found.2 := by
  unfold readSource located written
  simp only [bind, Except.bind, pure, Except.pure, throw, throwThe, MonadExceptOf.throw]
  by_cases hblank : isAllBlank path = true
  · rw [if_pos hblank, if_pos hblank]
  by_cases hout : (Path.normalize path).isEmpty || Path.leavesRoot (Path.normalize path)
  · rw [if_neg hblank, if_neg hblank, if_pos hout, if_pos hout]
  rw [if_neg hblank, if_neg hblank, if_neg hout, if_neg hout]
  cases hroot : localPath reposDir owner name with
  | error e => rfl
  | ok root =>
      simp only
      cases host.canonicalize root with
      | error e => rfl
      | ok r =>
          cases host.canonicalize (Location.join root (Path.normalize path)) with
          | error e => rfl
          | ok f => rfl

theorem written_ok {normalized : String} (h : written path = .ok normalized) :
    normalized = Path.normalize path := by
  unfold written at h
  split at h
  · cases h
  · split at h
    · cases h
    · exact (Except.ok.inj h).symm

theorem located_ok (h : located reposDir host owner name path = .ok (r, f)) :
    ∃ root, localPath reposDir owner name = .ok root ∧ host.canonicalize root = .ok r ∧
      host.canonicalize (Location.join root (Path.normalize path)) = .ok f := by
  unfold located at h
  obtain ⟨normalized, hwritten, h⟩ := bind_eq_ok.mp h
  obtain ⟨root, hroot, h⟩ := bind_eq_ok.mp h
  obtain ⟨realRoot, hrealRoot, h⟩ := bind_eq_ok.mp h
  obtain ⟨realFile, hrealFile, h⟩ := bind_eq_ok.mp h
  cases h
  rw [written_ok hwritten] at hrealFile
  exact ⟨root, hroot, mapError_eq_ok.mp hrealRoot, mapError_eq_ok.mp hrealFile⟩

theorem opened_ok (h : opened path r f = .ok text) :
    r.place <+: f.place ∧ ∃ content, f.entry = .file content ∧ decodeText content = .ok text := by
  unfold opened at h
  split at h
  · cases h
  next hinside =>
    rw [Bool.not_eq_true, Bool.not_eq_false', Location.startsWith_iff] at hinside
    refine ⟨hinside, ?_⟩
    cases hentry : f.entry with
    | file content =>
        rw [hentry] at h
        refine ⟨content, rfl, ?_⟩
        cases hdecoded : decodeText content with
        | error e =>
            simp only [hdecoded] at h
            cases h
        | ok decoded =>
            simp only [hdecoded] at h
            cases h
            rfl
    | link target =>
        rw [hentry] at h
        cases h
    | folder entries =>
        rw [hentry] at h
        cases h

theorem located_rewrite (reposDir : String) (host : Host) (owner name path : String) :
    located reposDir (host.rewrite change) owner name path =
      (located reposDir host owner name path).map
        (Prod.map (Found.rewrite change) (Found.rewrite change)) := by
  unfold located
  simp only [canonicalize_rewrite, bind, Except.bind]
  cases written path with
  | error e => rfl
  | ok normalized =>
      cases localPath reposDir owner name with
      | error e => rfl
      | ok root =>
          simp only
          cases host.canonicalize root with
          | error e => rfl
          | ok r =>
              cases host.canonicalize (Location.join root normalized) with
              | error e => rfl
              | ok f => rfl

theorem opened_rewrite (h : ∀ place content, r.place <+: place → change place content = content) :
    opened path (r.rewrite change) (f.rewrite change) = opened path r f := by
  unfold opened Found.rewrite
  by_cases hinside : Location.startsWith f.place r.place = true
  · have hkept := fun content => h f.place content (Location.startsWith_iff.mp hinside)
    cases hentry : f.entry with
    | file content => rw [Entry.rewrite_file, hkept]
    | link target => rw [Entry.rewrite_link]
    | folder entries => rw [Entry.rewrite_folder]
  · rw [if_pos (by simpa using hinside), if_pos (by simpa using hinside)]

/-- A text is that of a regular file whose real place lies below that of the checkout. -/
def IsFileText (reposDir : String) (host : Host) (owner name path text : String) : Prop :=
  ∃ root r place content, localPath reposDir owner name = .ok root ∧
    host.canonicalize root = .ok r ∧
    host.canonicalize (Location.join root (Path.normalize path)) = .ok ⟨place, .file content⟩ ∧
    r.place <+: place ∧ host.root.at? place = some (.file content) ∧ decodeText content = .ok text

/-- No file at or below the real place of the checkout gets other bytes. -/
def Spares (change : List String → ByteArray → ByteArray) (reposDir : String) (host : Host)
    (owner name : String) : Prop :=
  ∀ root r, localPath reposDir owner name = .ok root → host.canonicalize root = .ok r →
    ∀ place content, r.place <+: place → change place content = content

theorem isFileText_of_readSource (h : readSource reposDir host owner name path = .ok text) :
    IsFileText reposDir host owner name path text := by
  rw [readSource_eq] at h
  obtain ⟨⟨r, f⟩, hlocated, hopened⟩ := bind_eq_ok.mp h
  obtain ⟨root, hroot, hr, hf⟩ := located_ok hlocated
  obtain ⟨hinside, content, hcontent, htext⟩ := opened_ok hopened
  obtain ⟨place, e⟩ := f
  obtain rfl : e = .file content := hcontent
  exact ⟨root, r, place, content, hroot, hr, hf, hinside, at?_of_canonicalize hf, htext⟩

theorem readSource_rewrite (h : Spares change reposDir host owner name) :
    readSource reposDir (host.rewrite change) owner name path =
      readSource reposDir host owner name path := by
  rw [readSource_eq, readSource_eq, located_rewrite]
  cases hlocated : located reposDir host owner name path with
  | error e => rfl
  | ok found =>
      obtain ⟨root, hroot, hr, _⟩ := located_ok hlocated
      exact opened_rewrite (h root found.1 hroot hr)

structure ReadsInside (reposDir : String) (host : Host) (owner name path : String) : Prop where
  inside : ∀ text, readSource reposDir host owner name path = .ok text →
    IsFileText reposDir host owner name path text
  isolated : ∀ change, Spares change reposDir host owner name →
    readSource reposDir (host.rewrite change) owner name path =
      readSource reposDir host owner name path

/-- Whatever the tree and its links, the identity and the way a path is written, a read says what a
file of the checkout holds, and tells nothing of the bytes of others. -/
theorem readsInside (reposDir : String) (host : Host) (owner name path : String) :
    ReadsInside reposDir host owner name path where
  inside _ h := isFileText_of_readSource h
  isolated _ h := readSource_rewrite h

/-! ### A checkout beside a secret -/

def tenantEntries : List (String × Entry) :=
  [("a.js", .file ⟨#[0x61]⟩), ("up", .link "../../../secret")]

def tenantHost : Host :=
  ⟨.folder [("repos", .folder [("o", .folder [("n", .folder tenantEntries)])]),
    ("secret", .folder [("key", .file ⟨#[0x62]⟩)])], []⟩

theorem canonicalize_tenant : tenantHost.canonicalize "/repos/o/n" =
    .ok ⟨["repos", "o", "n"], .folder tenantEntries⟩ := by
  cbv

theorem readSource_tenant : readSource "/repos" tenantHost "o" "n" "./b/../a.js" = .ok "a" := by
  have hwritten : written "./b/../a.js" = .ok "a.js" := by decide
  have hroot : localPath "/repos" "o" "n" = .ok "/repos/o/n" := by decide
  have hplain : ∀ n ∈ ["a.js"], IsEntryName n := by decide
  have hfile : tenantHost.canonicalize (Location.join "/repos/o/n" "a.js") =
      .ok ⟨["repos", "o", "n", "a.js"], .file ⟨#[0x61]⟩⟩ :=
    (canonicalize_joinAll_at canonicalize_tenant (by simp) hplain rfl (by simp)).trans
      (if_pos (by decide))
  have hlocated : located "/repos" tenantHost "o" "n" "./b/../a.js" =
      .ok (⟨["repos", "o", "n"], .folder tenantEntries⟩,
        ⟨["repos", "o", "n", "a.js"], .file ⟨#[0x61]⟩⟩) := by
    rw [located, hwritten, hroot]
    simp only [bind, Except.bind, canonicalize_tenant, Except.mapError, hfile]
    rfl
  rw [readSource_eq, hlocated]
  decide

/-- Every file outside of the checkout gets other bytes. -/
def exposed (place : List String) (content : ByteArray) : ByteArray :=
  if ["repos", "o", "n"] <+: place then content else ⟨#[0x63]⟩

theorem spares_exposed : Spares exposed "/repos" tenantHost "o" "n" := by
  intro root r hroot hr place content hinside
  have hname : localPath "/repos" "o" "n" = .ok "/repos/o/n" := by decide
  rw [hname, Except.ok.injEq] at hroot
  rw [← hroot, canonicalize_tenant, Except.ok.injEq] at hr
  rw [← hr] at hinside
  exact if_pos hinside

theorem readsInside_tenant :
    IsFileText "/repos" tenantHost "o" "n" "./b/../a.js" "a" ∧
      readSource "/repos" (tenantHost.rewrite exposed) "o" "n" "./b/../a.js" = .ok "a" ∧
      (tenantHost.rewrite exposed).root.at? ["secret", "key"] = some (.file ⟨#[0x63]⟩) := by
  have hreads := readsInside "/repos" tenantHost "o" "n" "./b/../a.js"
  refine ⟨hreads.inside "a" readSource_tenant, ?_, ?_⟩
  · rw [hreads.isolated exposed spares_exposed, readSource_tenant]
  · rw [Host.rewrite, Entry.at?_rewrite]
    rfl

end ImportAtlas.Checkout
