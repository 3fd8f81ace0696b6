import ImportAtlas.Proofs.Checkout.Retry
import ImportAtlas.Proofs.Host.Making
import ImportAtlas.Proofs.Http.Agreement

/-!
# The status of a clone's answer

A request to clone is answered by how the checkout is come by. What keeps it from being there counts
as a failure of the service, with one exception: a git program that is not found when it is launched
counts as something missing, like a folder that the checkout does not have.
-/

namespace ImportAtlas

open Text Host

namespace Checkout

variable {ws : Workspace} {reposDir owner name url above path : String} {folder : Option String}
  {host : Host} {info : CheckoutInfo} {result : Except CheckoutError Host}

/-- How a clone comes by the checkout at a path, or why it does not. -/
inductive Obtains (ws : Workspace) (url above path : String) : Except CheckoutError Host → Prop
  | present (there : ws.host.fileExists path = true) : Obtains ws url above path (.ok ws.host)
  | unmade (absent : ws.host.fileExists path = false) {made : Host} {cause : HostError}
      (making : ws.host.createFolders above = (made, .error cause)) :
      Obtains ws url above path (.error (.createFailed above cause))
  | unlaunched (absent : ws.host.fileExists path = false) {made : Host} {cause : HostError}
      (making : ws.host.createFolders above = (made, .ok ()))
      (fails : ws.git (gitArguments url path) made = .error cause) :
      Obtains ws url above path (.error (.launchFailed cause))
  | exited (absent : ws.host.fileExists path = false) {made : Host} {r : GitResult}
      (making : ws.host.createFolders above = (made, .ok ()))
      (done : ws.git (gitArguments url path) made = .ok r) (failure : r.success = false) :
      Obtains ws url above path (.error (.gitFailed (trim r.stderr)))
  | cloned (absent : ws.host.fileExists path = false) {made : Host} {r : GitResult}
      (making : ws.host.createFolders above = (made, .ok ()))
      (done : ws.git (gitArguments url path) made = .ok r) (success : r.success = true) :
      Obtains ws url above path (.ok r.host)

theorem exists_obtains (ws : Workspace) (url above path : String) :
    ∃ result, Obtains ws url above path result := by
  cases hthere : ws.host.fileExists path with
  | true => exact ⟨_, .present hthere⟩
  | false =>
      rcases hmaking : ws.host.createFolders above with ⟨made, cause | u⟩
      · exact ⟨_, .unmade hthere hmaking⟩
      · cases hrun : ws.git (gitArguments url path) made with
        | error cause => exact ⟨_, .unlaunched hthere hmaking hrun⟩
        | ok r =>
            cases hsuccess : r.success with
            | true => exact ⟨_, .cloned hthere hmaking hrun hsuccess⟩
            | false => exact ⟨_, .exited hthere hmaking hrun hsuccess⟩

/-- The folder that is asked for is not one of the checkout's. -/
def LacksFolder (host : Host) (path : String) : Option String → Prop
  | none => False
  | some folder => Scope.normalize folder = .error () ∨
      ∃ n, Scope.normalize folder = .ok (some n) ∧ host.isFolder (Location.join path n) = false

theorem settled_cases (host : Host) (info : CheckoutInfo) :
    LacksFolder host info.localPath info.analyzedFolder ∧
        (∃ e, settled host info = .error (.build e)) ∨
      ¬ LacksFolder host info.localPath info.analyzedFolder ∧ settled host info = .ok info := by
  unfold settled Discovery.scopeRoot
  cases info.analyzedFolder with
  | none => exact .inr ⟨not_false, rfl⟩
  | some folder =>
      cases hscope : Scope.normalize folder with
      | error u => exact .inl ⟨.inl hscope, _, by simp only [hscope]; rfl⟩
      | ok written =>
          cases written with
          | none =>
              refine .inr ⟨?_, by simp only [hscope]; rfl⟩
              simp [LacksFolder, hscope]
          | some n =>
              cases hfolder : host.isFolder (Location.join info.localPath n) with
              | true =>
                  refine .inr ⟨?_, by simp only [hscope, hfolder]; rfl⟩
                  simp [LacksFolder, hscope, hfolder]
              | false =>
                  refine .inl ⟨.inr ⟨n, hscope, hfolder⟩, .scopeNotFound folder, ?_⟩
                  simp only [hscope, hfolder]
                  rfl

theorem parent?_checkout (reposDir : String) (hid : IsIdentity owner name) :
    Location.parent? (Location.joinAll reposDir [owner, name]) =
      some (Location.join reposDir owner) := by
  have howner : IsSegment owner := hid.isEntryName_owner.toIsSegment
  have hname : IsSegment name := hid.isEntryName_name.toIsSegment
  by_cases hbase : reposDir = ""
  · have hjoin : Location.join reposDir owner = owner := by simp [hbase, Location.join]
    have htidy : Location.dropEmptyEnd owner.toList = owner.toList :=
      Location.isTidy_of_plain howner.no_slash
    rw [Location.joinAll, List.foldl_cons, List.foldl_cons, List.foldl_nil, hjoin,
      Location.parent?_join howner.ne_empty hname, htidy, String.ofList_toList]
  · exact Location.parent?_join_join hbase howner hname

/-- A clone answers with its checkout, if it comes by it and the folder asked for is there. -/
theorem value_clone (hurl : Identity.ofGithubUrl? url = some (owner, name))
    (h : Obtains ws url (Location.join reposDir owner) (Location.joinAll reposDir [owner, name])
      result) (folder : Option String) :
    (clone reposDir ws url folder).value.2 =
      result.bind fun after =>
        settled after ⟨owner, name, url, Location.joinAll reposDir [owner, name], ws.clock,
          folder⟩ := by
  have hid : IsIdentity owner name := isIdentity_of_ofGithubUrl? hurl
  have hpath := localPath_eq reposDir hid
  have hparent := parent?_checkout reposDir hid
  cases h with
  | present there => rw [value_clone_of_present ws hurl hpath there]; rfl
  | unmade absent making =>
      rw [value_clone_of_absent ws hurl hpath absent, value_download hparent, making]
      rfl
  | unlaunched absent making fails =>
      rw [value_clone_of_absent ws hurl hpath absent, value_download hparent, making]
      simp only [fails]
      rfl
  | exited absent making done failure =>
      rw [value_clone_of_absent ws hurl hpath absent, value_download hparent, making]
      simp only [done, failure]
      rfl
  | cloned absent making done success =>
      rw [value_clone_of_absent ws hurl hpath absent, value_download hparent, making]
      simp only [done, success]
      rfl

end Checkout

namespace Http

open Checkout

variable {config : Config} {ws : Workspace} {r : Request} {c : CloneRequest}

/-- A request to clone whose body can be read. -/
structure AsksClone (r : Request) (c : CloneRequest) : Prop where
  method : r.method = "POST"
  target : r.path = "/api/repo/clone"
  body : CloneRequest.ofRequest r = .ok c

/-- A request names a repository, and the clone comes by its checkout at a path or does not. -/
inductive Attempts (config : Config) (ws : Workspace) (c : CloneRequest) :
    String → Except CheckoutError Host → Prop
  | mk {url owner name : String} {result : Except CheckoutError Host}
      (given : Api.nonBlank c.repoUrl = some url)
      (names : Identity.ofGithubUrl? url = some (owner, name))
      (obtains : Obtains ws url (Location.join config.reposDir owner)
        (Location.joinAll config.reposDir [owner, name]) result) :
      Attempts config ws c (Location.joinAll config.reposDir [owner, name]) result

/-- No address of a repository is given. -/
def GivesNone (c : CloneRequest) : Prop :=
  ∀ url, c.repoUrl = some url → isAllBlank url = true ∨ Identity.ofGithubUrl? url = none

/-- The checkout lacks the folder asked for, or git is not found. A folder above the checkout that
cannot be made for want of another one counts here as well. -/
def CloneMisses (config : Config) (ws : Workspace) (c : CloneRequest) : Prop :=
  (∃ path after, Attempts config ws c path (.ok after) ∧
    LacksFolder after path (Api.nonBlank c.folder)) ∨
  (∃ path, Attempts config ws c path (.error (.launchFailed .notFound))) ∨
  ∃ path above, Attempts config ws c path (.error (.createFailed above .notFound))

/-- Git exits with failure, or it cannot be launched or the folders above the checkout cannot be
made for another reason than that something is not found. -/
def CloneFails (config : Config) (ws : Workspace) (c : CloneRequest) : Prop :=
  (∃ path stderr, Attempts config ws c path (.error (.gitFailed stderr))) ∨
  (∃ path cause, Attempts config ws c path (.error (.launchFailed cause)) ∧ cause ≠ .notFound) ∨
  ∃ path above cause, Attempts config ws c path (.error (.createFailed above cause)) ∧
    cause ≠ .notFound

/-- The checkout is come by, and the folder asked for is there. -/
def CloneSucceeds (config : Config) (ws : Workspace) (c : CloneRequest) : Prop :=
  ∃ path after, Attempts config ws c path (.ok after) ∧
    ¬ LacksFolder after path (Api.nonBlank c.folder)

/-- Which status a request to clone is answered with. -/
structure CloneAnswers (config : Config) (ws : Workspace) (r : Request) (c : CloneRequest) :
    Prop where
  refused : (Api.respond config ws r).value.2.status = 400 ↔ GivesNone c
  missing : (Api.respond config ws r).value.2.status = 404 ↔ CloneMisses config ws c
  failed : (Api.respond config ws r).value.2.status = 500 ↔ CloneFails config ws c
  succeeded : (Api.respond config ws r).value.2.status = 200 ↔ CloneSucceeds config ws c
  one : (Api.respond config ws r).value.2.status ∈ [200, 400, 404, 500]
  made : ws.host.HasWorkingFolder → ∀ path above,
    ¬ Attempts config ws c path (.error (.createFailed above .notFound))

/-! ## From an attempt to a status -/

variable {path : String} {after : Host}

theorem givesNone_or_exists_attempts (config : Config) (ws : Workspace) (c : CloneRequest) :
    GivesNone c ∨ ∃ path result, Attempts config ws c path result := by
  cases hgiven : Api.nonBlank c.repoUrl with
  | none =>
      refine .inl fun url hurl => .inl ?_
      rw [Api.nonBlank, hurl, Option.filter_some] at hgiven
      simpa using hgiven
  | some url =>
      cases hnames : Identity.ofGithubUrl? url with
      | none =>
          refine .inl fun other hother => .inr ?_
          obtain rfl : other = url :=
            Option.some.inj (hother.symm.trans (nonBlank_eq_some.mp hgiven).1)
          exact hnames
      | some names =>
          obtain ⟨owner, name⟩ := names
          obtain ⟨result, hresult⟩ := exists_obtains ws url (Location.join config.reposDir owner)
            (Location.joinAll config.reposDir [owner, name])
          exact .inr ⟨_, result, .mk hgiven hnames hresult⟩

theorem value_respond_clone (h : AsksClone r c) (config : Config) (ws : Workspace) :
    (Api.respond config ws r).value =
      ((Api.clone config ws r).value.1, (Api.clone config ws r).value.2.open) :=
  value_respond_of_route (by rw [h.target, h.method]; rfl)

theorem status_of_givesNone (h : AsksClone r c) (config : Config) (ws : Workspace)
    (hnone : GivesNone c) :
    (Api.respond config ws r).value.2.status = 400 := by
  rw [value_respond_clone h, Api.clone, h.body]
  simp only
  cases hgiven : Api.nonBlank c.repoUrl with
  | none => rfl
  | some url =>
      obtain ⟨hurl, hfilled⟩ := nonBlank_eq_some.mp hgiven
      have hnames : Identity.ofGithubUrl? url = none :=
        (hnone url hurl).resolve_left (by simp [hfilled])
      simp only [hnames]
      rfl

theorem status_of_attempts {result : Except CheckoutError Host} (h : AsksClone r c)
    (hattempt : Attempts config ws c path result) :
    ∃ info, info.localPath = path ∧ info.analyzedFolder = Api.nonBlank c.folder ∧
      (Api.respond config ws r).value.2.status =
        match result.bind fun after => settled after info with
        | .ok _ => 200
        | .error e => if e.isNotFound then 404 else 500 := by
  cases hattempt with
  | @mk url owner name _ given names obtains =>
      refine ⟨⟨owner, name, url, Location.joinAll config.reposDir [owner, name], ws.clock,
        Api.nonBlank c.folder⟩, rfl, rfl, ?_⟩
      rw [← value_clone names obtains, value_respond_clone h, Api.clone, h.body]
      simp only [given, names, Option.isNone_some, Bool.false_eq_true, if_false, Logged.value_bind]
      rcases (Checkout.clone config.reposDir ws url (Api.nonBlank c.folder)).value with
        ⟨after, e | info⟩
      · rfl
      · rfl

theorem status_of_lacksFolder (h : AsksClone r c)
    (hattempt : Attempts config ws c path (.ok after))
    (hlacks : LacksFolder after path (Api.nonBlank c.folder)) :
    (Api.respond config ws r).value.2.status = 404 := by
  obtain ⟨info, rfl, hfolder, hstatus⟩ := status_of_attempts h hattempt
  rw [← hfolder] at hlacks
  rcases settled_cases after info with ⟨_, e, hsettled⟩ | ⟨hthere, _⟩
  · rw [hstatus, Except.bind, hsettled]
    rfl
  · exact absurd hlacks hthere

theorem status_of_folder (h : AsksClone r c) (hattempt : Attempts config ws c path (.ok after))
    (hthere : ¬ LacksFolder after path (Api.nonBlank c.folder)) :
    (Api.respond config ws r).value.2.status = 200 := by
  obtain ⟨info, rfl, hfolder, hstatus⟩ := status_of_attempts h hattempt
  rw [← hfolder] at hthere
  rcases settled_cases after info with ⟨hlacks, _⟩ | ⟨_, hsettled⟩
  · exact absurd hlacks hthere
  · rw [hstatus, Except.bind, hsettled]

theorem status_of_failure {e : CheckoutError} (h : AsksClone r c)
    (hattempt : Attempts config ws c path (.error e)) :
    (Api.respond config ws r).value.2.status = if e.isNotFound then 404 else 500 := by
  obtain ⟨info, _, _, hstatus⟩ := status_of_attempts h hattempt
  exact hstatus

theorem status_of_hostCause {e : CheckoutError} {cause : HostError} (h : AsksClone r c)
    (hattempt : Attempts config ws c path (.error e)) (hbuild : ∀ b, e ≠ .build b)
    (hhost : e.hostCause = some cause) (hcause : cause ≠ .notFound) :
    (Api.respond config ws r).value.2.status = 500 := by
  have hother : e.isNotFound = false := by
    cases e with
    | build b => exact absurd rfl (hbuild b)
    | _ => simp [CheckoutError.isNotFound, hhost, hcause]
  rw [status_of_failure h hattempt, hother]
  rfl

/-- An attempt that fails does so in one of three ways. -/
theorem Attempts.failure_cases {e : CheckoutError} (h : Attempts config ws c path (.error e)) :
    (∃ above cause, e = .createFailed above cause) ∨ (∃ cause, e = .launchFailed cause) ∨
      ∃ stderr, e = .gitFailed stderr := by
  cases h with
  | mk given names obtains =>
      cases obtains with
      | unmade absent making => exact .inl ⟨_, _, rfl⟩
      | unlaunched absent making fails => exact .inr (.inl ⟨_, rfl⟩)
      | exited absent making done failure => exact .inr (.inr ⟨_, rfl⟩)

theorem Attempts.not_missing_above {above : String} (hworking : ws.host.HasWorkingFolder) :
    ¬ Attempts config ws c path (.error (.createFailed above .notFound)) := by
  intro h
  cases h with
  | mk given names obtains =>
      cases obtains with
      | unmade absent making =>
          have howner := (isIdentity_of_ofGithubUrl? names).isEntryName_owner.toIsSegment
          refine createFolders_ne_notFound (Location.isTidy_join config.reposDir howner) hworking ?_
          rw [making]

theorem status_of_cloneMisses (h : AsksClone r c) (config : Config) (ws : Workspace)
    (hmisses : CloneMisses config ws c) :
    (Api.respond config ws r).value.2.status = 404 := by
  rcases hmisses with ⟨path, after, hattempt, hlacks⟩ | ⟨path, hattempt⟩ | ⟨path, above, hattempt⟩
  · exact status_of_lacksFolder h hattempt hlacks
  · exact status_of_failure h hattempt
  · exact status_of_failure h hattempt

theorem status_of_cloneFails (h : AsksClone r c) (config : Config) (ws : Workspace)
    (hfails : CloneFails config ws c) :
    (Api.respond config ws r).value.2.status = 500 := by
  rcases hfails with ⟨path, stderr, hattempt⟩ | ⟨path, cause, hattempt, hcause⟩ |
    ⟨path, above, cause, hattempt, hcause⟩
  · exact status_of_failure h hattempt
  · exact status_of_hostCause h hattempt (by simp) rfl hcause
  · exact status_of_hostCause h hattempt (by simp) rfl hcause

theorem clone_cases (config : Config) (ws : Workspace) (c : CloneRequest) :
    GivesNone c ∨ CloneMisses config ws c ∨ CloneFails config ws c ∨
      CloneSucceeds config ws c := by
  rcases givesNone_or_exists_attempts config ws c with hnone | ⟨path, e | after, hattempt⟩
  · exact .inl hnone
  · rcases hattempt.failure_cases with ⟨above, cause, rfl⟩ | ⟨cause, rfl⟩ | ⟨stderr, rfl⟩
    · by_cases hcause : cause = .notFound
      · exact .inr (.inl (.inr (.inr ⟨path, above, hcause ▸ hattempt⟩)))
      · exact .inr (.inr (.inl (.inr (.inr ⟨path, above, cause, hattempt, hcause⟩))))
    · by_cases hcause : cause = .notFound
      · exact .inr (.inl (.inr (.inl ⟨path, hcause ▸ hattempt⟩)))
      · exact .inr (.inr (.inl (.inr (.inl ⟨path, cause, hattempt, hcause⟩))))
    · exact .inr (.inr (.inl (.inl ⟨path, stderr, hattempt⟩)))
  · by_cases hlacks : LacksFolder after path (Api.nonBlank c.folder)
    · exact .inr (.inl (.inl ⟨path, after, hattempt, hlacks⟩))
    · exact .inr (.inr (.inr ⟨path, after, hattempt, hlacks⟩))

/-- A request to clone that can be read is refused if it gives no address of a repository. Otherwise
the status tells a folder that the checkout lacks, or a git program that is not found, from the
other failures and from success. -/
theorem cloneAnswers (hasks : AsksClone r c) (config : Config) (ws : Workspace) :
    CloneAnswers config ws r c := by
  have hsucceeded : CloneSucceeds config ws c →
      (Api.respond config ws r).value.2.status = 200 :=
    fun ⟨_, _, hattempt, hthere⟩ => status_of_folder hasks hattempt hthere
  obtain ⟨hrefused, hmissing, hfailed, hfound, hone⟩ :=
    statuses_iff (status_of_givesNone hasks config ws) (status_of_cloneMisses hasks config ws)
      (status_of_cloneFails hasks config ws) hsucceeded (clone_cases config ws c)
  exact ⟨hrefused, hmissing, hfailed, hfound, hone,
    fun hworking path above => Attempts.not_missing_above hworking⟩

/-! ### A folder asked for, with and without a checkout -/

def srcRequest : Request where
  method := "POST"
  uri := "/api/repo/clone"
  headers := [("Content-Type", "application/json")]
  body := "[\"https://github.com/o/n\", \"src\"]"

def srcAsked : CloneRequest := ⟨some cutUrl, some "src"⟩

theorem asksClone_src : AsksClone srcRequest srcAsked := ⟨rfl, by decide, by decide⟩

theorem attempts_src (host : Host) (git : Git) {result : Except CheckoutError Host}
    (h : Obtains { host, git } cutUrl "/repos/o" "/repos/o/n" result) :
    Attempts (configAt "/repos") { host, git } srcAsked "/repos/o/n" result :=
  .mk (by decide) ofGithubUrl?_cut h

theorem normalize_src : Scope.normalize "src" = .ok (some "src") := by
  have hw : Scope.IsWritten ["src"] := ⟨by decide, by decide, by decide, by decide⟩
  exact (Scope.normalize_joinFields_iff hw).mpr (by decide)

theorem nonBlank_src : Api.nonBlank srcAsked.folder = some "src" :=
  nonBlank_eq_some.mpr ⟨rfl, by decide⟩

theorem absent_src : reposDepot.host.fileExists "/repos/o/n" = false := by cbv

theorem exists_made_src : ∃ made, reposDepot.host.createFolders "/repos/o" = (made, .ok ()) :=
  ⟨⟨.folder [("repos", .folder [("o", .folder [])])], []⟩, by cbv⟩

theorem fileExists_shelf (es : List (String × Entry)) :
    (shelfHost es).fileExists "/repos/o/n" = true := by
  rw [fileExists, resolve_shelfHost]
  rfl

theorem isFolder_src : (shelfHost []).isFolder (Location.join "/repos/o/n" "src") = false ∧
    (shelfHost [("src", .folder [])]).isFolder (Location.join "/repos/o/n" "src") = true := by
  have hfits : Host.Fits (Location.join "/repos/o/n" "src") ["src"] := by decide
  constructor
  · rw [isFolder, resolve, lookup_join (resolve_shelfHost _) (by decide) (by simp), if_pos hfits]
    rfl
  · rw [isFolder, resolve, lookup_join (resolve_shelfHost _) (by decide) (by simp [Entry.find?]),
      if_pos hfits]
    rfl

theorem cutGit_fails (url path : String) (host : Host) :
    ∃ r, cutGit (gitArguments url path) host = .ok r ∧ r.success = false := by
  rcases leavesAt_leaving cutTree false "fatal: early EOF" host url path with h | ⟨after, h, _⟩
  · exact ⟨_, h, rfl⟩
  · exact ⟨_, h, rfl⟩

/-- A git program that may not be launched. -/
def deniedGit : Git := fun _ _ => .error (.other "Permission denied (os error 13)")

/-- Without git the answer is that something is missing, with a git that fails or may not be
launched it is a failure. A checkout that is there needs no git, but the folder. -/
theorem cloneAnswers_src :
    (Api.respond (configAt "/repos") { host := reposDepot.host, git := Git.absent }
        srcRequest).value.2.status = 404 ∧
      (Api.respond (configAt "/repos") { host := reposDepot.host, git := cutGit }
        srcRequest).value.2.status = 500 ∧
      (Api.respond (configAt "/repos") { host := reposDepot.host, git := deniedGit }
        srcRequest).value.2.status = 500 ∧
      (Api.respond (configAt "/repos") { host := shelfHost [], git := Git.absent }
        srcRequest).value.2.status = 404 ∧
      (Api.respond (configAt "/repos") { host := shelfHost [("src", .folder [])], git := Git.absent }
        srcRequest).value.2.status = 200 := by
  obtain ⟨made, hmade⟩ := exists_made_src
  have hanswers (ws : Workspace) : CloneAnswers (configAt "/repos") ws srcRequest srcAsked :=
    cloneAnswers asksClone_src (configAt "/repos") ws
  refine ⟨?_, ?_, ?_, ?_, ?_⟩
  · have hattempt := attempts_src reposDepot.host Git.absent (.unlaunched absent_src hmade rfl)
    exact (hanswers _).missing.mpr (.inr (.inl ⟨_, hattempt⟩))
  · obtain ⟨r, hrun, hfailed⟩ := cutGit_fails cutUrl "/repos/o/n" made
    have hattempt := attempts_src reposDepot.host cutGit (.exited absent_src hmade hrun hfailed)
    exact (hanswers _).failed.mpr (.inl ⟨_, _, hattempt⟩)
  · have hattempt := attempts_src reposDepot.host deniedGit (.unlaunched absent_src hmade rfl)
    exact (hanswers _).failed.mpr (.inr (.inl ⟨_, _, hattempt, by simp⟩))
  · have hattempt := attempts_src (shelfHost []) Git.absent (.present (fileExists_shelf _))
    refine (hanswers _).missing.mpr (.inl ⟨_, _, hattempt, ?_⟩)
    rw [nonBlank_src]
    exact .inr ⟨"src", normalize_src, isFolder_src.1⟩
  · have hattempt := attempts_src (shelfHost [("src", .folder [])]) Git.absent
      (.present (fileExists_shelf _))
    refine (hanswers _).succeeded.mpr ⟨_, _, hattempt, ?_⟩
    rw [nonBlank_src]
    rintro (hrefused | ⟨n, hn, habsent⟩)
    · rw [normalize_src] at hrefused
      cases hrefused
    · rw [normalize_src, Except.ok.injEq, Option.some.injEq] at hn
      rw [← hn, isFolder_src.2] at habsent
      cases habsent

end Http

end ImportAtlas
