import ImportAtlas.Analysis
import ImportAtlas.Proofs.Checkout.Depot

/-!
# Sessions

Calls on the checkouts, one after another, each clone with the git program as it behaves then. A
call is told apart by what it does to the directory of the checkouts: a clone of a repository has
five outcomes, and no call but a clone or a deletion changes anything.
-/

namespace ImportAtlas.Checkout

open Text Host

inductive Call where
  | clone (git : Git) (clock url : String) (folder : Option String)
  | delete (owner name : String)
  | read (owner name path : String)
  | graph (builder : GraphBuilder) (owner name : String)

/-- What a call answers. A clone also tells the arguments of the runs of git. -/
inductive Answer where
  | cloned (launched : List (List String)) (result : Except CheckoutError CheckoutInfo)
  | deleted (result : Except CheckoutError Bool)
  | text (result : Except CheckoutError String)
  | graph (result : Except CheckoutError FileGraph)

def perform (reposDir : String) (host : Host) : Call → Host × Answer
  | .clone git clock url folder =>
    let done := (clone reposDir { host, git, clock } url folder).value
    (done.1.host, .cloned done.1.launched done.2)
  | .delete owner name =>
    let done := (delete reposDir host owner name).value
    (done.1, .deleted done.2)
  | .read owner name path => (host, .text (readSource reposDir host owner name path))
  | .graph builder owner name =>
    (host, .graph (builder.buildGraph host (.store reposDir) owner name none).value)

/-- A call as it was made, with the host before and after it. -/
structure Visit where
  before : Host
  call : Call
  after : Host
  answer : Answer

def visit (reposDir : String) (host : Host) (call : Call) : Visit :=
  ⟨host, call, (perform reposDir host call).1, (perform reposDir host call).2⟩

def visits (reposDir : String) : Host → List Call → List Visit
  | _, [] => []
  | host, call :: calls =>
    visit reposDir host call :: visits reposDir (visit reposDir host call).after calls

/-- The repository that a call is about. -/
def Call.identity? : Call → Option (String × String)
  | .clone _ _ url _ => Identity.ofGithubUrl? url
  | .delete owner name | .read owner name _ | .graph _ owner name => some (owner, name)

/-! ## What a run of git leaves -/

abbrev gitArguments (url path : String) : List String := ["clone", url, path]

/-- What launching git comes to in a call, if the call launches it. -/
def gitLaunch? (reposDir : String) (host : Host) : Call → Option (Except HostError GitResult)
  | .clone git _ url _ => do
    let (owner, name) ← Identity.ofGithubUrl? url
    let path := Location.joinAll reposDir [owner, name]
    if host.fileExists path then none
    else
      match host.createFolders (Location.join reposDir owner) with
      | (prepared, .ok _) => some (git (gitArguments url path) prepared)
      | (_, .error _) => none
  | _ => none

/-- The run of git that a call makes, if it makes one. Git that cannot be launched does not run. -/
def gitRun? (reposDir : String) (host : Host) (call : Call) : Option GitResult :=
  (gitLaunch? reposDir host call).bind Except.toOption

/-- The second host has an entry at a path, as a new entry is made there, and is otherwise the
first. -/
def LeavesAt (host : Host) (path : String) (e : Entry) (after : Host) : Prop :=
  ∃ place name, host.parentPlace path = .ok (place, name) ∧
    after = host.setPlace (place ++ [name]) (some e) ∧ after.fileExists path = true

/-- Whether it succeeds or fails, git leaves nothing or a file or folder at its path, and changes
nothing else. -/
def IsLocal (git : Git) : Prop :=
  ∀ host url path r, git (gitArguments url path) host = .ok r → r.host = host ∨
    ∃ e, e.WellFormed ∧ (∀ target, e ≠ .link target) ∧ LeavesAt host path e r.host

/-- The git program that a call is made with. -/
def Call.git? : Call → Option Git
  | .clone git _ _ _ => some git
  | _ => none

variable {owner name url clock : String} {folder : Option String} {git : Git}

/-! ## Outcomes of a clone -/

/-- The answer of a clone whose checkout is there. -/
def settled (host : Host) (info : CheckoutInfo) : Except CheckoutError CheckoutInfo :=
  match (Discovery.scopeRoot host info.localPath info.analyzedFolder).value with
  | .error e => .error (.build e)
  | .ok _ => .ok info

theorem settled_of_none (host : Host) {info : CheckoutInfo} (h : info.analyzedFolder = none) :
    settled host info = .ok info := by
  rw [settled, h]
  rfl

/-- A directory is ready for the checkouts of an owner: their folder is there or can be made. -/
structure IsReady (d : Depot) (es : Contents) (owner : String) : Prop where
  fits : Host.Fits (Location.join d.reposDir owner) [owner]
  folder : ∀ e, Entry.find? owner es = some e → e.isFolder = true

variable {d : Depot} {es : Contents}

theorem isReady_iff :
    IsReady d es owner ↔ Host.Fits (Location.join d.reposDir owner) [owner] ∧
      (Entry.find? owner es).all Entry.isFolder = true := by
  rw [Option.all_eq_true]
  exact ⟨fun h => ⟨h.fits, h.folder⟩, fun h => ⟨h.1, h.2⟩⟩

theorem IsReady.exists_folder (h : IsReady d es owner) :
    ∃ ds, Entry.find? owner (es.withOwner owner) = some (.folder ds) := by
  rw [Contents.find?_withOwner, if_pos rfl]
  cases hfind : Entry.find? owner es with
  | none => exact ⟨[], rfl⟩
  | some e =>
      obtain ⟨ds, rfl⟩ := Entry.exists_of_isFolder (h.folder e hfind)
      exact ⟨ds, rfl⟩

/-- All that a clone of a repository can do. -/
inductive Cloned (d : Depot) (es : Contents) (git : Git) (info : CheckoutInfo) :
    Workspace → Except CheckoutError CheckoutInfo → Prop
  | reused (there : (d.holding es).fileExists info.localPath = true)
      {result : Except CheckoutError CheckoutInfo} (answers : result = settled (d.holding es) info) :
      Cloned d es git info ⟨d.holding es, git, [], info.clonedAt⟩ result
  | tooLong (absent : (d.holding es).fileExists info.localPath = false)
      (long : ¬ Host.Fits (Location.join d.reposDir info.owner) [info.owner]) :
      Cloned d es git info ⟨d.holding es, git, [], info.clonedAt⟩
        (.error (.createFailed (Location.join d.reposDir info.owner) .nameTooLong))
  | blocked (absent : (d.holding es).fileExists info.localPath = false)
      (fits : Host.Fits (Location.join d.reposDir info.owner) [info.owner]) {e : Entry}
      (there : Entry.find? info.owner es = some e) (blocks : e.isFolder = false) :
      Cloned d es git info ⟨d.holding es, git, [], info.clonedAt⟩
        (.error (.createFailed (Location.join d.reposDir info.owner) .alreadyExists))
  | unlaunched (absent : (d.holding es).fileExists info.localPath = false)
      (ready : IsReady d es info.owner) {cause : HostError}
      (fails : git (gitArguments info.url info.localPath) (d.holding (es.withOwner info.owner)) =
        .error cause) :
      Cloned d es git info ⟨d.holding (es.withOwner info.owner), git, [], info.clonedAt⟩
        (.error (.launchFailed cause))
  | ran (absent : (d.holding es).fileExists info.localPath = false)
      (ready : IsReady d es info.owner) {r : GitResult}
      (done : git (gitArguments info.url info.localPath) (d.holding (es.withOwner info.owner)) =
        .ok r)
      {result : Except CheckoutError CheckoutInfo}
      (answers : result =
        if r.success then settled r.host info else .error (.gitFailed (trim r.stderr))) :
      Cloned d es git info
        ⟨r.host, git, [gitArguments info.url info.localPath], info.clonedAt⟩ result

theorem value_clone_of_refused (reposDir : String) (ws : Workspace)
    (h : Identity.ofGithubUrl? url = none) (folder : Option String) :
    (clone reposDir ws url folder).value = (ws, .error (.invalidUrl url)) := by
  rw [clone, h]
  rfl

theorem value_clone_of_present {reposDir path : String} (ws : Workspace)
    (hurl : Identity.ofGithubUrl? url = some (owner, name))
    (hpath : localPath reposDir owner name = .ok path) (h : ws.host.fileExists path = true)
    (folder : Option String) :
    (clone reposDir ws url folder).value =
      (ws, settled ws.host ⟨owner, name, url, path, ws.clock, folder⟩) := by
  rw [clone, hurl]
  simp only [hpath, h, if_true, Logged.value_bind, Logged.value_pure, settled]
  cases (Discovery.scopeRoot ws.host path folder).value <;> rfl

theorem value_clone_of_absent {reposDir path : String} (ws : Workspace)
    (hurl : Identity.ofGithubUrl? url = some (owner, name))
    (hpath : localPath reposDir owner name = .ok path) (h : ws.host.fileExists path = false)
    (folder : Option String) :
    (clone reposDir ws url folder).value =
      ((download ws url path).value.1, (download ws url path).value.2.bind fun _ =>
        settled (download ws url path).value.1.host
          ⟨owner, name, url, path, (download ws url path).value.1.clock, folder⟩) := by
  rw [clone, hurl]
  simp only [hpath, h, Bool.false_eq_true, if_false, Logged.value_bind]
  rcases (download ws url path).value with ⟨after, e | u⟩
  · rfl
  · simp only [Logged.value_bind, settled, Except.bind]
    cases (Discovery.scopeRoot after.host path folder).value <;> rfl

theorem value_download {ws : Workspace} {path parent : String}
    (h : Location.parent? path = some parent) (url : String) :
    (download ws url path).value =
      match ws.host.createFolders parent with
      | (host, .error e) => ({ ws with host := host }, .error (.createFailed parent e))
      | (host, .ok _) =>
        match ws.git (gitArguments url path) host with
        | .error cause => ({ ws with host := host }, .error (.launchFailed cause))
        | .ok r =>
          ({ ws with host := r.host, launched := ws.launched ++ [gitArguments url path] },
            if r.success then .ok () else .error (.gitFailed (trim r.stderr))) := by
  rw [download, h]
  simp only
  rcases ws.host.createFolders parent with ⟨host, e | u⟩
  · rfl
  · simp only [Logged.value_bind]
    cases ws.git (gitArguments url path) host with
    | error cause => rfl
    | ok r =>
        simp only
        by_cases hsuccess : r.success = true
        · rw [if_pos hsuccess, if_pos hsuccess]
          rfl
        · rw [if_neg hsuccess, if_neg hsuccess]
          rfl

/-- What a clone of a repository does is one of these outcomes. -/
theorem cloned_clone (hes : es.IsPlain) (hurl : Identity.ofGithubUrl? url = some (owner, name))
    (git : Git) (clock : String) (folder : Option String) :
    Cloned d es git ⟨owner, name, url, d.path owner name, clock, folder⟩
      (clone d.reposDir ⟨d.holding es, git, [], clock⟩ url folder).value.1
      (clone d.reposDir ⟨d.holding es, git, [], clock⟩ url folder).value.2 := by
  have hid : IsIdentity owner name := isIdentity_of_ofGithubUrl? hurl
  have hpath := d.localPath hid
  cases habsent : (d.holding es).fileExists (d.path owner name) with
  | true =>
      rw [value_clone_of_present ⟨d.holding es, git, [], clock⟩ hurl hpath habsent]
      apply Cloned.reused
      · exact habsent
      · rfl
  | false =>
      rw [value_clone_of_absent ⟨d.holding es, git, [], clock⟩ hurl hpath habsent,
        value_download (d.parent?_path hid)]
      simp only [Depot.createFolders_owner hes hid.isEntryName_owner]
      by_cases hfits : Host.Fits (Location.join d.reposDir owner) [owner]
      · rw [if_pos hfits]
        by_cases hfolder : (Entry.find? owner es).all Entry.isFolder = true
        · rw [if_pos hfolder]
          have hready : IsReady d es owner := isReady_iff.mpr ⟨hfits, hfolder⟩
          cases hrun : git (gitArguments url (d.path owner name))
            (d.holding (es.withOwner owner)) with
          | error cause =>
              simp only [hrun]
              exact .unlaunched habsent hready hrun
          | ok r =>
              simp only [hrun, List.nil_append]
              apply Cloned.ran
              · exact habsent
              · exact hready
              · exact hrun
              · split <;> rfl
        · rw [if_neg hfolder]
          obtain ⟨e, he, hblocks⟩ : ∃ e, Entry.find? owner es = some e ∧ e.isFolder = false := by
            cases hfind : Entry.find? owner es with
            | none => simp [hfind] at hfolder
            | some e => exact ⟨e, rfl, by simpa [hfind] using hfolder⟩
          apply Cloned.blocked
          · exact habsent
          · exact hfits
          · exact he
          · exact hblocks
      · rw [if_neg hfits]
        apply Cloned.tooLong
        · exact habsent
        · exact hfits

theorem exists_cloned (hes : es.IsPlain) (hurl : Identity.ofGithubUrl? url = some (owner, name))
    (git : Git) (clock : String) (folder : Option String) :
    ∃ ws result, perform d.reposDir (d.holding es) (.clone git clock url folder) =
        (ws.host, .cloned ws.launched result) ∧
      Cloned d es git ⟨owner, name, url, d.path owner name, clock, folder⟩ ws result :=
  ⟨_, _, rfl, cloned_clone hes hurl git clock folder⟩

/-- A clone launches git exactly if the checkout is absent and a folder for the owner is there or
can be made. -/
theorem gitLaunch?_eq_some_iff {git : Git} {clock url : String} {folder : Option String}
    {launch : Except HostError GitResult} (hes : es.IsPlain)
    (hurl : Identity.ofGithubUrl? url = some (owner, name)) :
    gitLaunch? d.reposDir (d.holding es) (.clone git clock url folder) = some launch ↔
      (d.holding es).fileExists (d.path owner name) = false ∧ IsReady d es owner ∧
        git (gitArguments url (d.path owner name)) (d.holding (es.withOwner owner)) = launch := by
  have hid : IsIdentity owner name := isIdentity_of_ofGithubUrl? hurl
  rw [isReady_iff, Depot.path]
  simp only [gitLaunch?, hurl, bind, Option.bind_some,
    Depot.createFolders_owner (d := d) hes hid.isEntryName_owner]
  by_cases hthere : (d.holding es).fileExists (Location.joinAll d.reposDir [owner, name]) = true
  · simp [hthere]
  · by_cases hfits : Host.Fits (Location.join d.reposDir owner) [owner]
    · by_cases hfolder : (Entry.find? owner es).all Entry.isFolder = true
      · simp [hthere, hfits, hfolder]
      · simp [hthere, hfits, hfolder]
    · simp [hthere, hfits]

theorem gitRun?_eq_some_iff {git : Git} {clock url : String} {folder : Option String}
    {r : GitResult} (hes : es.IsPlain) (hurl : Identity.ofGithubUrl? url = some (owner, name)) :
    gitRun? d.reposDir (d.holding es) (.clone git clock url folder) = some r ↔
      (d.holding es).fileExists (d.path owner name) = false ∧ IsReady d es owner ∧
        git (gitArguments url (d.path owner name)) (d.holding (es.withOwner owner)) = .ok r := by
  rw [gitRun?, Option.bind_eq_some_iff]
  constructor
  · rintro ⟨launch, hlaunch, hok⟩
    cases launch with
    | error cause => cases hok
    | ok run =>
        obtain rfl := Option.some.inj hok
        exact (gitLaunch?_eq_some_iff hes hurl).mp hlaunch
  · intro hdone
    exact ⟨.ok r, (gitLaunch?_eq_some_iff hes hurl).mpr hdone, rfl⟩

/-! ## What calls change -/

theorem Contents.IsPlain.fileExists_eq {es' : Contents} (hes : es.IsPlain) (hes' : es'.IsPlain)
    (hid : IsIdentity owner name) (h : es'.checkout? owner name = es.checkout? owner name) :
    (d.holding es').fileExists (d.path owner name) =
      (d.holding es).fileExists (d.path owner name) := by
  rw [Bool.eq_iff_iff, Depot.fileExists_path_iff hes' hid, Depot.fileExists_path_iff hes hid, h]

theorem parentPlace_path (hes : es.IsPlain) (hid : IsIdentity owner name)
    (hready : IsReady d es owner) :
    (d.holding (es.withOwner owner)).parentPlace (d.path owner name) =
      if name.utf8ByteSize > maxNameBytes then .error .nameTooLong
      else .ok (d.place ++ [owner], name) := by
  obtain ⟨ds, howner⟩ := hready.exists_folder
  have hes' : (es.withOwner owner).IsPlain := hes.withOwner hid.isEntryName_owner
  have hfolder : (d.holding (es.withOwner owner)).resolve (Location.join d.reposDir owner) =
      .ok ⟨d.place ++ [owner], .folder ds⟩ := by
    rw [resolve, lookup_join (d.resolve_holding _) hid.isEntryName_owner (hes'.owner owner),
      if_pos hready.fits, howner]
  exact parentPlace_join hfolder hid.isEntryName_name

theorem setPlace_path (hready : IsReady d es owner) (name : String) (new : Option Entry) :
    (d.holding (es.withOwner owner)).setPlace ((d.place ++ [owner]) ++ [name]) new =
      d.holding ((es.withOwner owner).change owner name new) := by
  obtain ⟨ds, howner⟩ := hready.exists_folder
  rw [List.append_assoc]
  exact d.setPlace_checkout howner name new

theorem leavesAt_path {after : Host} {e : Entry} (hes : es.IsPlain) (hid : IsIdentity owner name)
    (hready : IsReady d es owner)
    (h : LeavesAt (d.holding (es.withOwner owner)) (d.path owner name) e after) :
    after = d.holding ((es.withOwner owner).change owner name (some e)) := by
  obtain ⟨place, last, hparent, rfl, _⟩ := h
  rw [parentPlace_path hes hid hready] at hparent
  split at hparent
  · cases hparent
  · cases hparent
    exact setPlace_path hready name (some e)

theorem value_delete (hes : es.IsPlain) (hid : IsIdentity owner name) :
    (delete d.reposDir (d.holding es) owner name).value =
      if (d.holding es).fileExists (d.path owner name) then
        if (es.checkout? owner name).all Entry.isFolder then
          (d.holding (es.change owner name none), .ok true)
        else (d.holding es, .error (.deleteFailed (d.path owner name) .notDirectory))
      else (d.holding es, .ok false) := by
  rw [delete, d.localPath hid]
  simp only
  by_cases hthere : (d.holding es).fileExists (d.path owner name) = true
  · rw [if_pos hthere, if_pos hthere, Depot.removeTree_path hes hid hthere]
    by_cases hfolder : (es.checkout? owner name).all Entry.isFolder = true
    · rw [if_pos hfolder, if_pos hfolder]
      rfl
    · rw [if_neg hfolder, if_neg hfolder]
      rfl
  · rw [if_neg hthere, if_neg hthere]
    rfl

theorem value_delete_of_refused {reposDir : String} {e : CheckoutError} (host : Host)
    (hpath : localPath reposDir owner name = .error e) :
    (delete reposDir host owner name).value = (host, .error e) := by
  rw [delete, hpath]
  rfl

/-- The entries after a call are those before it, but for a new owner's folder and the checkout that
the call is about. -/
structure IsChange (call : Call) (es es' : Contents) : Prop where
  plain : es'.IsPlain
  others : ∀ owner name, call.identity? ≠ some (owner, name) →
    es'.checkout? owner name = es.checkout? owner name
  owners : ∀ owner, (Entry.find? owner es).isSome → (Entry.find? owner es').isSome

theorem IsChange.refl (hes : es.IsPlain) (call : Call) : IsChange call es es :=
  ⟨hes, fun _ _ _ => rfl, fun _ h => h⟩

theorem IsChange.withOwner (hes : es.IsPlain) (call : Call) (howner : IsEntryName owner) :
    IsChange call es (es.withOwner owner) where
  plain := hes.withOwner howner
  others o n _ := es.checkout?_withOwner owner o n
  owners _ h := Contents.isSome_find?_withOwner h owner

theorem IsChange.change {es' : Contents} {call : Call} {ds : List (String × Entry)}
    {new : Option Entry} (h : IsChange call es es') (hname : IsEntryName name)
    (howner : Entry.find? owner es' = some (.folder ds))
    (hnew : ∀ tree ∈ new, tree.WellFormed ∧ ∀ target, tree ≠ .link target)
    (hcall : call.identity? = some (owner, name)) :
    IsChange call es (es'.change owner name new) where
  plain := h.plain.change hname howner hnew
  others := by
    intro o n hother
    rw [Contents.checkout?_change_of_ne, h.others o n hother]
    rintro ⟨rfl, rfl⟩
    exact hother hcall
  owners o ho := Contents.isSome_find?_change (h.owners o ho) owner name new

theorem exists_change_clone (hes : es.IsPlain) (hgit : IsLocal git) (clock url : String)
    (folder : Option String) : ∃ es', IsChange (.clone git clock url folder) es es' ∧
      (perform d.reposDir (d.holding es) (.clone git clock url folder)).1 = d.holding es' := by
  have hsame : IsChange (.clone git clock url folder) es es := .refl hes _
  cases hurl : Identity.ofGithubUrl? url with
  | none =>
      refine ⟨es, hsame, ?_⟩
      rw [perform, value_clone_of_refused d.reposDir _ hurl]
  | some identity =>
      obtain ⟨owner, name⟩ := identity
      have hid : IsIdentity owner name := isIdentity_of_ofGithubUrl? hurl
      have hprepared : IsChange (.clone git clock url folder) es (es.withOwner owner) :=
        .withOwner hes _ hid.isEntryName_owner
      obtain ⟨ws, result, hperform, hcloned⟩ := exists_cloned (d := d) hes hurl git clock folder
      rw [hperform]
      cases hcloned with
      | reused there _ => exact ⟨es, hsame, rfl⟩
      | tooLong absent long => exact ⟨es, hsame, rfl⟩
      | blocked absent fits there blocks => exact ⟨es, hsame, rfl⟩
      | unlaunched absent ready fails => exact ⟨es.withOwner owner, hprepared, rfl⟩
      | ran absent ready done =>
          rcases hgit (d.holding (es.withOwner owner)) url (d.path owner name) _ done with
            hkept | ⟨e, hwf, hlink, hleaves⟩
          · exact ⟨es.withOwner owner, hprepared, hkept⟩
          · obtain ⟨ds, howner⟩ := ready.exists_folder
            refine ⟨(es.withOwner owner).change owner name (some e), ?_, ?_⟩
            · refine hprepared.change hid.isEntryName_name howner (fun tree htree => ?_) hurl
              rw [← Option.some.inj htree]
              exact ⟨hwf, hlink⟩
            · exact leavesAt_path hes hid ready hleaves

theorem exists_change_delete (hes : es.IsPlain) (owner name : String) :
    ∃ es', IsChange (.delete owner name) es es' ∧
      (perform d.reposDir (d.holding es) (.delete owner name)).1 = d.holding es' := by
  have hsame : IsChange (.delete owner name) es es := .refl hes _
  rw [perform]
  by_cases hid : IsIdentity owner name
  · rw [value_delete hes hid]
    split
    · split
      next hthere _ =>
        obtain ⟨hsome, _⟩ := (Depot.fileExists_path_iff hes hid).mp hthere
        obtain ⟨tree, htree⟩ := Option.isSome_iff_exists.mp hsome
        obtain ⟨ds, howner, _⟩ := Contents.find?_of_checkout? htree
        refine ⟨es.change owner name none, ?_, rfl⟩
        exact hsame.change hid.isEntryName_name howner (fun tree htree => by cases htree) rfl
      next => exact ⟨es, hsame, rfl⟩
    · exact ⟨es, hsame, rfl⟩
  · obtain ⟨part, value, hpath⟩ := localPath_eq_error d.reposDir hid
    exact ⟨es, hsame, by rw [value_delete_of_refused _ hpath]⟩

theorem exists_change (hes : es.IsPlain) (call : Call) (hgit : ∀ g ∈ call.git?, IsLocal g) :
    ∃ es', IsChange call es es' ∧ (perform d.reposDir (d.holding es) call).1 = d.holding es' := by
  cases call with
  | clone git clock url folder => exact exists_change_clone hes (hgit git rfl) clock url folder
  | delete owner name => exact exists_change_delete hes owner name
  | read owner name path => exact ⟨es, .refl hes _, rfl⟩
  | graph builder owner name => exact ⟨es, .refl hes _, rfl⟩

/-- Each visit of a session finds plain entries. -/
theorem exists_plain_of_mem_visits (hes : es.IsPlain) {calls : List Call}
    (hgit : ∀ call ∈ calls, ∀ g ∈ call.git?, IsLocal g) {v : Visit}
    (hv : v ∈ visits d.reposDir (d.holding es) calls) :
    ∃ es', es'.IsPlain ∧ v.call ∈ calls ∧ v = visit d.reposDir (d.holding es') v.call := by
  induction calls generalizing es with
  | nil => simp [visits] at hv
  | cons call calls ih =>
      rw [List.forall_mem_cons] at hgit
      rw [visits, List.mem_cons] at hv
      rcases hv with rfl | hv
      · exact ⟨es, hes, List.mem_cons_self, rfl⟩
      · obtain ⟨es', hchange, hperform⟩ := exists_change (d := d) hes call hgit.1
        rw [visit, hperform] at hv
        obtain ⟨es'', hes'', hmem, heq⟩ := ih hchange.plain hgit.2 hv
        exact ⟨es'', hes'', List.mem_cons_of_mem call hmem, heq⟩

/-! ### A git program that leaves one entry -/

/-- Leaves an entry wherever it can be made, and then exits as told. -/
def leaving (e : Entry) (success : Bool) (stderr : String) : Git := fun args host =>
  match args with
  | [_, _, path] =>
    match host.parentPlace path with
    | .ok (place, name) =>
      let after := host.setPlace (place ++ [name]) (some e)
      if after.fileExists path then .ok ⟨after, success, stderr⟩ else .ok ⟨host, false, stderr⟩
    | .error _ => .ok ⟨host, false, stderr⟩
  | _ => .ok ⟨host, false, stderr⟩

theorem leavesAt_leaving (e : Entry) (success : Bool) (stderr : String) (host : Host)
    (url path : String) :
    leaving e success stderr (gitArguments url path) host = .ok ⟨host, false, stderr⟩ ∨
      ∃ after,
        leaving e success stderr (gitArguments url path) host = .ok ⟨after, success, stderr⟩ ∧
        LeavesAt host path e after := by
  simp only [leaving]
  cases hparent : host.parentPlace path with
  | error cause => exact Or.inl rfl
  | ok found =>
      obtain ⟨place, name⟩ := found
      simp only
      split
      next hexists => exact Or.inr ⟨_, rfl, place, name, hparent, rfl, hexists⟩
      next => exact Or.inl rfl

theorem isLocal_leaving {e : Entry} (hwf : e.WellFormed) (hlink : ∀ target, e ≠ .link target)
    (success : Bool) (stderr : String) : IsLocal (leaving e success stderr) := by
  intro host url path r hr
  rcases leavesAt_leaving e success stderr host url path with h | ⟨after, h, hleaves⟩
  · obtain rfl := Except.ok.inj (h.symm.trans hr)
    exact Or.inl rfl
  · obtain rfl := Except.ok.inj (h.symm.trans hr)
    exact Or.inr ⟨e, hwf, hlink, hleaves⟩

theorem leaving_path (hes : es.IsPlain) (hid : IsIdentity owner name) (hready : IsReady d es owner)
    (hfits : d.Fits owner name) {e : Entry} (hwf : e.WellFormed)
    (hlink : ∀ target, e ≠ .link target) (success : Bool) (stderr url : String) :
    leaving e success stderr (gitArguments url (d.path owner name))
        (d.holding (es.withOwner owner)) =
      .ok ⟨d.holding ((es.withOwner owner).change owner name (some e)), success, stderr⟩ := by
  obtain ⟨ds, howner⟩ := hready.exists_folder
  have hshort : ¬ name.utf8ByteSize > maxNameBytes := Nat.not_lt.mpr (hfits.2 name (by simp))
  have hplain : ((es.withOwner owner).change owner name (some e)).IsPlain :=
    (hes.withOwner hid.isEntryName_owner).change hid.isEntryName_name howner
      fun tree htree => Option.some.inj htree ▸ ⟨hwf, hlink⟩
  have hexists := (Depot.fileExists_path_iff hplain hid).mpr
    ⟨by rw [Contents.checkout?_change_self howner]; rfl, hfits⟩
  simp only [leaving, parentPlace_path hes hid hready, if_neg hshort, setPlace_path hready, hexists,
    if_true]

/-- A clone with such a program, where there was no checkout. -/
theorem visit_leaving (hes : es.IsPlain) (hurl : Identity.ofGithubUrl? url = some (owner, name))
    (habsent : es.checkout? owner name = none) (hready : IsReady d es owner)
    (hfits : d.Fits owner name) {e : Entry} (hwf : e.WellFormed)
    (hlink : ∀ target, e ≠ .link target) (success : Bool) (stderr clock : String) :
    visit d.reposDir (d.holding es) (.clone (leaving e success stderr) clock url none) =
      ⟨d.holding es, .clone (leaving e success stderr) clock url none,
        d.holding ((es.withOwner owner).change owner name (some e)),
        .cloned [gitArguments url (d.path owner name)]
          (if success then .ok ⟨owner, name, url, d.path owner name, clock, none⟩
            else .error (.gitFailed (trim stderr)))⟩ := by
  have hid : IsIdentity owner name := isIdentity_of_ofGithubUrl? hurl
  have hmissing : ¬ (d.holding es).fileExists (d.path owner name) = true := by
    rw [Depot.fileExists_path_iff hes hid, habsent]
    simp
  obtain ⟨ws, result, hperform, hcloned⟩ :=
    exists_cloned (d := d) hes hurl (leaving e success stderr) clock none
  rw [visit, hperform]
  cases hcloned with
  | reused there _ => exact absurd there hmissing
  | tooLong _ long => exact absurd hready.fits long
  | blocked _ _ there blocks => exact absurd (hready.folder _ there) (by simp [blocks])
  | unlaunched _ _ fails =>
      rw [leaving_path hes hid hready hfits hwf hlink] at fails
      cases fails
  | ran _ _ done answers =>
      rw [leaving_path hes hid hready hfits hwf hlink] at done
      cases done
      rw [settled_of_none _ rfl] at answers
      subst answers
      rfl

end ImportAtlas.Checkout
