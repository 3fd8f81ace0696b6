import ImportAtlas.Proofs.Checkout.Observation
import ImportAtlas.Proofs.Checkout.Session

/-!
# The checkouts as a finite map

With a git program that leaves a folder without links or nothing, a session from an empty directory
is one of a finite map from identities to trees: cloning adds an identity that is missing, deleting
takes one away, and reads and graphs are those of the tree that the map holds. Folders of owners
that are left behind do not show, except in the host's reason why a checkout is missing whose name
or real path would be too long.
-/

namespace ImportAtlas.Checkout

open Text Host

/-- The checkouts, each with its tree. -/
abbrev Catalog := Finmap fun _ : String × String => Entry

/-- A run of git that succeeds leaves a folder without links at its path; one that fails leaves
nothing. -/
structure IsHonest (git : Git) : Prop where
  success : ∀ host url path r, git (gitArguments url path) host = .ok r → r.success = true →
    ∃ ts, (Entry.folder ts).WellFormed ∧ (Entry.folder ts).LinkFree ∧
      LeavesAt host path (.folder ts) r.host
  failure : ∀ host url path r, git (gitArguments url path) host = .ok r → r.success = false →
    r.host = host

theorem IsHonest.isLocal {git : Git} (h : IsHonest git) : IsLocal git := by
  intro host url path r hr
  cases hsuccess : r.success with
  | true =>
      obtain ⟨ts, hwf, _, hleaves⟩ := h.success host url path r hr hsuccess
      exact Or.inr ⟨.folder ts, hwf, by simp, hleaves⟩
  | false => exact Or.inl (h.failure host url path r hr hsuccess)

/-- A clone, if the call is one, is of a whole repository and with an honest git program. -/
def Call.IsOrdinary : Call → Prop
  | .clone git _ _ folder => folder = none ∧ IsHonest git
  | _ => True

theorem Call.IsOrdinary.isLocal {call : Call} (h : call.IsOrdinary) :
    ∀ g ∈ call.git?, IsLocal g := by
  intro g hg
  cases call with
  | clone git clock url folder =>
      obtain rfl := Option.some.inj hg
      exact h.2.isLocal
  | delete owner name => cases hg
  | read owner name path => cases hg
  | graph builder owner name => cases hg

/-- The directory's entries with one checkout alone, or with none. -/
def Contents.single (owner name : String) : Option Entry → Contents
  | none => []
  | some tree => [(owner, .folder [(name, tree)])]

/-- The host on which the directory holds one checkout alone, or none. -/
def Depot.shelf (d : Depot) (owner name : String) (tree : Option Entry) : Host :=
  d.holding (.single owner name tree)

def Depot.info (d : Depot) (owner name url clock : String) : CheckoutInfo :=
  ⟨owner, name, url, d.path owner name, clock, none⟩

/-- How two reads of one checkout compare. -/
abbrev ReadRelation :=
  String → String → Except CheckoutError String → Except CheckoutError String → Prop

def ExactRead : ReadRelation := fun _ _ before after => after = before

/-- One call on a catalog, with what launching git comes to in it. A read has to agree with that of
the checkout alone. -/
inductive Catalog.Step (agree : ReadRelation) (d : Depot) :
    Catalog → Call → Option (Except HostError GitResult) → Answer → Catalog → Prop
  | refused {m : Catalog} {git : Git} {clock url : String}
      (refuses : Identity.ofGithubUrl? url = none) :
      Step agree d m (.clone git clock url none) none (.cloned [] (.error (.invalidUrl url))) m
  | reused {m : Catalog} {git : Git} {clock url owner name : String}
      (names : Identity.ofGithubUrl? url = some (owner, name)) (there : (owner, name) ∈ m) :
      Step agree d m (.clone git clock url none) none
        (.cloned [] (.ok (d.info owner name url clock))) m
  | tooLong {m : Catalog} {git : Git} {clock url owner name : String}
      (names : Identity.ofGithubUrl? url = some (owner, name)) (absent : (owner, name) ∉ m)
      (long : ¬ Host.Fits (Location.join d.reposDir owner) [owner]) :
      Step agree d m (.clone git clock url none) none
        (.cloned [] (.error (.createFailed (Location.join d.reposDir owner) .nameTooLong))) m
  | unlaunched {m : Catalog} {git : Git} {clock url owner name : String} {cause : HostError}
      (names : Identity.ofGithubUrl? url = some (owner, name)) (absent : (owner, name) ∉ m)
      (fits : Host.Fits (Location.join d.reposDir owner) [owner]) :
      Step agree d m (.clone git clock url none) (some (.error cause))
        (.cloned [] (.error (.launchFailed cause))) m
  | failed {m : Catalog} {git : Git} {clock url owner name : String} {r : GitResult}
      (names : Identity.ofGithubUrl? url = some (owner, name)) (absent : (owner, name) ∉ m)
      (fits : Host.Fits (Location.join d.reposDir owner) [owner]) (fails : r.success = false) :
      Step agree d m (.clone git clock url none) (some (.ok r))
        (.cloned [gitArguments url (d.path owner name)] (.error (.gitFailed (trim r.stderr)))) m
  | made {m : Catalog} {git : Git} {clock url owner name : String} {r : GitResult}
      {tree : Entry} (names : Identity.ofGithubUrl? url = some (owner, name))
      (absent : (owner, name) ∉ m) (fits : Host.Fits (Location.join d.reposDir owner) [owner])
      (succeeds : r.success = true)
      (leaves : r.host.resolve (d.path owner name) = .ok ⟨d.place ++ [owner, name], tree⟩)
      (free : tree.LinkFree) (folder : tree.isFolder = true) :
      Step agree d m (.clone git clock url none) (some (.ok r))
        (.cloned [gitArguments url (d.path owner name)] (.ok (d.info owner name url clock)))
        (m.insert (owner, name) tree)
  | deleted {m : Catalog} {owner name : String} (valid : IsIdentity owner name) :
      Step agree d m (.delete owner name) none (.deleted (.ok (m.lookup (owner, name)).isSome))
        (m.erase (owner, name))
  | undeleted {m : Catalog} {owner name : String} {e : CheckoutError}
      (invalid : localPath d.reposDir owner name = .error e) :
      Step agree d m (.delete owner name) none (.deleted (.error e)) m
  | read {m : Catalog} {owner name path : String} {text : Except CheckoutError String}
      (agrees : agree owner name
        (readSource d.reposDir (d.shelf owner name (m.lookup (owner, name))) owner name path) text) :
      Step agree d m (.read owner name path) none (.text text) m
  | graph {m : Catalog} (builder : GraphBuilder) (owner name : String) :
      Step agree d m (.graph builder owner name) none
        (.graph (builder.buildGraph (d.shelf owner name (m.lookup (owner, name)))
          (.store d.reposDir) owner name none).value) m

/-- The visits of a session are the steps of a catalog, one after another. -/
inductive Catalog.Runs (agree : ReadRelation) (d : Depot) : Catalog → List Visit → Prop
  | nil (m : Catalog) : Runs agree d m []
  | cons {m m' : Catalog} {v : Visit} {vs : List Visit}
      (step : Step agree d m v.call (gitLaunch? d.reposDir v.before v.call) v.answer m')
      (rest : Runs agree d m' vs) : Runs agree d m (v :: vs)

variable {d : Depot} {es es' : Contents} {m m' : Catalog} {owner name path url clock : String}
  {git : Git} {tree : Entry} {r : GitResult}

/-- The directory holds the checkouts of the catalog, and they can be found. -/
structure Holds (d : Depot) (es : Contents) (m : Catalog) : Prop extends es.IsTidy where
  lookup : ∀ owner name, m.lookup (owner, name) = es.checkout? owner name
  found : ∀ owner name tree, es.checkout? owner name = some tree →
    tree.isFolder = true ∧ d.Fits owner name

theorem holds_nil (d : Depot) : Holds d [] ∅ where
  toIsTidy := Contents.isTidy_nil
  lookup := by simp [Contents.checkout?_eq]
  found := by simp [Contents.checkout?_eq]

namespace Holds

theorem mem_iff (h : Holds d es m) (hid : IsIdentity owner name) :
    (owner, name) ∈ m ↔ (d.holding es).fileExists (d.path owner name) = true := by
  rw [← Finmap.lookup_isSome, h.lookup, Depot.fileExists_path_iff h.toIsPlain hid]
  constructor
  · intro hsome
    obtain ⟨tree, htree⟩ := Option.isSome_iff_exists.mp hsome
    exact ⟨hsome, (h.found owner name tree htree).2⟩
  · exact And.left

theorem not_mem (h : Holds d es m) (hid : IsIdentity owner name)
    (habsent : (d.holding es).fileExists (d.path owner name) = false) : (owner, name) ∉ m := by
  rw [h.mem_iff hid, habsent]
  exact Bool.false_ne_true

theorem withOwner (h : Holds d es m) (howner : IsEntryName owner) :
    Holds d (es.withOwner owner) m where
  toIsTidy := h.toIsTidy.withOwner howner
  lookup o n := by rw [es.checkout?_withOwner, h.lookup]
  found o n tree htree := h.found o n tree (by rwa [es.checkout?_withOwner] at htree)

/-- One checkout changes in the directory as in the catalog. -/
theorem change (h : Holds d es m) (hid : IsIdentity owner name) {ds : List (String × Entry)}
    (howner : Entry.find? owner es = some (.folder ds)) {new : Option Entry}
    (hnew : ∀ tree ∈ new, tree.WellFormed ∧ tree.LinkFree)
    (hfound : ∀ tree ∈ new, tree.isFolder = true ∧ d.Fits owner name)
    (hself : m'.lookup (owner, name) = new)
    (hother : ∀ key, key ≠ (owner, name) → m'.lookup key = m.lookup key) :
    Holds d (es.change owner name new) m' where
  toIsTidy := h.toIsTidy.change hid.isEntryName_name howner hnew
  lookup := by
    intro o n
    by_cases hsame : o = owner ∧ n = name
    · rw [hsame.1, hsame.2, hself, Contents.checkout?_change_self howner]
    · rw [hother _ (by simpa using hsame), h.lookup, Contents.checkout?_change_of_ne hsame]
  found := by
    intro o n tree htree
    by_cases hsame : o = owner ∧ n = name
    · obtain ⟨rfl, rfl⟩ := hsame
      rw [Contents.checkout?_change_self howner] at htree
      exact hfound tree htree
    · rw [Contents.checkout?_change_of_ne hsame] at htree
      exact h.found o n tree htree

theorem insert (h : Holds d es m) (hid : IsIdentity owner name) {ds : List (String × Entry)}
    (howner : Entry.find? owner es = some (.folder ds)) (hwf : tree.WellFormed)
    (hfree : tree.LinkFree) (hfolder : tree.isFolder = true) (hfits : d.Fits owner name) :
    Holds d (es.change owner name (some tree)) (m.insert (owner, name) tree) := by
  refine h.change hid howner (fun e he => ?_) (fun e he => ?_) (Finmap.lookup_insert m)
    fun key hne => Finmap.lookup_insert_of_ne m hne
  · exact Option.some.inj he ▸ ⟨hwf, hfree⟩
  · exact Option.some.inj he ▸ ⟨hfolder, hfits⟩

theorem erase (h : Holds d es m) (hid : IsIdentity owner name) {ds : List (String × Entry)}
    (howner : Entry.find? owner es = some (.folder ds)) :
    Holds d (es.change owner name none) (m.erase (owner, name)) := by
  refine h.change hid howner (fun e he => ?_) (fun e he => ?_) (Finmap.lookup_erase _ m)
    fun key hne => Finmap.lookup_erase_ne hne
  · cases he
  · cases he

/-- Taking a missing checkout out of the catalog changes nothing. -/
theorem erase_of_absent (h : Holds d es m) (habsent : es.checkout? owner name = none) :
    Holds d es (m.erase (owner, name)) where
  toIsTidy := h.toIsTidy
  lookup := by
    intro o n
    by_cases hsame : o = owner ∧ n = name
    · rw [hsame.1, hsame.2, Finmap.lookup_erase, habsent]
    · rw [Finmap.lookup_erase_ne (by simpa using hsame), h.lookup]
  found := h.found

end Holds

/-! ## One checkout alone -/

theorem Contents.single_some (owner name : String) (tree : Entry) :
    single owner name (some tree) = change owner name (some tree) (withOwner owner []) := by
  simp [single, change, withOwner, Entry.alter, Entry.find?]

/-- What a checkout alone has in common with the directory that it is taken from. -/
theorem isTidy_single (hes : es.IsTidy) (owner name : String) :
    (Contents.single owner name (es.checkout? owner name)).IsTidy ∧
      es.checkout? owner name =
        (Contents.single owner name (es.checkout? owner name)).checkout? owner name ∧
      ((Entry.find? owner (Contents.single owner name (es.checkout? owner name))).isSome →
        (Entry.find? owner es).isSome) := by
  cases hcheckout : es.checkout? owner name with
  | none => exact ⟨Contents.isTidy_nil, by simp [Contents.single, Contents.checkout?_eq],
      by simp [Contents.single]⟩
  | some tree =>
      obtain ⟨hwf, hnames⟩ := hes.wellFormed.of_at? hcheckout
      obtain ⟨ds, howner, _⟩ := Contents.find?_of_checkout? hcheckout
      have hready : Entry.find? owner (Contents.withOwner owner []) = some (.folder []) := by
        rw [Contents.find?_withOwner, if_pos rfl]
        rfl
      rw [Contents.single_some]
      refine ⟨?_, (Contents.checkout?_change_self hready name _).symm, fun _ => by simp [howner]⟩
      refine (Contents.isTidy_nil.withOwner (hnames owner (by simp))).change
        (hnames name (by simp)) hready fun e he => ?_
      rw [← Option.some.inj he]
      exact ⟨hwf, hes.linkFree_of_checkout? hcheckout⟩

theorem Holds.sameRead_shelf (h : Holds d es m) (owner name path : String) :
    SameRead d owner name
      (readSource d.reposDir (d.shelf owner name (m.lookup (owner, name))) owner name path)
      (readSource d.reposDir (d.holding es) owner name path) := by
  obtain ⟨htidy, hcheckout, howner⟩ := isTidy_single h.toIsTidy owner name
  rw [h.lookup]
  exact sameRead_readSource htidy h.toIsTidy hcheckout howner path

theorem Holds.value_buildGraph_shelf (h : Holds d es m) (b : GraphBuilder) (owner name : String) :
    (b.buildGraph (d.holding es) (.store d.reposDir) owner name none).value =
      (b.buildGraph (d.shelf owner name (m.lookup (owner, name))) (.store d.reposDir) owner name
        none).value := by
  obtain ⟨htidy, hcheckout, _⟩ := isTidy_single h.toIsTidy owner name
  rw [h.lookup]
  exact value_buildGraph_congr htidy h.toIsTidy hcheckout b

/-! ## One call -/

theorem gitLaunch?_eq_none {clock url : String} {folder : Option String} {git : Git}
    (hes : es.IsPlain) (hurl : Identity.ofGithubUrl? url = some (owner, name))
    (h : (d.holding es).fileExists (d.path owner name) = false → ¬ IsReady d es owner) :
    gitLaunch? d.reposDir (d.holding es) (.clone git clock url folder) = none := by
  rw [Option.eq_none_iff_forall_ne_some]
  intro launch hlaunch
  obtain ⟨habsent, hready, _⟩ := (gitLaunch?_eq_some_iff hes hurl).mp hlaunch
  exact h habsent hready

/-- After an honest run the directory holds what the catalog does. -/
theorem Holds.ran (h : Holds d es m) (hid : IsIdentity owner name)
    (hready : IsReady d es owner) (hhonest : IsHonest git) (hsuccess : r.success = true)
    (hrun : git (gitArguments url (d.path owner name)) (d.holding (es.withOwner owner)) = .ok r) :
    ∃ es' tree, r.host = d.holding es' ∧ Holds d es' (m.insert (owner, name) tree) ∧
      r.host.resolve (d.path owner name) = .ok ⟨d.place ++ [owner, name], tree⟩ ∧
      tree.LinkFree ∧ tree.isFolder = true := by
  obtain ⟨ts, hwf, hfree, hleaves⟩ := hhonest.success (d.holding (es.withOwner owner)) url
    (d.path owner name) r hrun hsuccess
  have hhost := leavesAt_path h.toIsPlain hid hready hleaves
  obtain ⟨_, _, _, _, hexists⟩ := hleaves
  obtain ⟨ds, howner⟩ := hready.exists_folder
  have hprepared : Holds d (es.withOwner owner) m := h.withOwner hid.isEntryName_owner
  have hplain := hprepared.toIsPlain.change hid.isEntryName_name howner
    (fun tree htree => ⟨Option.some.inj htree ▸ hwf, Option.some.inj htree ▸ by simp⟩)
  have hcheckout := Contents.checkout?_change_self howner name (some (.folder ts))
  rw [hhost] at hexists ⊢
  have hfits := ((Depot.fileExists_path_iff hplain hid).mp hexists).2
  refine ⟨_, .folder ts, rfl, hprepared.insert hid howner hwf hfree rfl hfits, ?_, hfree, rfl⟩
  exact (Depot.lookup_path_eq_ok_iff hplain hid true).mpr ⟨_, rfl, hcheckout, hfits⟩

/-- An honest run is a step of the catalog, whether it succeeds or fails. -/
theorem Holds.step_ran (h : Holds d es m) (hurl : Identity.ofGithubUrl? url = some (owner, name))
    (habsent : (d.holding es).fileExists (d.path owner name) = false)
    (hready : IsReady d es owner) (hhonest : IsHonest git)
    (hrun : git (gitArguments url (d.path owner name)) (d.holding (es.withOwner owner)) = .ok r) :
    ∃ es' m', r.host = d.holding es' ∧ Holds d es' m' ∧
      Catalog.Step (SameRead d) d m (.clone git clock url none) (some (.ok r))
        (.cloned [gitArguments url (d.path owner name)]
          (if r.success then .ok (d.info owner name url clock)
            else .error (.gitFailed (trim r.stderr)))) m' := by
  have hid : IsIdentity owner name := isIdentity_of_ofGithubUrl? hurl
  cases hsuccess : r.success with
  | true =>
      obtain ⟨es', tree, hhost, hholds, hleaves, hfree, hfolder⟩ :=
        h.ran hid hready hhonest hsuccess hrun
      exact ⟨es', _, hhost, hholds,
        .made hurl (h.not_mem hid habsent) hready.fits hsuccess hleaves hfree hfolder⟩
  | false =>
      have hhost : r.host = d.holding (es.withOwner owner) :=
        hhonest.failure _ url (d.path owner name) r hrun hsuccess
      exact ⟨_, m, hhost, h.withOwner hid.isEntryName_owner,
        .failed hurl (h.not_mem hid habsent) hready.fits hsuccess⟩

theorem Holds.step_clone (h : Holds d es m) (hgit : IsHonest git) (clock url : String) :
    ∃ es' m', (perform d.reposDir (d.holding es) (.clone git clock url none)).1 = d.holding es' ∧
      Holds d es' m' ∧
      Catalog.Step (SameRead d) d m (.clone git clock url none)
        (gitLaunch? d.reposDir (d.holding es) (.clone git clock url none))
        (perform d.reposDir (d.holding es) (.clone git clock url none)).2 m' := by
  cases hurl : Identity.ofGithubUrl? url with
  | none =>
      have hidle : gitLaunch? d.reposDir (d.holding es) (.clone git clock url none) = none := by
        simp [gitLaunch?, hurl]
      refine ⟨es, m, ?_, h, ?_⟩
      · rw [perform, value_clone_of_refused d.reposDir _ hurl]
      · rw [perform, value_clone_of_refused d.reposDir _ hurl, hidle]
        exact .refused hurl
  | some identity =>
      obtain ⟨owner, name⟩ := identity
      have hid : IsIdentity owner name := isIdentity_of_ofGithubUrl? hurl
      have hidle (missing : (d.holding es).fileExists (d.path owner name) = false →
          ¬ IsReady d es owner) :
          gitLaunch? d.reposDir (d.holding es) (.clone git clock url none) = none :=
        gitLaunch?_eq_none h.toIsPlain hurl missing
      obtain ⟨ws, result, hperform, hcloned⟩ :=
        exists_cloned (d := d) h.toIsPlain hurl git clock none
      rw [hperform]
      cases hcloned with
      | reused there answers =>
          rw [hidle fun habsent => absurd there (by simp [habsent]), answers, settled_of_none _ rfl]
          exact ⟨es, m, rfl, h, .reused hurl ((h.mem_iff hid).mpr there)⟩
      | tooLong absent long =>
          rw [hidle fun _ hready => long hready.fits]
          exact ⟨es, m, rfl, h, .tooLong hurl (h.not_mem hid absent) long⟩
      | blocked _ _ there blocks => exact absurd (h.owners _ _ there) (by simp [blocks])
      | unlaunched absent ready fails =>
          rw [(gitLaunch?_eq_some_iff h.toIsPlain hurl).mpr ⟨absent, ready, fails⟩]
          exact ⟨_, m, rfl, h.withOwner hid.isEntryName_owner,
            .unlaunched hurl (h.not_mem hid absent) ready.fits⟩
      | ran absent ready done answers =>
          rw [(gitLaunch?_eq_some_iff h.toIsPlain hurl).mpr ⟨absent, ready, done⟩, answers,
            settled_of_none _ rfl]
          exact h.step_ran hurl absent ready hgit done

theorem Holds.step_delete (h : Holds d es m) (owner name : String) :
    ∃ es' m', (perform d.reposDir (d.holding es) (.delete owner name)).1 = d.holding es' ∧
      Holds d es' m' ∧
      Catalog.Step (SameRead d) d m (.delete owner name) none
        (perform d.reposDir (d.holding es) (.delete owner name)).2 m' := by
  rw [perform]
  by_cases hid : IsIdentity owner name
  · rw [value_delete h.toIsPlain hid]
    have hanswer : Catalog.Step (SameRead d) d m _ _ _ _ := .deleted hid
    rw [h.lookup] at hanswer
    cases hcheckout : es.checkout? owner name with
    | none =>
        have habsent : ¬ (d.holding es).fileExists (d.path owner name) = true := by
          rw [Depot.fileExists_path_iff h.toIsPlain hid, hcheckout]
          simp
        rw [if_neg habsent]
        rw [hcheckout] at hanswer
        exact ⟨es, _, rfl, h.erase_of_absent hcheckout, hanswer⟩
    | some tree =>
        obtain ⟨hfolder, hfits⟩ := h.found owner name tree hcheckout
        obtain ⟨ds, howner, _⟩ := Contents.find?_of_checkout? hcheckout
        have hthere : (d.holding es).fileExists (d.path owner name) = true := by
          rw [Depot.fileExists_path_iff h.toIsPlain hid, hcheckout]
          exact ⟨rfl, hfits⟩
        rw [if_pos hthere, if_pos (by simpa using hfolder)]
        rw [hcheckout] at hanswer
        exact ⟨_, _, rfl, h.erase hid howner, hanswer⟩
  · obtain ⟨part, value, hpath⟩ := localPath_eq_error d.reposDir hid
    rw [value_delete_of_refused _ hpath]
    exact ⟨es, m, rfl, h, .undeleted hpath⟩

/-- What a call does to the directory it does to the catalog. -/
theorem Holds.step (h : Holds d es m) {call : Call} (hcall : call.IsOrdinary) :
    ∃ es' m', (perform d.reposDir (d.holding es) call).1 = d.holding es' ∧ Holds d es' m' ∧
      Catalog.Step (SameRead d) d m call (gitLaunch? d.reposDir (d.holding es) call)
        (perform d.reposDir (d.holding es) call).2 m' := by
  cases call with
  | clone git clock url folder =>
      obtain ⟨rfl, hgit⟩ := hcall
      exact h.step_clone hgit clock url
  | delete owner name => exact h.step_delete owner name
  | read owner name path => exact ⟨es, m, rfl, h, .read (h.sameRead_shelf owner name path)⟩
  | graph builder owner name =>
      refine ⟨es, m, rfl, h, ?_⟩
      rw [perform, h.value_buildGraph_shelf]
      exact .graph builder owner name

/-! ## Whole sessions -/

/-- What one host shows of a checkout the other one shows too. -/
structure Undisturbed (d : Depot) (owner name : String) (before after : Host) : Prop where
  there : after.fileExists (d.path owner name) = before.fileExists (d.path owner name)
  reads : ∀ path, SameRead d owner name (readSource d.reposDir before owner name path)
    (readSource d.reposDir after owner name path)
  graphs : ∀ b : GraphBuilder, (b.buildGraph after (.store d.reposDir) owner name none).value =
    (b.buildGraph before (.store d.reposDir) owner name none).value

theorem undisturbed_of_isChange {call : Call} (hes : es.IsTidy) (hes' : es'.IsTidy)
    (hchange : IsChange call es es') (hid : IsIdentity owner name)
    (hother : call.identity? ≠ some (owner, name)) :
    Undisturbed d owner name (d.holding es) (d.holding es') where
  there := hes.fileExists_eq hes'.toIsPlain hid (hchange.others owner name hother)
  reads := sameRead_readSource hes hes' (hchange.others owner name hother) (hchange.owners owner)
  graphs := value_buildGraph_congr hes hes' (hchange.others owner name hother)

/-- The identity that a call gives cannot stand as folder names. -/
def Call.IsRefused : Call → Prop
  | .clone _ _ url _ => Identity.ofGithubUrl? url = none
  | .delete owner name | .read owner name _ | .graph _ owner name => ¬ IsIdentity owner name

def Answer.IsFailure : Answer → Prop
  | .cloned launched result => launched = [] ∧ ∃ e, result = .error e
  | .deleted result => ∃ e, result = .error e
  | .text result => ∃ e, result = .error e
  | .graph result => ∃ e, result = .error e

theorem isFailure_of_isRefused {call : Call} (h : call.IsRefused) (reposDir : String)
    (host : Host) :
    (perform reposDir host call).2.IsFailure ∧ (perform reposDir host call).1 = host := by
  cases call with
  | clone git clock url folder =>
      rw [perform, value_clone_of_refused reposDir _ h]
      exact ⟨⟨rfl, _, rfl⟩, rfl⟩
  | delete owner name =>
      obtain ⟨part, value, hpath⟩ := localPath_eq_error reposDir h
      rw [perform, value_delete_of_refused host hpath]
      exact ⟨⟨_, rfl⟩, rfl⟩
  | read owner name path =>
      obtain ⟨part, value, hroot⟩ := localPath_eq_error reposDir h
      rw [perform, readSource_of_refused hroot]
      refine ⟨?_, rfl⟩
      cases written path with
      | error e => exact ⟨e, rfl⟩
      | ok normalized => exact ⟨_, rfl⟩
  | graph builder owner name =>
      obtain ⟨part, value, hroot⟩ := localPath_eq_error reposDir h
      rw [perform, GraphBuilder.value_buildGraph_store, hroot]
      exact ⟨⟨_, rfl⟩, rfl⟩

structure RefinesCatalog (d : Depot) (calls : List Call) : Prop where
  runs : Catalog.Runs (SameRead d) d ∅ (visits d.reposDir d.host calls)
  refused : ∀ v ∈ visits d.reposDir d.host calls, v.call.IsRefused →
    v.answer.IsFailure ∧ v.after = v.before
  frame : ∀ v ∈ visits d.reposDir d.host calls, ∀ owner name, IsIdentity owner name →
    v.call.identity? ≠ some (owner, name) → Undisturbed d owner name v.before v.after

theorem Holds.runs (h : Holds d es m) {calls : List Call}
    (hcalls : ∀ call ∈ calls, call.IsOrdinary) :
    Catalog.Runs (SameRead d) d m (visits d.reposDir (d.holding es) calls) := by
  induction calls generalizing es m with
  | nil => exact .nil m
  | cons call calls ih =>
      rw [List.forall_mem_cons] at hcalls
      obtain ⟨es', m', hperform, hholds, hstep⟩ := h.step hcalls.1
      refine .cons hstep ?_
      rw [visit, hperform]
      exact ih hholds hcalls.2

theorem Holds.exists_of_mem_visits (h : Holds d es m) {calls : List Call}
    (hcalls : ∀ call ∈ calls, call.IsOrdinary) {v : Visit}
    (hv : v ∈ visits d.reposDir (d.holding es) calls) :
    ∃ es' m', Holds d es' m' ∧ v.call.IsOrdinary ∧ v = visit d.reposDir (d.holding es') v.call := by
  induction calls generalizing es m with
  | nil => simp [visits] at hv
  | cons call calls ih =>
      rw [List.forall_mem_cons] at hcalls
      rw [visits, List.mem_cons] at hv
      rcases hv with rfl | hv
      · exact ⟨es, m, h, hcalls.1, rfl⟩
      · obtain ⟨es', m', hperform, hholds, _⟩ := h.step hcalls.1
        rw [visit, hperform] at hv
        exact ih hholds hcalls.2 hv

/-- From an empty directory and with an honest git program, every session is one of a finite map
from identities to trees, and no call on one identity disturbs what is seen of another. -/
theorem refinesCatalog_of_isOrdinary (d : Depot) {calls : List Call}
    (hcalls : ∀ call ∈ calls, call.IsOrdinary) : RefinesCatalog d calls where
  runs := by
    have hruns := (holds_nil d).runs hcalls
    rwa [d.holding_nil] at hruns
  refused := by
    intro v hv hrefused
    rw [← d.holding_nil] at hv
    obtain ⟨es, m, _, _, hvisit⟩ := (holds_nil d).exists_of_mem_visits hcalls hv
    rw [hvisit]
    exact isFailure_of_isRefused hrefused d.reposDir (d.holding es)
  frame := by
    intro v hv owner name hid hother
    rw [← d.holding_nil] at hv
    obtain ⟨es, m, hholds, hordinary, hvisit⟩ := (holds_nil d).exists_of_mem_visits hcalls hv
    obtain ⟨es₁, hchange, hperform₁⟩ := exists_change (d := d) hholds.toIsPlain v.call
      hordinary.isLocal
    obtain ⟨es₂, m₂, hperform₂, hholds₂, _⟩ := hholds.step hordinary
    -- The entries that the change speaks of are those that the catalog is held by.
    have hsame : es₁ = es₂ := d.holding_injective (hperform₁.symm.trans hperform₂)
    rw [hvisit, visit, hperform₂]
    exact undisturbed_of_isChange hholds.toIsTidy hholds₂.toIsTidy (hsame ▸ hchange) hid hother

/-! ### A clone, and a name that is too long -/

theorem Catalog.Step.lookup_of_ne {agree : ReadRelation} {call : Call}
    {launch : Option (Except HostError GitResult)} {answer : Answer}
    (h : Catalog.Step agree d m call launch answer m')
    (hother : call.identity? ≠ some (owner, name)) :
    m'.lookup (owner, name) = m.lookup (owner, name) := by
  cases h with
  | made names _ _ _ _ _ _ =>
      refine Finmap.lookup_insert_of_ne _ fun heq => hother ?_
      rw [Call.identity?, names, heq]
  | deleted valid =>
      refine Finmap.lookup_erase_ne fun heq => hother ?_
      rw [Call.identity?, heq]
  | _ => rfl

def freshTree : Entry := .folder [("a.js", .file ⟨#[]⟩)]

def freshContents : Contents := [("o", .folder [("m", freshTree)])]

def freshCall : Call :=
  .clone (leaving freshTree true "") "now" "https://github.com/o/m" none

theorem isHonest_leaving {ts : List (String × Entry)} (hwf : (Entry.folder ts).WellFormed)
    (hfree : (Entry.folder ts).LinkFree) (stderr : String) :
    IsHonest (leaving (.folder ts) true stderr) where
  success := by
    intro host url path r hr hsuccess
    rcases leavesAt_leaving (.folder ts) true stderr host url path with h | ⟨after, h, hleaves⟩
    · obtain rfl := Except.ok.inj (h.symm.trans hr)
      cases hsuccess
    · obtain rfl := Except.ok.inj (h.symm.trans hr)
      exact ⟨ts, hwf, hfree, hleaves⟩
  failure := by
    intro host url path r hr hfailure
    rcases leavesAt_leaving (.folder ts) true stderr host url path with h | ⟨after, h, _⟩
    · obtain rfl := Except.ok.inj (h.symm.trans hr)
      rfl
    · obtain rfl := Except.ok.inj (h.symm.trans hr)
      cases hfailure

theorem isOrdinary_fresh : freshCall.IsOrdinary :=
  ⟨rfl, isHonest_leaving (by decide) (by decide) ""⟩

theorem isReady_repos : IsReady reposDepot [] "o" := ⟨by decide, by simp⟩

theorem isTidy_fresh : freshContents.IsTidy := by
  obtain ⟨ds, howner⟩ := isReady_repos.exists_folder
  exact (Contents.isTidy_nil.withOwner (by decide)).change (by decide) howner
    fun tree htree => Option.some.inj htree ▸ ⟨by decide, by decide⟩

theorem visit_fresh : visit "/repos" reposDepot.host freshCall =
    ⟨reposDepot.host, freshCall, reposDepot.holding freshContents,
      .cloned [gitArguments "https://github.com/o/m" "/repos/o/m"]
        (.ok ⟨"o", "m", "https://github.com/o/m", "/repos/o/m", "now", none⟩)⟩ := by
  have hurl : Identity.ofGithubUrl? "https://github.com/o/m" = some ("o", "m") := by cbv
  have hlink : ∀ target, freshTree ≠ .link target := by simp [freshTree]
  have hvisit := visit_leaving (d := reposDepot) Contents.isPlain_nil hurl rfl isReady_repos
    (by decide) (e := freshTree) (by decide) hlink true "" "now"
  rw [reposDepot.holding_nil] at hvisit
  exact hvisit

theorem longName_ne : longName 256 ≠ "m" := by
  intro heq
  have hsize := utf8ByteSize_longName 256
  rw [heq] at hsize
  revert hsize
  decide

theorem isIdentity_long : IsIdentity "o" (longName 256) :=
  ⟨by decide, isValidPart_longName (by decide)⟩

def longCall : Call := .read "o" (longName 256) "x.js"

theorem readSource_long (hes : es.IsTidy) (habsent : es.checkout? "o" (longName 256) = none) :
    readSource "/repos" (reposDepot.holding es) "o" (longName 256) "x.js" =
      .error (.checkoutMissing "o" (longName 256)
        (if (Entry.find? "o" es).isSome then .nameTooLong else .notFound)) := by
  have hwritten : written "x.js" = .ok "x.js" := by decide
  have hbase : reposDepot.host.realBase reposDepot.reposDir = .ok ⟨["repos"], .folder []⟩ := by cbv
  have hfits : FitsBelow reposDepot.place ["o"] := by decide
  have hlong : ¬ FitsBelow reposDepot.place ["o", longName 256] := by
    intro hbelow
    have hname := hbelow.2 (longName 256) (by simp)
    rw [utf8ByteSize_longName] at hname
    exact absurd hname (by decide)
  have habsence : absence reposDepot es "o" (longName 256) =
      if (Entry.find? "o" es).isSome then .nameTooLong else .notFound := by
    rw [absence, hbase]
    cases (Entry.find? "o" es).isSome <;> simp [hfits, hlong]
  have hmissing := canonicalize_path_of_absent (d := reposDepot) hes (isIdentity_long) habsent
  have hread : readSource reposDepot.reposDir (reposDepot.holding es) "o" (longName 256) "x.js" = _ :=
    readSource_of_error (reposDepot.localPath (isIdentity_long)) hmissing
  rw [hwritten, habsence] at hread
  exact hread

theorem Catalog.Step.of_read {agree : ReadRelation}
    {launch : Option (Except HostError GitResult)} {answer : Answer}
    (h : Catalog.Step agree d m (.read owner name path) launch answer m') :
    m' = m ∧ ∃ text, answer = .text text ∧ agree owner name
      (readSource d.reposDir (d.shelf owner name (m.lookup (owner, name))) owner name path) text := by
  cases h with
  | read agrees => exact ⟨rfl, _, rfl, agrees⟩

theorem identity_fresh : freshCall.identity? ≠ some ("o", longName 256) := by
  have hurl : freshCall.identity? = some ("o", "m") := by cbv
  rw [hurl]
  exact fun heq => longName_ne (Prod.mk.inj (Option.some.inj heq)).2.symm

theorem isOrdinary_long : ∀ call ∈ [longCall, freshCall, longCall], call.IsOrdinary := by
  intro call hcall
  simp only [List.mem_cons, List.not_mem_nil, or_false] at hcall
  rcases hcall with rfl | rfl | rfl
  · exact trivial
  · exact isOrdinary_fresh
  · exact trivial

/-- A read of a missing checkout with too long a name does not say the same after another checkout
of its owner was made. -/
theorem not_runs_exactly : (∀ call ∈ [longCall, freshCall, longCall], call.IsOrdinary) ∧
    ¬ Catalog.Runs ExactRead reposDepot ∅
      (visits "/repos" reposDepot.host [longCall, freshCall, longCall]) := by
  refine ⟨isOrdinary_long, fun hruns => ?_⟩
  have hafter : (visit "/repos" reposDepot.host longCall).after = reposDepot.host := rfl
  rw [visits, visits, visits, visits, hafter, visit_fresh] at hruns
  have habsent : freshContents.checkout? "o" (longName 256) = none := by
    simp [freshContents, Contents.checkout?_eq, Entry.find?_cons, Entry.child?, Entry.entries,
      Ne.symm longName_ne]
  cases hruns with
  | cons first rest =>
      cases rest with
      | cons second rest =>
          cases rest with
          | cons third _ =>
              obtain ⟨hfirst, _⟩ := first.of_read
              have hsecond := second.lookup_of_ne identity_fresh
              obtain ⟨_, text, hanswer, htext⟩ := third.of_read
              rw [hsecond, hfirst, Finmap.lookup_empty] at htext
              have halone := readSource_long Contents.isTidy_nil rfl
              have hread := readSource_long isTidy_fresh habsent
              have hsame : readSource "/repos" (reposDepot.holding freshContents) "o" (longName 256)
                  "x.js" = readSource "/repos" (reposDepot.holding []) "o" (longName 256) "x.js" :=
                (Answer.text.inj hanswer).trans htext
              rw [halone, hread] at hsame
              simp [freshContents, Entry.find?_cons] at hsame

theorem refinesCatalog_fresh :
    Catalog.Runs (SameRead reposDepot) reposDepot ∅
        (visits "/repos" reposDepot.host [longCall, freshCall, longCall]) ∧
      Undisturbed reposDepot "o" (longName 256) reposDepot.host (reposDepot.holding freshContents) := by
  have hrefines := refinesCatalog_of_isOrdinary reposDepot isOrdinary_long
  have hmem : visit "/repos" reposDepot.host freshCall ∈
      visits "/repos" reposDepot.host [longCall, freshCall, longCall] := by
    rw [visits, visits]
    exact List.mem_cons_of_mem _ List.mem_cons_self
  have hframe := hrefines.frame _ hmem "o" (longName 256) (isIdentity_long) identity_fresh
  rw [visit_fresh] at hframe
  exact ⟨hrefines.runs, hframe⟩

end ImportAtlas.Checkout
