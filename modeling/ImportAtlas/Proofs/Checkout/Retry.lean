import ImportAtlas.Proofs.Checkout.Session

/-!
# Cloning again

A clone takes a checkout that is there for granted. So a clone that succeeds goes back to a run of
git since the checkout was last absent, but that run has succeeded only if no failed run has left
anything behind.
-/

namespace ImportAtlas.Checkout

open Text Host

variable {d : Depot} {es es' : Contents} {owner name : String} {history : List Visit} {v : Visit}

/-- The call is a clone of the repository, and it succeeds. -/
def Visit.Succeeds (v : Visit) (owner name : String) : Prop :=
  v.call.identity? = some (owner, name) ∧ ∃ launched info, v.answer = .cloned launched (.ok info)

/-- Since the checkout was last absent git has been run for it, and that run has succeeded or else
it has left something in the checkout's place. -/
def Backed (reposDir owner name : String) (history : List Visit) : Prop :=
  ∃ earlier w later r, history = earlier ++ w :: later ∧
    w.call.identity? = some (owner, name) ∧ gitRun? reposDir w.before w.call = some r ∧
    w.before.fileExists (Location.joinAll reposDir [owner, name]) = false ∧
    (∀ u ∈ later, u.before.fileExists (Location.joinAll reposDir [owner, name]) = true) ∧
    (r.success = true ∨
      r.success = false ∧ r.host.fileExists (Location.joinAll reposDir [owner, name]) = true)

theorem Backed.snoc (h : Backed d.reposDir owner name history)
    (hv : v.before.fileExists (d.path owner name) = true) :
    Backed d.reposDir owner name (history ++ [v]) := by
  obtain ⟨earlier, w, later, r, rfl, hcall, hrun, habsent, hlater, hleft⟩ := h
  refine ⟨earlier, w, later ++ [v], r, by simp, hcall, hrun, habsent, ?_, hleft⟩
  intro u hu
  rcases List.mem_append.mp hu with hu | hu
  · exact hlater u hu
  · rw [List.mem_singleton.mp hu]
    exact hv

theorem backed_of_gitRun? {r : GitResult} (history : List Visit)
    (hcall : v.call.identity? = some (owner, name))
    (hrun : gitRun? d.reposDir v.before v.call = some r)
    (habsent : v.before.fileExists (d.path owner name) = false)
    (hleft : r.success = true ∨ r.host.fileExists (d.path owner name) = true) :
    Backed d.reposDir owner name (history ++ [v]) := by
  refine ⟨history, v, [], r, rfl, hcall, hrun, habsent, by simp, ?_⟩
  cases hsuccess : r.success with
  | true => exact Or.inl rfl
  | false => exact Or.inr ⟨rfl, hleft.resolve_left (by simp [hsuccess])⟩

/-! ## One call -/

/-- A checkout that was absent is there after a call only if the call has run git for it. -/
theorem gitRun?_of_appears (hes : es.IsPlain) (hid : IsIdentity owner name) {call : Call}
    (hgit : ∀ g ∈ call.git?, IsLocal g)
    (habsent : (d.holding es).fileExists (d.path owner name) = false)
    (hthere : (perform d.reposDir (d.holding es) call).1.fileExists (d.path owner name) = true) :
    call.identity? = some (owner, name) ∧ ∃ r,
      gitRun? d.reposDir (d.holding es) call = some r ∧
        r.host = (perform d.reposDir (d.holding es) call).1 := by
  have hcall : call.identity? = some (owner, name) := by
    by_contra hother
    obtain ⟨es', hchange, hperform⟩ := exists_change (d := d) hes call hgit
    rw [hperform, hes.fileExists_eq hchange.plain hid (hchange.others owner name hother),
      habsent] at hthere
    cases hthere
  refine ⟨hcall, ?_⟩
  cases call with
  | clone git clock url folder =>
      have hurl : Identity.ofGithubUrl? url = some (owner, name) := hcall
      obtain ⟨ws, result, hperform, hcloned⟩ := exists_cloned (d := d) hes hurl git clock folder
      rw [hperform] at hthere ⊢
      -- The new owner's folder alone does not make the checkout be there.
      have hsame : (d.holding (es.withOwner owner)).fileExists (d.path owner name) = false := by
        rw [hes.fileExists_eq (hes.withOwner hid.isEntryName_owner) hid
          (es.checkout?_withOwner owner owner name), habsent]
      cases hcloned with
      | reused there _ => exact absurd there (by simp [habsent])
      | tooLong _ long => exact absurd hthere (by simp [habsent])
      | blocked _ fits there blocks => exact absurd hthere (by simp [habsent])
      | unlaunched _ ready fails => exact absurd hthere (by simp [hsame])
      | @ran _ ready r done _ answers =>
          exact ⟨r, (gitRun?_eq_some_iff hes hurl).mpr ⟨habsent, ready, done⟩, rfl⟩
  | delete o n =>
      cases hcall
      rw [perform, value_delete hes hid, habsent] at hthere
      simp [habsent] at hthere
  | read o n path => exact absurd hthere (by simp [perform, habsent])
  | graph builder o n => exact absurd hthere (by simp [perform, habsent])

/-- A clone of an absent checkout succeeds only if its run of git does. -/
theorem gitRun?_of_succeeds (hes : es.IsPlain) {call : Call}
    (habsent : (d.holding es).fileExists (d.path owner name) = false)
    (hcall : call.identity? = some (owner, name)) {launched : List (List String)}
    {info : CheckoutInfo}
    (hanswer : (perform d.reposDir (d.holding es) call).2 = .cloned launched (.ok info)) :
    ∃ r, gitRun? d.reposDir (d.holding es) call = some r ∧ r.success = true := by
  cases call with
  | clone git clock url folder =>
      have hurl : Identity.ofGithubUrl? url = some (owner, name) := hcall
      obtain ⟨ws, result, hperform, hcloned⟩ := exists_cloned (d := d) hes hurl git clock folder
      rw [hperform] at hanswer
      have hresult : result = .ok info := (Answer.cloned.inj hanswer).2
      cases hcloned with
      | reused there _ => exact absurd there (by simp [habsent])
      | tooLong _ long => cases hresult
      | blocked _ fits there blocks => cases hresult
      | unlaunched _ ready fails => cases hresult
      | @ran _ ready r done _ answers =>
          refine ⟨r, (gitRun?_eq_some_iff hes hurl).mpr ⟨habsent, ready, done⟩, ?_⟩
          by_contra hfailed
          rw [if_neg hfailed, hresult] at answers
          cases answers
  | delete o n => cases hanswer
  | read o n path => cases hanswer
  | graph builder o n => cases hanswer

/-! ## Whole sessions -/

/-- The entries are plain, and a checkout that is there is backed by the session so far. -/
structure Accounted (d : Depot) (es : Contents) (owner name : String) (history : List Visit) :
    Prop where
  plain : es.IsPlain
  backed : (d.holding es).fileExists (d.path owner name) = true →
    Backed d.reposDir owner name history

/-- One call keeps the account. -/
theorem Accounted.step (h : Accounted d es owner name history) (hid : IsIdentity owner name)
    {call : Call} (hgit : ∀ g ∈ call.git?, IsLocal g) :
    ∃ es', (visit d.reposDir (d.holding es) call).after = d.holding es' ∧
      Accounted d es' owner name (history ++ [visit d.reposDir (d.holding es) call]) := by
  obtain ⟨es', hchange, hperform⟩ := exists_change (d := d) h.plain call hgit
  refine ⟨es', hperform, hchange.plain, fun hthere => ?_⟩
  rw [← hperform] at hthere
  cases hbefore : (d.holding es).fileExists (d.path owner name) with
  | true => exact (h.backed hbefore).snoc hbefore
  | false =>
      obtain ⟨hcall, r, hrun, hafter⟩ := gitRun?_of_appears h.plain hid hgit hbefore hthere
      exact backed_of_gitRun? history hcall hrun hbefore (Or.inr (hafter ▸ hthere))

theorem Accounted.backed_of_succeeds (h : Accounted d es owner name history) {call : Call}
    (hv : (visit d.reposDir (d.holding es) call).Succeeds owner name) :
    Backed d.reposDir owner name (history ++ [visit d.reposDir (d.holding es) call]) := by
  obtain ⟨hcall, launched, info, hanswer⟩ := hv
  cases hbefore : (d.holding es).fileExists (d.path owner name) with
  | true => exact (h.backed hbefore).snoc hbefore
  | false =>
      obtain ⟨r, hrun, hsuccess⟩ := gitRun?_of_succeeds h.plain hbefore hcall hanswer
      exact backed_of_gitRun? history hcall hrun hbefore (Or.inl hsuccess)

theorem Accounted.backed_visits (h : Accounted d es owner name history)
    (hid : IsIdentity owner name) {calls : List Call}
    (hgit : ∀ call ∈ calls, ∀ g ∈ call.git?, IsLocal g) {before after : List Visit}
    (hvisits : visits d.reposDir (d.holding es) calls = before ++ v :: after)
    (hv : v.Succeeds owner name) : Backed d.reposDir owner name (history ++ before ++ [v]) := by
  induction calls generalizing es history before with
  | nil => simp [visits] at hvisits
  | cons call calls ih =>
      rw [List.forall_mem_cons] at hgit
      rw [visits] at hvisits
      cases before with
      | nil =>
          obtain ⟨hfirst, _⟩ := List.cons.inj hvisits
          rw [List.append_nil, ← hfirst]
          exact h.backed_of_succeeds (hfirst ▸ hv)
      | cons first before =>
          obtain ⟨hfirst, hrest⟩ := List.cons.inj hvisits
          obtain ⟨es', hafter, hstep⟩ := h.step hid hgit.1
          rw [hafter] at hrest
          have hlater := ih hstep hgit.2 hrest
          rwa [hfirst, List.append_assoc history, List.singleton_append] at hlater

/-- Without a folder to look for, a clone succeeds exactly if the checkout is there or its run of
git succeeds. -/
theorem succeeds_iff (hes : es.IsPlain) {git : Git} {clock url : String}
    (hurl : Identity.ofGithubUrl? url = some (owner, name)) :
    (visit d.reposDir (d.holding es) (.clone git clock url none)).Succeeds owner name ↔
      (d.holding es).fileExists (d.path owner name) = true ∨
        ∃ r, gitRun? d.reposDir (d.holding es) (.clone git clock url none) = some r ∧
          r.success = true := by
  constructor
  · rintro ⟨hcall, launched, info, hanswer⟩
    cases habsent : (d.holding es).fileExists (d.path owner name) with
    | true => exact Or.inl rfl
    | false => exact Or.inr (gitRun?_of_succeeds hes habsent hcall hanswer)
  · rintro (hthere | ⟨r, hrun, hsuccess⟩)
    · have hpath := d.localPath (isIdentity_of_ofGithubUrl? hurl)
      refine ⟨hurl, [], ⟨owner, name, url, d.path owner name, clock, none⟩, ?_⟩
      rw [visit, perform, value_clone_of_present ⟨d.holding es, git, [], clock⟩ hurl hpath hthere,
        settled_of_none _ rfl]
    · obtain ⟨habsent, hready, hleft⟩ := (gitRun?_eq_some_iff hes hurl).mp hrun
      obtain ⟨ws, result, hperform, hcloned⟩ := exists_cloned (d := d) hes hurl git clock none
      refine ⟨hurl, ws.launched, ⟨owner, name, url, d.path owner name, clock, none⟩, ?_⟩
      rw [visit, hperform]
      cases hcloned with
      | reused there _ => exact absurd there (by simp [habsent])
      | tooLong _ long => exact absurd hready.fits long
      | blocked _ _ there blocks => exact absurd (hready.folder _ there) (by simp [blocks])
      | unlaunched _ _ fails =>
          rw [hleft] at fails
          cases fails
      | ran _ _ done answers =>
          obtain rfl := Except.ok.inj (hleft.symm.trans done)
          rw [answers, if_pos hsuccess, settled_of_none _ rfl]

structure RetriesFrom (d : Depot) (es : Contents) (owner name : String) (calls : List Call) :
    Prop where
  backed : ∀ before v after, visits d.reposDir (d.holding es) calls = before ++ v :: after →
    v.Succeeds owner name → Backed d.reposDir owner name (before ++ [v])
  succeeds_iff : ∀ v ∈ visits d.reposDir (d.holding es) calls, ∀ git clock url,
    v.call = .clone git clock url none → v.call.identity? = some (owner, name) →
      (v.Succeeds owner name ↔ v.before.fileExists (d.path owner name) = true ∨
        ∃ r, gitRun? d.reposDir v.before v.call = some r ∧ r.success = true)

/-- Whatever git does at its path in each run, a clone that succeeds goes back to a run of git since
the checkout was last absent: one that has succeeded, or one that has failed and left something. -/
theorem retriesFrom_of_isLocal (hes : es.IsPlain) (hid : IsIdentity owner name)
    (habsent : (d.holding es).fileExists (d.path owner name) = false) {calls : List Call}
    (hgit : ∀ call ∈ calls, ∀ g ∈ call.git?, IsLocal g) : RetriesFrom d es owner name calls where
  backed := by
    intro before v after hvisits hv
    have hstart : Accounted d es owner name [] :=
      ⟨hes, fun hthere => absurd hthere (by simp [habsent])⟩
    exact hstart.backed_visits hid hgit hvisits hv
  succeeds_iff := by
    intro v hv git clock url hcall hidentity
    obtain ⟨es', hes', _, hvisit⟩ := exists_plain_of_mem_visits hes hgit hv
    rw [hcall] at hidentity hvisit
    rw [hcall, hvisit]
    exact Checkout.succeeds_iff hes' hidentity

/-! ### A clone that is cut off, and the next one -/

def cutTree : Entry := .folder [("partial.js", .file ⟨#[]⟩)]

def cutContents : Contents := [("o", .folder [("n", cutTree)])]

def cutGit : Git := leaving cutTree false "fatal: early EOF"

def cutUrl : String := "https://github.com/o/n"

def cutCall : Call := .clone cutGit "now" cutUrl none

theorem ofGithubUrl?_cut : Identity.ofGithubUrl? cutUrl = some ("o", "n") := by cbv

theorem isPlain_cut : cutContents.IsPlain := by
  have hready : IsReady reposDepot [] "o" := ⟨by decide, by simp⟩
  obtain ⟨ds, howner⟩ := hready.exists_folder
  exact (Contents.isPlain_nil.withOwner (by decide)).change (by decide) howner
    fun tree htree => Option.some.inj htree ▸ ⟨by decide, by simp [cutTree]⟩

theorem visit_cut_first : visit "/repos" (reposDepot.holding []) cutCall =
    ⟨reposDepot.holding [], cutCall, reposDepot.holding cutContents,
      .cloned [gitArguments cutUrl "/repos/o/n"] (.error (.gitFailed "fatal: early EOF"))⟩ :=
  visit_leaving Contents.isPlain_nil ofGithubUrl?_cut rfl ⟨by decide, by simp⟩ (by decide)
    (by decide) (by simp [cutTree]) false "fatal: early EOF" "now"

theorem visit_cut_second : visit "/repos" (reposDepot.holding cutContents) cutCall =
    ⟨reposDepot.holding cutContents, cutCall, reposDepot.holding cutContents,
      .cloned [] (.ok ⟨"o", "n", cutUrl, "/repos/o/n", "now", none⟩)⟩ := by
  have hid : IsIdentity "o" "n" := ⟨by decide, by decide⟩
  have hpath : localPath "/repos" "o" "n" = .ok "/repos/o/n" := reposDepot.localPath hid
  have hthere : (reposDepot.holding cutContents).fileExists "/repos/o/n" = true :=
    (Depot.fileExists_path_iff isPlain_cut hid).mpr ⟨rfl, by decide⟩
  rw [visit, cutCall, perform, value_clone_of_present ⟨reposDepot.holding cutContents, _, [], _⟩
    ofGithubUrl?_cut hpath hthere, settled_of_none _ rfl]

theorem visits_cut : visits "/repos" (reposDepot.holding []) [cutCall, cutCall] =
    [visit "/repos" (reposDepot.holding []) cutCall,
      visit "/repos" (reposDepot.holding cutContents) cutCall] := by
  rw [visits, visits, visits, visit_cut_first]

/-- The second clone succeeds by what the first one, which failed, has left. -/
theorem retriesFrom_cut : ∃ v w,
    visits "/repos" (reposDepot.holding []) [cutCall, cutCall] = [v, w] ∧
      v.answer =
        .cloned [gitArguments cutUrl "/repos/o/n"] (.error (.gitFailed "fatal: early EOF")) ∧
      w.answer = .cloned [] (.ok ⟨"o", "n", cutUrl, "/repos/o/n", "now", none⟩) ∧
      Backed "/repos" "o" "n" [v, w] := by
  have hid : IsIdentity "o" "n" := ⟨by decide, by decide⟩
  have habsent : (reposDepot.holding []).fileExists (reposDepot.path "o" "n") = false := by
    rw [Bool.eq_false_iff, Ne, Depot.fileExists_path_iff Contents.isPlain_nil hid]
    decide
  have hgit : ∀ call ∈ [cutCall, cutCall], ∀ g ∈ call.git?, IsLocal g := by
    intro call hcall g hg
    have hcut : call = cutCall := by simpa using hcall
    rw [hcut] at hg
    obtain rfl := Option.some.inj hg
    exact isLocal_leaving (by decide) (by simp [cutTree]) false _
  have hretries : RetriesFrom reposDepot [] "o" "n" [cutCall, cutCall] :=
    retriesFrom_of_isLocal Contents.isPlain_nil hid habsent hgit
  refine ⟨_, _, visits_cut, by rw [visit_cut_first], by rw [visit_cut_second], ?_⟩
  refine hretries.backed [visit "/repos" (reposDepot.holding []) cutCall] _ [] visits_cut ⟨?_, ?_⟩
  · exact ofGithubUrl?_cut
  · exact ⟨_, _, by rw [visit_cut_second]⟩

end ImportAtlas.Checkout
