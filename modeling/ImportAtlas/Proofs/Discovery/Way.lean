import ImportAtlas.Proofs.Discovery.Depth
import ImportAtlas.Proofs.Host.Descent

/-!
# Ways through a tree with links

Names lead from the start of a walk to an entry if each of them does so from the entry before, with
links followed by the host. They reach a file if the folders on the way have admitted names and no
link among them leads back to a folder that was passed before. Nothing else in the tree matters.
-/

namespace ImportAtlas

open Host

namespace Walk

variable (host : Host) (start : String)

/-- Where names lead to from an entry that was reached by `above`. -/
def goFrom? (above : List String) (f : Found) : List String → Option Found
  | [] => some f
  | name :: rest =>
    (f.entry.child? name).bind fun e =>
      (arrive host start f.place above name e).toOption.bind fun g =>
        goFrom? (above ++ [name]) g rest

/-- The last of the names is that of a link. -/
def IsLinkFrom (above : List String) (f : Found) (names : List String) : Prop :=
  ∃ front name g target, names = front ++ [name] ∧ goFrom? host start above f front = some g ∧
    g.entry.child? name = some (.link target)

/-- Where names lead to from the start of a walk, links followed. -/
def leadsTo? (names : List String) : Option Found :=
  (host.resolve start).toOption.bind fun f => goFrom? host start [] f names

/-- The names lead to a link, before it is followed. -/
def IsLink (names : List String) : Prop :=
  ∃ front name g target, names = front ++ [name] ∧ leadsTo? host start front = some g ∧
    g.entry.child? name = some (.link target)

variable (excluded : List String)

/-- Names that lead to a file through admitted folders, none of the links among them back to a
folder that was passed before. -/
structure Reaches (names : List String) : Prop where
  file : ∃ place c, leadsTo? host start names = some ⟨place, .file c⟩
  admitted : ∀ n ∈ names.dropLast, n ∉ excluded
  noLoop : ∀ link, link <+: names → IsLink host start link →
    ∀ target es, leadsTo? host start link = some ⟨target, .folder es⟩ →
      ∀ outer, outer <+: link → outer ≠ link →
        ∀ f, leadsTo? host start outer = some f → f.place ≠ target

/-- No link among the names leads back to a folder that was passed before or was open already. -/
def NoLoopFrom (opened : List (List String)) (above : List String) (f : Found)
    (names : List String) : Prop :=
  ∀ link, link <+: names → IsLinkFrom host start above f link →
    ∀ target es, goFrom? host start above f link = some ⟨target, .folder es⟩ →
      target ∉ opened ∧ ∀ outer, outer <+: link → outer ≠ link →
        ∀ u, goFrom? host start above f outer = some u → u.place ≠ target

structure ReachesFrom (opened : List (List String)) (above : List String) (f : Found)
    (names : List String) : Prop where
  file : ∃ place c, goFrom? host start above f names = some ⟨place, .file c⟩
  admitted : ∀ n ∈ names.dropLast, n ∉ excluded
  noLoop : NoLoopFrom host start opened above f names

variable {host start excluded} {above names rest place : List String} {f g : Found}
  {name : String} {e : Entry} {es : List (String × Entry)} {opened : List (List String)}
  {p : Position} {depth : Nat}

/-! ## One name after another -/

@[simp] theorem goFrom?_nil (above : List String) (f : Found) :
    goFrom? host start above f [] = some f := rfl

theorem goFrom?_cons (hchild : f.entry.child? name = some e)
    (harrive : arrive host start f.place above name e = .ok g) (rest : List String) :
    goFrom? host start above f (name :: rest) = goFrom? host start (above ++ [name]) g rest := by
  rw [goFrom?, hchild, Option.bind_some, harrive]
  rfl

theorem goFrom?_cons_eq_some {u : Found}
    (h : goFrom? host start above f (name :: rest) = some u) :
    ∃ e g, f.entry.child? name = some e ∧ arrive host start f.place above name e = .ok g ∧
      goFrom? host start (above ++ [name]) g rest = some u := by
  rw [goFrom?, Option.bind_eq_some_iff] at h
  obtain ⟨e, hchild, h⟩ := h
  cases harrive : arrive host start f.place above name e with
  | error reason =>
      rw [harrive] at h
      cases h
  | ok g =>
      rw [harrive] at h
      exact ⟨e, g, hchild, harrive, h⟩

theorem goFrom?_append (above : List String) (f : Found) (front back : List String) :
    goFrom? host start above f (front ++ back) =
      (goFrom? host start above f front).bind fun g =>
        goFrom? host start (above ++ front) g back := by
  induction front generalizing above f with
  | nil => rw [List.nil_append, List.append_nil, goFrom?_nil, Option.bind_some]
  | cons name rest ih =>
      rw [List.cons_append, goFrom?, goFrom?]
      cases f.entry.child? name with
      | none => rfl
      | some e =>
          simp only [Option.bind_some]
          cases (arrive host start f.place above name e).toOption with
          | none => rfl
          | some g => simp [ih]

theorem goFrom?_of_not_folder (hf : f.entry.isFolder = false) :
    goFrom? host start above f names = if names = [] then some f else none := by
  cases names with
  | nil => rfl
  | cons name rest =>
      have hchild : f.entry.child? name = none := by
        cases hentry : f.entry with
        | file c => rfl
        | link text => rfl
        | folder es => rw [hentry] at hf; cases hf
      rw [goFrom?, hchild]
      rfl

theorem not_isLinkFrom_nil : ¬ IsLinkFrom host start above f [] := by
  rintro ⟨front, name, g, target, hnames, -⟩
  simp at hnames

theorem isLinkFrom_singleton :
    IsLinkFrom host start above f [name] ↔ ∃ target, f.entry.child? name = some (.link target) := by
  constructor
  · rintro ⟨front, last, g, target, hnames, hfront, hchild⟩
    rw [← List.nil_append [name]] at hnames
    obtain ⟨rfl, hlast⟩ := List.append_inj' hnames rfl
    cases hlast
    cases hfront
    exact ⟨target, hchild⟩
  · rintro ⟨target, hchild⟩
    exact ⟨[], name, f, target, rfl, rfl, hchild⟩

theorem isLinkFrom_cons (hchild : f.entry.child? name = some e)
    (harrive : arrive host start f.place above name e = .ok g) (hrest : rest ≠ []) :
    IsLinkFrom host start above f (name :: rest) ↔
      IsLinkFrom host start (above ++ [name]) g rest := by
  constructor
  · rintro ⟨front, last, u, target, hnames, hfront, hlast⟩
    cases front with
    | nil => exact absurd (List.cons.inj hnames).2 hrest
    | cons m front =>
        obtain ⟨rfl, rfl⟩ := List.cons.inj hnames
        rw [goFrom?_cons hchild harrive] at hfront
        exact ⟨front, last, u, target, rfl, hfront, hlast⟩
  · rintro ⟨front, last, u, target, rfl, hfront, hlast⟩
    exact ⟨name :: front, last, u, target, rfl, (goFrom?_cons hchild harrive front).trans hfront,
      hlast⟩

theorem NoLoopFrom.head (h : NoLoopFrom host start opened above f (name :: rest))
    {text : String} (hchild : f.entry.child? name = some (.link text))
    (harrive : arrive host start f.place above name (.link text) = .ok g)
    (hfolder : g.entry.isFolder = true) : g.place ∉ opened := by
  obtain ⟨es, hes⟩ := Entry.exists_of_isFolder hfolder
  have hlink : IsLinkFrom host start above f [name] := isLinkFrom_singleton.mpr ⟨text, hchild⟩
  refine (h [name] (by simp) hlink g.place es ?_).1
  rw [goFrom?_cons hchild harrive, goFrom?_nil, ← hes]

theorem NoLoopFrom.tail (h : NoLoopFrom host start opened above f (name :: rest))
    (hchild : f.entry.child? name = some e)
    (harrive : arrive host start f.place above name e = .ok g) :
    NoLoopFrom host start (g.place :: opened) (above ++ [name]) g rest := by
  have hgo : ∀ names, goFrom? host start above f (name :: names) =
      goFrom? host start (above ++ [name]) g names := goFrom?_cons hchild harrive
  intro link hprefix hlink target es htarget
  have hne : link ≠ [] := fun he => not_isLinkFrom_nil (he ▸ hlink)
  obtain ⟨hnew, hpassed⟩ := h (name :: link) (List.cons_prefix_cons.mpr ⟨rfl, hprefix⟩)
    ((isLinkFrom_cons hchild harrive hne).mpr hlink) target es ((hgo link).trans htarget)
  constructor
  · rw [List.mem_cons, not_or]
    refine ⟨Ne.symm ?_, hnew⟩
    exact hpassed [name] (by simp) (by simpa using hne.symm) g (hgo [])
  · intro outer houter hother u hu
    exact hpassed (name :: outer) (List.cons_prefix_cons.mpr ⟨rfl, houter⟩) (by simpa using hother)
      u ((hgo outer).trans hu)

theorem NoLoopFrom.cons (hf : f.place ∈ opened) (hchild : f.entry.child? name = some e)
    (harrive : arrive host start f.place above name e = .ok g)
    (hhead : ∀ text, e = .link text → g.entry.isFolder = true → g.place ∉ opened)
    (htail : NoLoopFrom host start (g.place :: opened) (above ++ [name]) g rest) :
    NoLoopFrom host start opened above f (name :: rest) := by
  have hgo : ∀ names, goFrom? host start above f (name :: names) =
      goFrom? host start (above ++ [name]) g names := goFrom?_cons hchild harrive
  intro link hprefix hlink target es htarget
  cases link with
  | nil => exact absurd hlink not_isLinkFrom_nil
  | cons m link =>
      obtain ⟨rfl, hbelow⟩ := List.cons_prefix_cons.mp hprefix
      rw [hgo] at htarget
      have hnew : target ∉ opened ∧ ∀ outer, outer <+: link → outer ≠ link →
          ∀ u, goFrom? host start (above ++ [m]) g outer = some u → u.place ≠ target := by
        by_cases hne : link = []
        · subst hne
          obtain ⟨text, htext⟩ := isLinkFrom_singleton.mp hlink
          rw [hchild, Option.some.injEq] at htext
          rw [goFrom?_nil, Option.some.injEq] at htarget
          subst htarget
          refine ⟨hhead text htext rfl, fun outer houter hother => ?_⟩
          exact absurd (List.prefix_nil.mp houter) hother
        · obtain ⟨hnew, hpassed⟩ := htail link hbelow
            ((isLinkFrom_cons hchild harrive hne).mp hlink) target es htarget
          exact ⟨fun h => hnew (List.mem_cons_of_mem _ h), hpassed⟩
      refine ⟨hnew.1, fun outer houter hother u hu => ?_⟩
      cases outer with
      | nil =>
          -- The folder the names start from counts among those that are open.
          cases hu
          exact fun he => hnew.1 (he ▸ hf)
      | cons n outer =>
          obtain ⟨rfl, hinner⟩ := List.cons_prefix_cons.mp houter
          rw [hgo] at hu
          exact hnew.2 outer hinner (by simpa using hother) u hu

theorem reachesFrom_of_not_folder (hf : f.entry.isFolder = false) :
    ReachesFrom host start excluded opened above f names ↔
      names = [] ∧ ∃ c, f.entry = .file c := by
  constructor
  · rintro ⟨⟨place, c, hfile⟩, -, -⟩
    rw [goFrom?_of_not_folder hf] at hfile
    split at hfile
    next hnames =>
      cases hfile
      exact ⟨hnames, c, rfl⟩
    next => cases hfile
  · rintro ⟨rfl, c, hc⟩
    refine ⟨⟨f.place, c, ?_⟩, by simp, ?_⟩
    · rw [goFrom?_nil, ← hc]
    · intro link hprefix hlink
      rw [List.prefix_nil.mp hprefix] at hlink
      exact absurd hlink not_isLinkFrom_nil

/-- One name more is admitted if it leads to a file, or to a folder with an admitted name. -/
theorem admitted_cons {c : ByteArray}
    (hfile : goFrom? host start above g rest = some ⟨place, .file c⟩) :
    (∀ n ∈ (name :: rest).dropLast, n ∉ excluded) ↔
      (g.entry.isFolder = true → name ∉ excluded) ∧ ∀ n ∈ rest.dropLast, n ∉ excluded := by
  cases rest with
  | nil =>
      cases hfile
      simp [Entry.isFolder]
  | cons m more =>
      obtain ⟨e, _, hchild, -, -⟩ := goFrom?_cons_eq_some hfile
      obtain ⟨es, hes, -⟩ := Entry.child?_eq_some_iff.mp hchild
      rw [List.dropLast_cons_cons, List.forall_mem_cons, hes]
      simp [Entry.isFolder]

/-- One name more reaches what the rest of the names does from where it arrives, if its folder is
admitted and, for a link, not open yet. -/
theorem reachesFrom_cons (hf : f.place ∈ opened) (hchild : f.entry.child? name = some e) :
    ReachesFrom host start excluded opened above f (name :: rest) ↔ ∃ g,
      arrive host start f.place above name e = .ok g ∧
        (g.entry.isFolder = true → name ∉ excluded) ∧
        (∀ text, e = .link text → g.entry.isFolder = true → g.place ∉ opened) ∧
        ReachesFrom host start excluded (g.place :: opened) (above ++ [name]) g rest := by
  constructor
  · rintro ⟨⟨place, c, hfile⟩, hadmitted, hloop⟩
    obtain ⟨e', g, hchild', harrive, hrest⟩ := goFrom?_cons_eq_some hfile
    rw [hchild, Option.some.injEq] at hchild'
    subst hchild'
    obtain ⟨hname, hbelow⟩ := (admitted_cons hrest).mp hadmitted
    refine ⟨g, harrive, hname, ?_, ⟨place, c, hrest⟩, hbelow, hloop.tail hchild harrive⟩
    rintro text rfl hfolder
    exact hloop.head hchild harrive hfolder
  · rintro ⟨g, harrive, hname, hhead, ⟨place, c, hrest⟩, hbelow, htail⟩
    exact ⟨⟨place, c, (goFrom?_cons hchild harrive rest).trans hrest⟩,
      (admitted_cons hrest).mpr ⟨hname, hbelow⟩, .cons hf hchild harrive hhead htail⟩

theorem not_reachesFrom_folder_nil :
    ¬ ReachesFrom host start excluded opened above ⟨place, .folder es⟩ [] := by
  rintro ⟨⟨_, c, hfile⟩, -, -⟩
  cases hfile

/-! ## From the start on -/

theorem leadsTo?_of_resolve (h : host.resolve start = .ok f) (names : List String) :
    leadsTo? host start names = goFrom? host start [] f names := by
  rw [leadsTo?, h]
  rfl

/-- Each of the names is there, and all but the last are those of folders. -/
theorem leadsTo?_of_prefix (h : leadsTo? host start names = some f) {outer : List String}
    (houter : outer <+: names) :
    ∃ g, leadsTo? host start outer = some g ∧ (outer ≠ names → g.entry.isFolder = true) := by
  obtain ⟨back, rfl⟩ := houter
  rw [leadsTo?, Option.bind_eq_some_iff] at h
  obtain ⟨first, hfirst, hback⟩ := h
  rw [goFrom?_append, Option.bind_eq_some_iff] at hback
  obtain ⟨g, hg, hback⟩ := hback
  refine ⟨g, by rw [leadsTo?, hfirst, Option.bind_some, hg], fun hne => ?_⟩
  cases back with
  | nil => simp at hne
  | cons name rest =>
      obtain ⟨e, _, hchild, -, -⟩ := goFrom?_cons_eq_some hback
      obtain ⟨es, hes, -⟩ := Entry.child?_eq_some_iff.mp hchild
      rw [hes, Entry.isFolder]

theorem isLink_iff (h : host.resolve start = .ok f) :
    IsLink host start names ↔ IsLinkFrom host start [] f names := by
  simp only [IsLink, leadsTo?_of_resolve h, IsLinkFrom]

theorem reaches_iff (h : host.resolve start = .ok f) :
    Reaches host start excluded names ↔
      ReachesFrom host start excluded [f.place] [] f names := by
  constructor
  · rintro ⟨hfile, hadmitted, hloop⟩
    simp only [leadsTo?_of_resolve h, isLink_iff h] at hfile hloop
    refine ⟨hfile, hadmitted, fun link hprefix hlink target es htarget => ⟨?_, ?_⟩⟩
    · have hne : [] ≠ link := by
        rintro rfl
        exact not_isLinkFrom_nil hlink
      have hback := hloop link hprefix hlink target es htarget [] List.nil_prefix hne f rfl
      simpa using hback.symm
    · exact hloop link hprefix hlink target es htarget
  · rintro ⟨hfile, hadmitted, hloop⟩
    constructor
    case file => simpa only [leadsTo?_of_resolve h] using hfile
    case admitted => exact hadmitted
    case noLoop =>
      simp only [leadsTo?_of_resolve h, isLink_iff h]
      exact fun link hprefix hlink target es htarget =>
        (hloop link hprefix hlink target es htarget).2

theorem not_reaches_of_error {reason : HostError} (h : host.resolve start = .error reason) :
    ¬ Reaches host start excluded names := by
  rintro ⟨⟨place, c, hfile⟩, -, -⟩
  rw [leadsTo?, h] at hfile
  cases hfile

/-! ## As the host takes whole paths -/

theorem advance_of_missing {links : Nat} {way : Trail} {parts : List String}
    (hname : IsSegment name) (h : (current host.root way).child? name = none) :
    ∃ reason, advance host.root links way (name :: parts) = .error reason := by
  rw [advance]
  simp only [hname.ne_empty, hname.ne_current, hname.ne_parent, beq_iff_eq, or_self, if_false,
    Bool.or_eq_true, h]
  split
  · exact ⟨_, rfl⟩
  split
  · exact ⟨_, rfl⟩
  · exact ⟨_, rfl⟩

/-- One name behind a path leads where the walk arrives from there, as far as the path fits. -/
theorem toOption_resolve_snoc (h : host.resolve (Location.joinAll start above) = .ok g)
    (hname : IsEntryName name)
    (hfits : Fits (Location.joinAll start (above ++ [name])) (above ++ [name])) :
    goFrom? host start above g [name] =
      (host.resolve (Location.joinAll start (above ++ [name]))).toOption := by
  have hnames : ∀ n ∈ [name], IsEntryName n := by simpa using hname
  have hjoin := Location.joinAll_append start above [name]
  cases hchild : g.entry.child? name with
  | none =>
      obtain ⟨links, way, rfl, hres⟩ :=
        resolve_joinAll h (List.cons_ne_nil name []) fun n hn => (hnames n hn).toIsSegment
      obtain ⟨reason, hreason⟩ : ∃ reason, advance host.root links way [name] = .error reason :=
        advance_of_missing hname.toIsSegment hchild
      rw [goFrom?, hchild, hjoin, hres, hreason]
      split_ifs <;> rfl
  | some e =>
      have hgo : goFrom? host start above g [name] =
          (arrive host start g.place above name e).toOption := by
        rw [goFrom?, hchild, Option.bind_some]
        exact Option.bind_fun_some _
      have hat : g.entry.at? [name] = some e := by simp [Entry.at?_cons, hchild]
      have hreal (he : ∀ text, e ≠ .link text) :
          host.resolve (Location.joinAll start (above ++ [name])) = .ok ⟨g.place ++ [name], e⟩ := by
        rw [hjoin] at hfits ⊢
        have hshort : Fits (Location.joinAll (Location.joinAll start above) [name]) [name] :=
          ⟨hfits.1, fun n hn => hfits.2 n (List.mem_append_right above hn)⟩
        rw [resolve_joinAll_at h hnames hat he, if_pos hshort]
      rw [hgo]
      cases e with
      | link text => rfl
      | file c => rw [hreal (by simp)]; rfl
      | folder es => rw [hreal (by simp)]; rfl

/-- Names lead where the host finds the whole path to lead, as far as it takes the path. -/
theorem leadsTo?_eq_resolve (h : host.resolve start = .ok f) (hnames : ∀ n ∈ names, IsEntryName n)
    (hfits : Fits (Location.joinAll start names) names) :
    leadsTo? host start names = (host.resolve (Location.joinAll start names)).toOption := by
  obtain ⟨hnul, hstart, -⟩ := resolve_ok h
  rw [leadsTo?_of_resolve h]
  induction names using List.reverseRecOn with
  | nil => rw [goFrom?_nil, Location.joinAll_nil, h]; rfl
  | append_singleton front name ih =>
      obtain ⟨hfront, hname⟩ := List.forall_mem_append.mp hnames
      rw [List.forall_mem_singleton] at hname
      have hsegs : ∀ n ∈ front, IsSegment n := fun n hn => (hfront n hn).toIsSegment
      have hbase : Location.joinAll start front ≠ "" := Location.joinAll_ne_empty hstart hsegs
      have hlast : ∀ n ∈ [name], IsSegment n := by simpa using hname.toIsSegment
      have hshort : Fits (Location.joinAll start front) front := by
        refine ⟨(Location.utf8ByteSize_le_joinAll hbase hlast).trans ?_,
          fun n hn => hfits.2 n (List.mem_append_left _ hn)⟩
        rw [← Location.joinAll_append]
        exact hfits.1
      rw [goFrom?_append, ih hfront hshort, List.nil_append]
      cases hres : host.resolve (Location.joinAll start front) with
      | ok g => exact toOption_resolve_snoc hres hname hfits
      | error reason =>
          have hpath : IsPathText (Location.joinAll (Location.joinAll start front) [name]) := by
            rw [← Location.joinAll_append]
            refine ⟨fun hc => ?_, hfits.1⟩
            rw [Location.mem_toList_joinAll (by decide)
              fun n hn => (hnames n hn).toIsSegment] at hc
            rcases hc with hc | ⟨n, hn, hc⟩
            · exact hnul hc
            · exact (hnames n hn).no_nul hc
          rw [Location.joinAll_append, resolve_joinAll_of_error hbase hres (by simp) hlast hpath]
          rfl

/-! ## What else stands in the tree -/

/-- An entry without what it holds. -/
def bare : Entry → Entry
  | .file _ => .file ⟨#[]⟩
  | .link _ => .link ""
  | .folder _ => .folder []

/-- Names that lead the same way in two hosts, over links and folders at the same places and to an
entry of the same kind. -/
structure SameWay (host host' : Host) (start : String) (names : List String) : Prop where
  seen : ∀ outer, outer <+: names →
    (leadsTo? host start outer).map (fun f => (f.place, bare f.entry)) =
      (leadsTo? host' start outer).map fun f => (f.place, bare f.entry)
  links : ∀ outer, outer <+: names → (IsLink host start outer ↔ IsLink host' start outer)

namespace SameWay

variable {host' : Host}

theorem symm (h : SameWay host host' start names) : SameWay host' host start names where
  seen := fun outer houter => (h.seen outer houter).symm
  links := fun outer houter => (h.links outer houter).symm

theorem exists_leadsTo? (h : SameWay host host' start names) {outer : List String}
    (houter : outer <+: names) (hf : leadsTo? host start outer = some f) :
    ∃ g, leadsTo? host' start outer = some g ∧ g.place = f.place ∧ bare g.entry = bare f.entry := by
  have hseen := h.seen outer houter
  rw [hf, Option.map_some, eq_comm, Option.map_eq_some_iff] at hseen
  obtain ⟨g, hg, heq⟩ := hseen
  exact ⟨g, hg, congrArg Prod.fst heq, congrArg Prod.snd heq⟩

theorem reaches (h : SameWay host host' start names) (hreaches : Reaches host start excluded names) :
    Reaches host' start excluded names where
  file := by
    obtain ⟨place, c, hfile⟩ := hreaches.file
    obtain ⟨⟨place', d⟩, hg, -, hbare⟩ := h.exists_leadsTo? List.prefix_rfl hfile
    cases d with
    | file c' => exact ⟨place', c', hg⟩
    | link text => cases hbare
    | folder es => cases hbare
  admitted := hreaches.admitted
  noLoop := by
    intro link hprefix hlink target es htarget outer houter hother f hf
    obtain ⟨⟨target', d⟩, hg, hplace, hbare⟩ := h.symm.exists_leadsTo? hprefix htarget
    obtain ⟨g, hg', hplace', -⟩ := h.symm.exists_leadsTo? (houter.trans hprefix) hf
    replace hplace : target' = target := hplace
    cases d with
    | file c => cases hbare
    | link text => cases hbare
    | folder ds =>
        rw [← hplace, ← hplace']
        exact hreaches.noLoop link hprefix ((h.links link hprefix).mpr hlink) target' ds hg outer
          houter hother g hg'

theorem reaches_iff (h : SameWay host host' start names) :
    Reaches host start excluded names ↔ Reaches host' start excluded names :=
  ⟨h.reaches, h.symm.reaches⟩

end SameWay

end Walk

end ImportAtlas
