import ImportAtlas.Checkout.Store
import ImportAtlas.Proofs.Discovery.Walk
import ImportAtlas.Proofs.Host.Parent
import ImportAtlas.Proofs.Host.Reach

/-!
# The directory of the checkouts

Whatever fills the directory of the checkouts, its path leads to the same place, and the checkout of
an identity is what the directory holds at the two names of it. So what cloning and deleting do to
the host is a change of the directory's entries at those names.
-/

namespace ImportAtlas.Checkout

open Text Host

variable {owner name : String}

theorem isEntryName_of_isValidPart {s : String} (h : Identity.isValidPart s = true) :
    IsEntryName s := by
  simp only [Identity.isValidPart, Bool.and_eq_true, bne_iff_ne, ne_eq, Bool.not_eq_true',
    List.any_eq_false, Identity.isForbidden, Bool.or_eq_true, beq_iff_eq, not_or] at h
  obtain ⟨⟨⟨hempty, hcurrent⟩, hparent⟩, hchars⟩ := h
  exact ⟨⟨hempty, hcurrent, hparent, fun hc => (hchars _ hc).1.1.1 rfl⟩,
    fun hc => (hchars _ hc).2 rfl⟩

/-- An owner and a name that can stand as folder names. -/
structure IsIdentity (owner name : String) : Prop where
  owner : Identity.isValidPart owner = true
  name : Identity.isValidPart name = true

namespace IsIdentity

theorem isEntryName_owner (h : IsIdentity owner name) : IsEntryName owner :=
  isEntryName_of_isValidPart h.owner

theorem isEntryName_name (h : IsIdentity owner name) : IsEntryName name :=
  isEntryName_of_isValidPart h.name

theorem isEntryName (h : IsIdentity owner name) : ∀ n ∈ [owner, name], IsEntryName n := by
  rw [List.forall_mem_cons, List.forall_mem_singleton]
  exact ⟨h.isEntryName_owner, h.isEntryName_name⟩

theorem isSegment (h : IsIdentity owner name) : ∀ n ∈ [owner, name], IsSegment n :=
  fun n hn => (h.isEntryName n hn).toIsSegment

end IsIdentity

theorem isIdentity_of_ofGithubUrl? {url : String}
    (h : Identity.ofGithubUrl? url = some (owner, name)) : IsIdentity owner name := by
  simp only [Identity.ofGithubUrl?, bind, Option.bind_eq_some_iff] at h
  obtain ⟨part, _, ⟨o, n⟩, _, h⟩ := h
  split at h
  next hvalid =>
    rw [Bool.and_eq_true] at hvalid
    cases h
    exact ⟨hvalid.1, hvalid.2⟩
  next => cases h

theorem localPath_eq (reposDir : String) (h : IsIdentity owner name) :
    localPath reposDir owner name = .ok (Location.joinAll reposDir [owner, name]) := by
  rw [localPath, h.owner, h.name]
  rfl

theorem localPath_eq_error (reposDir : String) (h : ¬ IsIdentity owner name) :
    ∃ part value, localPath reposDir owner name = .error (.invalidIdentity part value) := by
  rw [localPath]
  by_cases howner : Identity.isValidPart owner = true
  · by_cases hname : Identity.isValidPart name = true
    · exact absurd ⟨howner, hname⟩ h
    · exact ⟨.name, name, by simp [howner, hname]⟩
  · exact ⟨.owner, owner, by simp [howner]⟩

theorem isValidPart_longName {size : Nat} (hsize : 2 < size) :
    Identity.isValidPart (longName size) = true := by
  have hne (short : String) (hshort : short.length ≤ 2) : longName size ≠ short := by
    rintro rfl
    rw [longName, String.length_ofList, List.length_replicate] at hshort
    omega
  have hplain : (longName size).toList.any Identity.isForbidden = false := by
    rw [List.any_eq_false]
    intro c hc
    rw [eq_of_mem_longName hc]
    decide
  simp [Identity.isValidPart, hne "" (by decide), hne "." (by decide), hne ".." (by decide), hplain]

/-! ## Entries of the directory -/

/-- What the directory of the checkouts holds. -/
abbrev Contents := List (String × Entry)

namespace Contents

variable {es : Contents} {ds : List (String × Entry)} {owner' name' : String} {tree : Entry}
  {new : Option Entry}

/-- What stands at the two names of an identity. -/
def checkout? (es : Contents) (owner name : String) : Option Entry :=
  (Entry.folder es).at? [owner, name]

/-- The entries with a folder for an owner, an empty one unless there is something already. -/
def withOwner (owner : String) (es : Contents) : Contents :=
  match Entry.find? owner es with
  | none => Entry.alter owner (some (.folder [])) es
  | some _ => es

/-- The entries with one checkout set or taken out. Without a folder for the owner nothing changes.
-/
def change (owner name : String) (new : Option Entry) (es : Contents) : Contents :=
  match Entry.find? owner es with
  | some e => Entry.alter owner (some (e.setAt new [name])) es
  | none => es

theorem checkout?_eq (es : Contents) (owner name : String) :
    es.checkout? owner name = (Entry.find? owner es).bind (Entry.child? name) := by
  rw [checkout?, Entry.at?_folder_cons]
  congr 1
  funext e
  rw [Entry.at?_cons]
  cases e.child? name <;> simp

theorem find?_of_checkout? (h : es.checkout? owner name = some tree) :
    ∃ ds, Entry.find? owner es = some (.folder ds) ∧ Entry.find? name ds = some tree := by
  rw [checkout?_eq, Option.bind_eq_some_iff] at h
  obtain ⟨e, he, hchild⟩ := h
  obtain ⟨ds, rfl, hfind⟩ := Entry.child?_eq_some_iff.mp hchild
  exact ⟨ds, he, hfind⟩

theorem find?_withOwner (owner other : String) (es : Contents) :
    Entry.find? other (withOwner owner es) =
      if other = owner then some ((Entry.find? owner es).getD (.folder [])) else
        Entry.find? other es := by
  rw [withOwner]
  by_cases ho : other = owner
  · rw [ho, if_pos rfl]
    cases hfind : Entry.find? owner es with
    | none => simp
    | some e => simpa using hfind
  · rw [if_neg ho]
    cases Entry.find? owner es with
    | none => exact Entry.find?_alter_of_ne ho _ es
    | some e => rfl

@[simp] theorem checkout?_withOwner (owner : String) (es : Contents) (owner' name' : String) :
    (withOwner owner es).checkout? owner' name' = es.checkout? owner' name' := by
  rw [checkout?_eq, checkout?_eq, find?_withOwner]
  by_cases ho : owner' = owner
  · rw [if_pos ho, ho]
    cases Entry.find? owner es <;> rfl
  · rw [if_neg ho]

theorem checkout?_change_self (howner : Entry.find? owner es = some (.folder ds)) (name : String)
    (new : Option Entry) : (change owner name new es).checkout? owner name = new := by
  simp only [checkout?_eq, change, howner, Entry.setAt_singleton, Entry.find?_alter_some,
    Option.bind_some, Entry.child?, Entry.entries]
  cases new with
  | none => exact Entry.find?_alter_none name ds
  | some tree => exact Entry.find?_alter_some name tree ds

theorem checkout?_change_of_ne (h : ¬ (owner' = owner ∧ name' = name)) (new : Option Entry)
    (es : Contents) :
    (change owner name new es).checkout? owner' name' = es.checkout? owner' name' := by
  rw [checkout?_eq, checkout?_eq, change]
  cases howner : Entry.find? owner es with
  | none => rfl
  | some e =>
      by_cases ho : owner' = owner
      · have hn : name' ≠ name := fun hn => h ⟨ho, hn⟩
        simp only [ho, Entry.find?_alter_some, Option.bind_some, howner]
        cases e with
        | file c => rw [Entry.setAt] <;> simp
        | link target => rw [Entry.setAt] <;> simp
        | folder ds =>
            rw [Entry.setAt_singleton]
            exact Entry.find?_alter_of_ne hn new ds
      · simp only [Entry.find?_alter_of_ne ho]

theorem isSome_find?_withOwner (h : (Entry.find? owner' es).isSome) (owner : String) :
    (Entry.find? owner' (withOwner owner es)).isSome := by
  rw [find?_withOwner]
  split
  · rfl
  · exact h

theorem isSome_find?_change (h : (Entry.find? owner' es).isSome) (owner name : String)
    (new : Option Entry) : (Entry.find? owner' (change owner name new es)).isSome := by
  rw [change]
  cases Entry.find? owner es with
  | none => exact h
  | some e =>
      by_cases ho : owner' = owner
      · simp [ho]
      · simpa only [Entry.find?_alter_of_ne ho] using h

/-- The entries are as a host keeps them, with no link where an owner or a checkout stands. -/
structure IsPlain (es : Contents) : Prop where
  wellFormed : (Entry.folder es).WellFormed
  owner : ∀ owner target, Entry.find? owner es ≠ some (.link target)
  checkout : ∀ owner name target, es.checkout? owner name ≠ some (.link target)

theorem isPlain_nil : IsPlain [] :=
  ⟨Walk.wellFormed_empty, by simp, by simp [checkout?_eq]⟩

namespace IsPlain

theorem meetsNoLink (h : es.IsPlain) (owner name : String) :
    (Entry.folder es).MeetsNoLink [owner, name] := by
  intro above habove target hat
  rcases List.prefix_cons_iff.mp habove with rfl | ⟨rest, rfl, hrest⟩
  · rw [Entry.at?_nil] at hat
    cases hat
  · rcases List.prefix_cons_iff.mp hrest with rfl | ⟨more, rfl, hmore⟩
    · rw [Entry.at?_folder_cons] at hat
      cases hfind : Entry.find? owner es with
      | none => simp [hfind] at hat
      | some e =>
          rw [hfind, Option.bind_some, Entry.at?_nil] at hat
          exact h.owner owner target (hfind.trans hat)
    · rw [List.prefix_nil.mp hmore] at hat
      exact h.checkout owner name target hat

theorem withOwner (h : es.IsPlain) (howner : IsEntryName owner) : (withOwner owner es).IsPlain where
  wellFormed := by
    rw [Contents.withOwner]
    cases Entry.find? owner es with
    | none =>
        refine Entry.wellFormed_alter h.wellFormed howner fun new hnew => ?_
        rw [← Option.some.inj hnew]
        exact Walk.wellFormed_empty
    | some e => exact h.wellFormed
  owner := by
    intro other target hfind
    rw [find?_withOwner] at hfind
    split at hfind
    · cases howner' : Entry.find? owner es with
      | none => simp [howner'] at hfind
      | some e =>
          rw [howner', Option.getD_some] at hfind
          exact h.owner owner target (howner'.trans hfind)
    · exact h.owner other target hfind
  checkout := by
    intro other name target
    rw [checkout?_withOwner]
    exact h.checkout other name target

theorem change (h : es.IsPlain) (hname : IsEntryName name)
    (howner : Entry.find? owner es = some (.folder ds))
    (hnew : ∀ tree ∈ new, tree.WellFormed ∧ ∀ target, tree ≠ .link target) :
    (change owner name new es).IsPlain where
  wellFormed := by
    simp only [Contents.change, howner, Entry.setAt_singleton]
    have hchild : (Entry.folder es).child? owner = some (.folder ds) := howner
    have hentry := h.wellFormed.of_child? hchild
    refine Entry.wellFormed_alter h.wellFormed hentry.2 fun e he => ?_
    rw [← Option.some.inj he]
    exact Entry.wellFormed_alter hentry.1 hname fun tree htree => (hnew tree htree).1
  owner := by
    intro other target hfind
    simp only [Contents.change, howner, Entry.setAt_singleton] at hfind
    by_cases ho : other = owner
    · rw [ho, Entry.find?_alter_some] at hfind
      cases hfind
    · rw [Entry.find?_alter_of_ne ho] at hfind
      exact h.owner other target hfind
  checkout := by
    intro other name' target hcheckout
    by_cases hsame : other = owner ∧ name' = name
    · rw [hsame.1, hsame.2, checkout?_change_self howner] at hcheckout
      exact (hnew _ hcheckout).2 target rfl
    · rw [checkout?_change_of_ne hsame] at hcheckout
      exact h.checkout other name' target hcheckout

end IsPlain

end Contents

/-! ## The directory on its host -/

/-- An empty directory for checkouts, and the path that leads to it. -/
structure Depot where
  reposDir : String
  host : Host
  place : List String
  wellFormed : host.root.WellFormed
  working : host.HasWorkingFolder
  leads : host.resolve reposDir = .ok ⟨place, .folder []⟩

namespace Depot

variable {d : Depot} {es : Contents} {ds : List (String × Entry)}

/-- The host once the directory holds some entries. -/
def holding (d : Depot) (es : Contents) : Host := d.host.setPlace d.place (some (.folder es))

def path (d : Depot) (owner name : String) : String := Location.joinAll d.reposDir [owner, name]

theorem reposDir_ne_empty (d : Depot) : d.reposDir ≠ "" := (resolve_ok d.leads).2.1

theorem at?_place (d : Depot) : d.host.root.at? d.place = some (.folder []) :=
  at?_of_resolve d.leads

theorem resolve_holding (d : Depot) (es : Contents) :
    (d.holding es).resolve d.reposDir = .ok ⟨d.place, .folder es⟩ := by
  have hkeeps : d.host.root.Keeps (d.holding es).root := Entry.keeps_setAt d.at?_place es
  obtain ⟨y, hres, hat⟩ := resolve_of_keeps hkeeps d.working rfl d.leads
  have hself : (d.holding es).root.at? d.place = some (.folder es) :=
    Entry.at?_setAt_self d.at?_place _
  rw [hres, Option.some.inj (hat.symm.trans hself)]

/-- For real paths too the directory leads to its entries, if it leads anywhere. -/
theorem realBase_holding (d : Depot) (es : Contents) :
    (d.holding es).realBase d.reposDir =
      (d.host.realBase d.reposDir).map fun _ => ⟨d.place, .folder es⟩ := by
  have hkeeps : d.host.root.Keeps (d.holding es).root := Entry.keeps_setAt d.at?_place es
  have hworking : (d.holding es).HasWorkingFolder := d.working.of_keeps hkeeps rfl
  have hplace := place_realBase_of_keeps hkeeps d.working hworking rfl d.leads
  rcases realBase_of_resolve d.working d.leads with h | h
  · rcases realBase_of_resolve hworking (d.resolve_holding es) with h' | h'
    · rw [h, h']
      rfl
    · rw [h, h'] at hplace
      cases hplace
  · rcases realBase_of_resolve hworking (d.resolve_holding es) with h' | h'
    · rw [h, h'] at hplace
      cases hplace
    · rw [h, h']
      rfl

@[simp] theorem holding_nil (d : Depot) : d.holding [] = d.host := by
  rw [holding, setPlace, Entry.setAt_self d.at?_place]

theorem holding_injective (d : Depot) {es es' : Contents} (h : d.holding es = d.holding es') :
    es = es' := by
  have hres := d.resolve_holding es
  rw [h, d.resolve_holding es', Except.ok.injEq, Found.mk.injEq, Entry.folder.injEq] at hres
  exact hres.2.symm

theorem wellFormed_holding (d : Depot) (hes : (Entry.folder es).WellFormed) :
    (d.holding es).root.WellFormed :=
  Entry.wellFormed_setAt d.wellFormed d.at?_place hes

/-- A change below the directory is a change of its entries. -/
theorem setPlace_holding (d : Depot) (es : Contents) {below : List String} (hbelow : below ≠ [])
    (new : Option Entry) :
    (d.holding es).setPlace (d.place ++ below) new =
      d.host.setPlace d.place (some ((Entry.folder es).setAt new below)) := by
  have hself : (d.holding es).root.at? d.place = some (.folder es) :=
    Entry.at?_setAt_self d.at?_place _
  rw [setPlace, Entry.setAt_append hself hbelow, setPlace]
  congr 1
  exact Entry.setAt_setAt d.at?_place _ _

theorem setPlace_owner (d : Depot) (es : Contents) (owner : String) (new : Option Entry) :
    (d.holding es).setPlace (d.place ++ [owner]) new =
      d.holding (Entry.alter owner new es) := by
  rw [setPlace_holding d es (List.cons_ne_nil _ _), Entry.setAt_singleton, holding]

theorem setPlace_checkout (d : Depot) (howner : Entry.find? owner es = some (.folder ds))
    (name : String) (new : Option Entry) :
    (d.holding es).setPlace (d.place ++ [owner, name]) new =
      d.holding (es.change owner name new) := by
  rw [setPlace_holding d es (List.cons_ne_nil _ _), Entry.setAt_cons howner (by simp), holding,
    Contents.change, howner]

theorem localPath (d : Depot) (h : IsIdentity owner name) :
    Checkout.localPath d.reposDir owner name = .ok (d.path owner name) := localPath_eq _ h

theorem parent?_path (d : Depot) (h : IsIdentity owner name) :
    Location.parent? (d.path owner name) = some (Location.join d.reposDir owner) :=
  Location.parent?_join_join d.reposDir_ne_empty h.isEntryName_owner.toIsSegment
    h.isEntryName_name.toIsSegment

/-- A checkout is found, as any folder is, if neither its path nor its names are too long. -/
def Fits (d : Depot) (owner name : String) : Prop := Host.Fits (d.path owner name) [owner, name]

instance (d : Depot) (owner name : String) : Decidable (d.Fits owner name) :=
  inferInstanceAs (Decidable (Host.Fits _ _))

theorem lookup_path (hes : es.IsPlain) (h : IsIdentity owner name) (followLast : Bool) :
    (d.holding es).lookup followLast (d.path owner name) =
      if (d.path owner name).utf8ByteSize > maxPathBytes then .error .nameTooLong
      else ((Entry.folder es).descend [owner, name]).map
        fun e => ⟨d.place ++ [owner, name], e⟩ := by
  have hnul : ¬ ∃ n ∈ [owner, name], '\x00' ∈ n.toList :=
    fun ⟨n, hn, hc⟩ => (h.isEntryName n hn).no_nul hc
  have hlookup := lookup_below (d.resolve_holding es) (List.cons_ne_nil owner [name]) h.isSegment
    (hes.meetsNoLink owner name) followLast
  rwa [if_neg hnul] at hlookup

theorem lookup_path_eq_ok_iff (hes : es.IsPlain) (h : IsIdentity owner name) (followLast : Bool)
    {f : Found} :
    (d.holding es).lookup followLast (d.path owner name) = .ok f ↔
      ∃ tree, f = ⟨d.place ++ [owner, name], tree⟩ ∧ es.checkout? owner name = some tree ∧
        d.Fits owner name := by
  rw [lookup_path hes h]
  by_cases hsize : (d.path owner name).utf8ByteSize > maxPathBytes
  · rw [if_pos hsize]
    simp only [reduceCtorEq, false_iff, not_exists, not_and]
    intro tree _ _ hfits
    exact absurd hfits.1 (by omega)
  · rw [if_neg hsize]
    constructor
    · intro hmap
      cases hdescend : (Entry.folder es).descend [owner, name] with
      | error e => rw [hdescend] at hmap; cases hmap
      | ok tree =>
          rw [hdescend] at hmap
          obtain ⟨hat, hshort⟩ := Entry.descend_eq_ok_iff.mp hdescend
          exact ⟨tree, (Except.ok.inj hmap).symm, hat, by omega, hshort⟩
    · rintro ⟨tree, rfl, hat, hfits⟩
      rw [Entry.descend_eq_ok_iff.mpr ⟨hat, hfits.2⟩]
      rfl

/-- The real path of a checkout goes from the directory down by its two names. -/
theorem canonicalize_path (hes : es.IsPlain) (h : IsIdentity owner name) :
    (d.holding es).canonicalize (d.path owner name) =
      (d.host.realBase d.reposDir).bind fun _ =>
        ((Entry.folder es).descendWithin (maxPathBytes - placeBytes d.place) [owner, name]).map
          fun e => ⟨d.place ++ [owner, name], e⟩ := by
  have hbase := d.realBase_holding es
  have hnul : ¬ ∃ n ∈ [owner, name], '\x00' ∈ n.toList :=
    fun ⟨n, hn, hc⟩ => (h.isEntryName n hn).no_nul hc
  have hlinks : ∀ f, (d.holding es).realBase d.reposDir = .ok f →
      f.entry.MeetsNoLink [owner, name] := by
    intro f hf
    rw [hbase] at hf
    cases hstart : d.host.realBase d.reposDir with
    | error e =>
        rw [hstart] at hf
        cases hf
    | ok g =>
        rw [hstart] at hf
        cases hf
        exact hes.meetsNoLink owner name
  rw [path, canonicalize_below (List.cons_ne_nil owner [name]) h.isSegment hlinks, if_neg hnul,
    hbase]
  cases d.host.realBase d.reposDir <;> rfl

theorem fileExists_path_iff (hes : es.IsPlain) (h : IsIdentity owner name) :
    (d.holding es).fileExists (d.path owner name) = true ↔
      (es.checkout? owner name).isSome ∧ d.Fits owner name := by
  rw [fileExists, resolve]
  cases hlookup : (d.holding es).lookup true (d.path owner name) with
  | error e =>
      simp only [Except.isOk, Except.toBool, Bool.false_eq_true, false_iff, not_and,
        Option.isSome_iff_exists]
      rintro ⟨tree, htree⟩ hfits
      have hok := (lookup_path_eq_ok_iff hes h true).mpr ⟨tree, rfl, htree, hfits⟩
      rw [hlookup] at hok
      cases hok
  | ok f =>
      obtain ⟨tree, _, htree, hfits⟩ := (lookup_path_eq_ok_iff hes h true).mp hlookup
      simp [Except.isOk, Except.toBool, htree, hfits]

/-! ## Making the folder of an owner, and taking a checkout out -/

theorem createFolders_owner (hes : es.IsPlain) (howner : IsEntryName owner) :
    (d.holding es).createFolders (Location.join d.reposDir owner) =
      if Host.Fits (Location.join d.reposDir owner) [owner] then
        if (Entry.find? owner es).all Entry.isFolder then
          (d.holding (es.withOwner owner), .ok ())
        else (d.holding es, .error .alreadyExists)
      else (d.holding es, .error .nameTooLong) := by
  rw [createFolders_join (d.resolve_holding es) howner (hes.owner owner)]
  by_cases hfits : Host.Fits (Location.join d.reposDir owner) [owner]
  · rw [if_pos hfits, if_pos hfits]
    cases hfind : Entry.find? owner es with
    | none => simp [setPlace_owner, Contents.withOwner, hfind]
    | some e =>
        cases he : e.isFolder <;> simp [Contents.withOwner, hfind, he]
  · rw [if_neg hfits, if_neg hfits]

theorem removeTree_path (hes : es.IsPlain) (h : IsIdentity owner name)
    (hthere : (d.holding es).fileExists (d.path owner name) = true) :
    (d.holding es).removeTree (d.path owner name) =
      if (es.checkout? owner name).all Entry.isFolder then
        .ok (d.holding (es.change owner name none))
      else .error .notDirectory := by
  obtain ⟨hsome, hfits⟩ := (fileExists_path_iff hes h).mp hthere
  obtain ⟨tree, htree⟩ := Option.isSome_iff_exists.mp hsome
  obtain ⟨ds, howner, _⟩ := Contents.find?_of_checkout? htree
  have hlookup : (d.holding es).resolveEntry (d.path owner name) =
      .ok ⟨d.place ++ [owner, name], tree⟩ :=
    (lookup_path_eq_ok_iff hes h false).mpr ⟨tree, rfl, htree, hfits⟩
  rw [removeTree, hlookup, htree]
  cases tree with
  | file c => rfl
  | link target => exact absurd htree (hes.checkout owner name target)
  | folder ts => exact congrArg Except.ok (setPlace_checkout d howner name none)

end Depot

/-! ### An empty directory -/

def reposDepot : Depot where
  reposDir := "/repos"
  host := ⟨.folder [("repos", .folder [])], []⟩
  place := ["repos"]
  wellFormed := by decide
  working := ⟨_, rfl⟩
  leads := by cbv

end ImportAtlas.Checkout
