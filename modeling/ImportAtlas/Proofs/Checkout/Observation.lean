import ImportAtlas.Proofs.Checkout.Depot
import ImportAtlas.Proofs.Checkout.Locality

/-!
# What can be seen of a checkout

A deletion, a read and a graph tell of a checkout what its tree alone makes of them. The other
entries of the directory show in one way only: while a checkout is missing whose name or real path
would be too long for the host, the host's reason depends on whether the owner has a folder.
-/

namespace ImportAtlas.Checkout

open Text Host

variable {d : Depot} {es es' : Contents} {owner name path : String} {tree : Entry}

/-- The entries hold no links, and a folder for each owner. -/
structure Contents.IsTidy (es : Contents) : Prop extends es.IsPlain where
  linkFree : (Entry.folder es).LinkFree
  owners : ∀ owner e, Entry.find? owner es = some e → e.isFolder = true

namespace Contents

theorem isTidy_nil : IsTidy [] where
  toIsPlain := isPlain_nil
  linkFree := .folder (by simp)
  owners := by simp

theorem IsTidy.linkFree_of_checkout? (hes : es.IsTidy) (h : es.checkout? owner name = some tree) :
    tree.LinkFree := hes.linkFree.of_at? h

theorem IsTidy.withOwner (hes : es.IsTidy) (howner : IsEntryName owner) :
    (withOwner owner es).IsTidy where
  toIsPlain := hes.toIsPlain.withOwner howner
  linkFree := by
    rw [Contents.withOwner]
    cases Entry.find? owner es with
    | none =>
        refine Entry.linkFree_alter hes.linkFree fun new hnew => ?_
        rw [← Option.some.inj hnew]
        exact .folder (by simp)
    | some e => exact hes.linkFree
  owners := by
    intro other e hfind
    rw [find?_withOwner] at hfind
    split at hfind
    · rw [← Option.some.inj hfind]
      cases howner' : Entry.find? owner es with
      | none => rfl
      | some e' => exact hes.owners owner e' howner'
    · exact hes.owners other e hfind

theorem IsTidy.change (hes : es.IsTidy) (hname : IsEntryName name) {ds : List (String × Entry)}
    (howner : Entry.find? owner es = some (.folder ds)) {new : Option Entry}
    (hnew : ∀ tree ∈ new, tree.WellFormed ∧ tree.LinkFree) : (change owner name new es).IsTidy where
  toIsPlain := by
    refine hes.toIsPlain.change hname howner fun tree htree => ⟨(hnew tree htree).1, ?_⟩
    rintro target rfl
    cases (hnew _ htree).2
  linkFree := by
    simp only [Contents.change, howner, Entry.setAt_singleton]
    have hds : (Entry.folder ds).LinkFree := hes.linkFree.of_mem (Entry.mem_of_find? howner)
    refine Entry.linkFree_alter hes.linkFree fun e he => ?_
    rw [← Option.some.inj he]
    exact Entry.linkFree_alter hds fun tree htree => (hnew tree htree).2
  owners := by
    intro other e hfind
    simp only [Contents.change, howner, Entry.setAt_singleton] at hfind
    by_cases ho : other = owner
    · rw [ho, Entry.find?_alter_some] at hfind
      rw [← Option.some.inj hfind]
      rfl
    · rw [Entry.find?_alter_of_ne ho] at hfind
      exact hes.owners other e hfind

end Contents

/-! ## Where the path of a checkout leads -/

theorem resolve_path_of_present (hes : es.IsPlain) (hid : IsIdentity owner name)
    (h : es.checkout? owner name = some tree) :
    (d.holding es).resolve (d.path owner name) =
      if d.Fits owner name then .ok ⟨d.place ++ [owner, name], tree⟩ else .error .nameTooLong := by
  have hlink : ∀ target, tree ≠ .link target := by
    rintro target rfl
    exact hes.checkout owner name target h
  exact resolve_joinAll_at (d.resolve_holding es) hid.isEntryName h hlink

theorem isFolder_path_of_absent (hes : es.IsPlain) (hid : IsIdentity owner name)
    (h : es.checkout? owner name = none) :
    (d.holding es).isFolder (d.path owner name) = false := by
  rw [Bool.eq_false_iff, Ne, isFolder_iff]
  rintro ⟨place, ds, hresolve⟩
  obtain ⟨tree, _, htree, _⟩ := (Depot.lookup_path_eq_ok_iff hes hid true).mp hresolve
  rw [h] at htree
  cases htree

/-- A checkout that is there has a real path, unless this or the directory's is too long. -/
theorem canonicalize_path_of_present (hes : es.IsPlain) (hid : IsIdentity owner name)
    (h : es.checkout? owner name = some tree) :
    (d.holding es).canonicalize (d.path owner name) =
      (d.host.realBase d.reposDir).bind fun _ =>
        if FitsBelow d.place [owner, name] then .ok ⟨d.place ++ [owner, name], tree⟩
        else .error .nameTooLong := by
  rw [Depot.canonicalize_path hes hid, Entry.descendWithin_of_at? h]
  simp only [fitsBelow_iff (List.cons_ne_nil owner [name])]
  split <;> rfl

/-- The host's reason why a missing checkout has no real path. -/
def absence (d : Depot) (es : Contents) (owner name : String) : HostError :=
  match d.host.realBase d.reposDir with
  | .error e => e
  | .ok _ =>
    if FitsBelow d.place [owner] ∧
        ((Entry.find? owner es).isSome → FitsBelow d.place [owner, name]) then .notFound
    else .nameTooLong

theorem canonicalize_path_of_absent (hes : es.IsTidy) (hid : IsIdentity owner name)
    (h : es.checkout? owner name = none) :
    (d.holding es).canonicalize (d.path owner name) = .error (absence d es owner name) := by
  rw [Depot.canonicalize_path hes.toIsPlain hid, absence, descendWithin_below]
  cases d.host.realBase d.reposDir with
  | error e => rfl
  | ok f =>
      by_cases howner : FitsBelow d.place [owner]
      · rw [Except.bind, if_pos howner]
        cases hfind : Entry.find? owner es with
        | none => simp [howner, Except.map]
        | some e =>
            -- Only below a folder of the owner does it count how long the name is.
            obtain ⟨ds, rfl⟩ := Entry.exists_of_isFolder (hes.owners owner e hfind)
            have hmissing : Entry.find? name ds = none := by
              rw [Contents.checkout?_eq, hfind] at h
              exact h
            simp only [descendWithin_below, hmissing]
            by_cases hname : FitsBelow (d.place ++ [owner]) [name]
            · rw [if_pos hname, if_pos ⟨howner, fun _ => fitsBelow_cons.mpr ⟨howner, hname⟩⟩]
              rfl
            · rw [if_neg hname, if_neg fun hfits => hname (fitsBelow_cons.mp (hfits.2 rfl)).2]
              rfl
      · rw [Except.bind, if_neg howner, if_neg fun hfits => howner hfits.1]
        rfl

theorem absence_eq_or (howner : (Entry.find? owner es).isSome → (Entry.find? owner es').isSome) :
    absence d es' owner name = absence d es owner name ∨
      ¬ FitsBelow d.place [owner, name] ∧ absence d es owner name = .notFound ∧
        absence d es' owner name = .nameTooLong := by
  rw [absence, absence]
  cases d.host.realBase d.reposDir with
  | error e => exact .inl rfl
  | ok f =>
      by_cases hfits : FitsBelow d.place [owner]
      · by_cases hname : FitsBelow d.place [owner, name]
        · simp [hname]
        · cases hold : (Entry.find? owner es).isSome with
          | true => simp [hname, howner hold]
          | false =>
              cases hnew : (Entry.find? owner es').isSome with
              | true => simp [hfits, hname]
              | false => simp
      · simp [hfits]

/-! ## Reads and graphs -/

/-- The second read says what the first one says, but that a checkout which would be too deep for
the host, or its name too long, may now be missing for that reason. -/
def SameRead (d : Depot) (owner name : String) (before after : Except CheckoutError String) :
    Prop :=
  after = before ∨ ¬ FitsBelow d.place [owner, name] ∧
    before = .error (.checkoutMissing owner name .notFound) ∧
      after = .error (.checkoutMissing owner name .nameTooLong)

theorem sameRead_readSource (hes : es.IsTidy) (hes' : es'.IsTidy)
    (h : es'.checkout? owner name = es.checkout? owner name)
    (howner : (Entry.find? owner es).isSome → (Entry.find? owner es').isSome) (path : String) :
    SameRead d owner name (readSource d.reposDir (d.holding es) owner name path)
      (readSource d.reposDir (d.holding es') owner name path) := by
  by_cases hid : IsIdentity owner name
  · have hroot := d.localPath hid
    cases hcheckout : es.checkout? owner name with
    | none =>
        rw [readSource_of_error hroot (canonicalize_path_of_absent hes hid hcheckout),
          readSource_of_error hroot (canonicalize_path_of_absent hes' hid (h.trans hcheckout))]
        cases written path with
        | error e => exact Or.inl rfl
        | ok normalized =>
            rcases absence_eq_or howner with heq | ⟨hlong, hbefore, hafter⟩
            · rw [heq]
              exact Or.inl rfl
            · rw [hbefore, hafter]
              exact Or.inr ⟨hlong, rfl, rfl⟩
    | some tree =>
        have hbefore := canonicalize_path_of_present (d := d) hes.toIsPlain hid hcheckout
        have hafter := canonicalize_path_of_present (d := d) hes'.toIsPlain hid (h.trans hcheckout)
        refine Or.inl ?_
        cases hbase : d.host.realBase d.reposDir with
        | error e =>
            rw [hbase] at hbefore hafter
            rw [readSource_of_error hroot hbefore, readSource_of_error hroot hafter]
        | ok f =>
            rw [hbase, Except.bind] at hbefore hafter
            by_cases hfits : FitsBelow d.place [owner, name]
            · rw [if_pos hfits] at hbefore hafter
              exact readSource_congr hroot hafter hbefore (hes.linkFree_of_checkout? hcheckout)
            · rw [if_neg hfits] at hbefore hafter
              rw [readSource_of_error hroot hbefore, readSource_of_error hroot hafter]
  · obtain ⟨part, value, hroot⟩ := localPath_eq_error d.reposDir hid
    rw [readSource_of_refused hroot, readSource_of_refused hroot]
    exact Or.inl rfl

theorem value_buildGraph_congr (hes : es.IsTidy) (hes' : es'.IsTidy)
    (h : es'.checkout? owner name = es.checkout? owner name) (b : GraphBuilder) :
    (b.buildGraph (d.holding es') (.store d.reposDir) owner name none).value =
      (b.buildGraph (d.holding es) (.store d.reposDir) owner name none).value := by
  rw [GraphBuilder.value_buildGraph_store, GraphBuilder.value_buildGraph_store]
  by_cases hid : IsIdentity owner name
  · rw [d.localPath hid]
    apply congrArg (Except.mapError CheckoutError.build)
    cases hcheckout : es.checkout? owner name with
    | none =>
        have hbefore := isFolder_path_of_absent (d := d) hes.toIsPlain hid hcheckout
        have hafter := isFolder_path_of_absent (d := d) hes'.toIsPlain hid (h.trans hcheckout)
        rw [GraphBuilder.value_buildFromRoot_of_absent hafter,
          GraphBuilder.value_buildFromRoot_of_absent hbefore]
    | some tree =>
        have hbefore := resolve_path_of_present (d := d) hes.toIsPlain hid hcheckout
        have hafter := resolve_path_of_present (d := d) hes'.toIsPlain hid (h.trans hcheckout)
        by_cases hfits : d.Fits owner name
        · rw [if_pos hfits] at hbefore hafter
          cases hfree : hes.linkFree_of_checkout? hcheckout with
          | file c =>
              rw [GraphBuilder.value_buildFromRoot_of_absent (by rw [isFolder, hafter]; rfl),
                GraphBuilder.value_buildFromRoot_of_absent (by rw [isFolder, hbefore]; rfl)]
          | folder entries =>
              exact GraphBuilder.value_buildFromRoot_congr (d.wellFormed_holding hes'.wellFormed)
                (d.wellFormed_holding hes.wellFormed) hafter hbefore (.folder entries)
        · rw [if_neg hfits] at hbefore hafter
          rw [GraphBuilder.value_buildFromRoot_of_absent (by rw [isFolder, hafter]),
            GraphBuilder.value_buildFromRoot_of_absent (by rw [isFolder, hbefore])]
  · obtain ⟨part, value, hroot⟩ := localPath_eq_error d.reposDir hid
    rw [hroot]

end ImportAtlas.Checkout
