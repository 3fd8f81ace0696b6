import ImportAtlas.Proofs.Host.Change
import ImportAtlas.Proofs.Host.Descent

/-!
# The folder above a joined path

The folder above a path that ends in a name is the path it was joined to, written without the
slashes and dots at its end, and leads to where that path leads. So a folder that is made below an
existing one stands at its real place under its name.
-/

namespace ImportAtlas.Host

open Text

namespace Location

variable {base s : String} {cs : List Char}

theorem dropEmptyEnd_prefix (cs : List Char) : dropEmptyEnd cs <+: cs := by
  have hgo (r : List Char) : dropEmptyEnd.go r <+: r.reverse := by
    fun_induction dropEmptyEnd.go r
    case case1 => exact List.prefix_rfl
    case case2 rest _ ih =>
      rw [List.reverse_cons]
      exact ih.trans (List.prefix_append _ _)
    case case3 rest ih =>
      rw [List.reverse_cons]
      exact ih.trans (List.prefix_append _ _)
    case case4 => exact List.prefix_rfl
  simpa only [dropEmptyEnd, List.reverse_reverse] using hgo cs.reverse

theorem dropEmptyEnd_ne_nil (h : cs ≠ []) : dropEmptyEnd cs ≠ [] := by
  have hgo (r : List Char) (hr : r ≠ []) : dropEmptyEnd.go r ≠ [] := by
    fun_induction dropEmptyEnd.go r
    case case1 => exact List.cons_ne_nil _ _
    case case2 rest hrest ih => exact ih fun hnil => hrest (by rw [hnil])
    case case3 rest ih => exact ih (List.cons_ne_nil _ _)
    case case4 => simpa using hr
  exact hgo cs.reverse (by simpa using h)

theorem dropEmptyEnd_append_slash (h : cs ≠ []) :
    dropEmptyEnd (cs ++ ['/']) = dropEmptyEnd cs := by
  rw [dropEmptyEnd, List.reverse_append, List.reverse_singleton, List.singleton_append,
    dropEmptyEnd.go]
  · rfl
  · simpa using h

/-- A name at the end of a path says something. -/
theorem dropEmptyEnd_append_segment (cs : List Char) (hs : IsSegment s) :
    dropEmptyEnd (cs ++ '/' :: s.toList) = cs ++ '/' :: s.toList := by
  have hne : s.toList.reverse ≠ [] := by simpa using hs.ne_empty
  obtain ⟨c, r, hcr⟩ := List.exists_cons_of_ne_nil hne
  have hslash : ∀ d ∈ c :: r, d ≠ '/' := by
    rintro d hd rfl
    exact hs.no_slash (List.mem_reverse.mp (hcr ▸ hd))
  have hdot : ¬ (c = '.' ∧ r = []) := by
    rintro ⟨rfl, rfl⟩
    apply hs.ne_current
    apply String.toList_injective
    rw [← List.reverse_reverse s.toList, hcr]
    rfl
  have hback : (cs ++ '/' :: s.toList).reverse = c :: (r ++ '/' :: cs.reverse) := by
    rw [List.append_cons, List.reverse_append, List.reverse_append, hcr]
    rfl
  rw [dropEmptyEnd, hback, dropEmptyEnd.go, ← hback, List.reverse_reverse]
  · intro hc
    exact hslash c List.mem_cons_self (List.cons.inj hc).1
  · intro rest hc
    exact hslash c List.mem_cons_self (List.cons.inj hc).1
  · intro rest hc
    obtain ⟨hfirst, hrest⟩ := List.cons.inj hc
    cases r with
    | nil => exact hdot ⟨hfirst, rfl⟩
    | cons d r' => exact hslash d (by simp) (List.cons.inj hrest).1

theorem join_toList (hbase : base ≠ "") (hs : IsSegment s) :
    ∃ b, (join base s).toList = b ++ '/' :: s.toList ∧
      (base.toList = b ++ ['/'] ∨ base.toList = b) := by
  rw [join_eq hbase (isAbsolute_of_isSegment hs)]
  split
  next hlast =>
    obtain ⟨front, hfront⟩ := List.getLast?_eq_some_iff.mp hlast
    exact ⟨front, by simp [hfront], Or.inl hfront⟩
  next => exact ⟨base.toList, by simp, Or.inr rfl⟩

theorem getLast?_components_join (hbase : base ≠ "") (hs : IsSegment s) :
    (components (join base s)).getLast? = some (.name s) := by
  have hcomponents : components (joinAll base [s]) = components base ++ [s].map .name :=
    components_joinAll hbase (by simpa using hs)
  rw [show join base s = joinAll base [s] from rfl, hcomponents]
  simp

theorem fileName_join (hbase : base ≠ "") (hs : IsSegment s) : fileName (join base s) = s := by
  rw [fileName, getLast?_components_join hbase hs]

theorem parent?_join (hbase : base ≠ "") (hs : IsSegment s) :
    parent? (join base s) = some (String.ofList (dropEmptyEnd base.toList)) := by
  obtain ⟨b, hjoin, hb⟩ := join_toList hbase hs
  have hbefore : beforeLast? isSlash (b ++ '/' :: s.toList) = some b :=
    beforeLast?_append_sep b isSlash_slash (plain_of_isSegment hs)
  rw [parent?, getLast?_components_join hbase hs]
  simp only [hjoin, dropEmptyEnd_append_segment b hs, hbefore]
  rcases hb with hb | hb
  · cases b with
    | nil =>
        rw [hb]
        rfl
    | cons c cs => rw [hb, dropEmptyEnd_append_slash (List.cons_ne_nil c cs)]
  · cases b with
    | nil => exact absurd (String.toList_eq_nil_iff.mp hb) hbase
    | cons c cs => rw [hb]

/-- The folder above a name in a folder that is itself a name in some folder. -/
theorem parent?_join_join {t : String} (hbase : base ≠ "") (hs : IsSegment s) (ht : IsSegment t) :
    parent? (join (join base s) t) = some (join base s) := by
  obtain ⟨b, hjoin, _⟩ := join_toList hbase hs
  rw [parent?_join (join_ne_empty hbase (isAbsolute_of_isSegment hs)) ht, hjoin,
    dropEmptyEnd_append_segment b hs, ← hjoin, String.ofList_toList]

end Location

/-! ## Looking up the folder above -/

variable {root : Entry} {links : Nat} {trail : Trail} {host : Host} {base name : String}
  {f : Found} {place : List String} {es : List (String × Entry)}

theorem fields_reverse_slash (rest : List Char) :
    fields Location.isSlash (String.ofList ('/' :: rest).reverse) =
      fields Location.isSlash (String.ofList rest.reverse) ++ [""] := by
  rw [show ([""] : List String) = fields Location.isSlash "" from rfl,
    ← fields_append_sep _ Location.isSlash_slash]
  exact congrArg _ (String.toList_injective (by simp))

theorem fields_reverse_dot (rest : List Char) :
    fields Location.isSlash (String.ofList ('.' :: '/' :: rest).reverse) =
      fields Location.isSlash (String.ofList rest.reverse) ++ ["."] := by
  rw [show (["."] : List String) = fields Location.isSlash "." from by decide,
    ← fields_append_sep _ Location.isSlash_slash]
  exact congrArg _ (String.toList_injective (by simp))

/-- A closing `.` asks for a folder just as a closing slash does. -/
theorem advance_append_dot (front : List String) :
    advance root links trail (front ++ ["."]) = advance root links trail (front ++ [""]) := by
  rw [advance_append, advance_append]
  congr 1
  funext s
  rw [advance, advance.eq_def root s.1 s.2 [""]]
  rfl

theorem advance_append_slash {front : List String} {s : Nat × Trail}
    (h : advance root links trail front = .ok s) (hfolder : (current root s.2).isFolder = true) :
    advance root links trail (front ++ [""]) = .ok s := by
  rw [advance_append, h, Except.bind, advance]
  simp [hfolder, advance]

theorem advance_dropEmptyEnd (cs : List Char) {s : Nat × Trail}
    (h : advance root links trail (fields Location.isSlash (String.ofList cs)) = .ok s) :
    advance root links trail (fields Location.isSlash (String.ofList (Location.dropEmptyEnd cs))) =
      .ok s := by
  have hgo (r : List Char)
      (hr : advance root links trail (fields Location.isSlash (String.ofList r.reverse)) = .ok s) :
      advance root links trail
        (fields Location.isSlash (String.ofList (Location.dropEmptyEnd.go r))) = .ok s := by
    fun_induction Location.dropEmptyEnd.go r
    case case1 => exact hr
    case case2 rest _ ih =>
      rw [fields_reverse_slash] at hr
      exact ih (advance_front (Or.inr rfl) hr)
    case case3 rest ih =>
      rw [fields_reverse_dot, advance_append_dot, ← fields_reverse_slash] at hr
      exact ih hr
    case case4 => exact hr
  exact hgo cs.reverse (by rwa [List.reverse_reverse])

/-- The slashes and dots at the end of a path only ask for a folder. -/
theorem advance_of_dropEmptyEnd (cs : List Char) {s : Nat × Trail}
    (h : advance root links trail
      (fields Location.isSlash (String.ofList (Location.dropEmptyEnd cs))) = .ok s)
    (hfolder : (current root s.2).isFolder = true) :
    advance root links trail (fields Location.isSlash (String.ofList cs)) = .ok s := by
  have hgo (r : List Char)
      (hr : advance root links trail
        (fields Location.isSlash (String.ofList (Location.dropEmptyEnd.go r))) = .ok s) :
      advance root links trail (fields Location.isSlash (String.ofList r.reverse)) = .ok s := by
    fun_induction Location.dropEmptyEnd.go r
    case case1 => exact hr
    case case2 rest _ ih =>
      rw [fields_reverse_slash]
      exact advance_append_slash (ih hr) hfolder
    case case3 rest ih =>
      rw [fields_reverse_dot, advance_append_dot, ← fields_reverse_slash]
      exact ih hr
    case case4 => exact hr
  simpa only [List.reverse_reverse] using hgo cs.reverse h

theorem resolve_dropEmptyEnd (h : host.resolve base = .ok f) :
    host.resolve (String.ofList (Location.dropEmptyEnd base.toList)) = .ok f := by
  obtain ⟨hnul, hne, hsize, links, way, hadv, _, rfl⟩ := resolve_ok h
  have hchars : base.toList ≠ [] := fun hnil => hne (String.toList_eq_nil_iff.mp hnil)
  obtain ⟨rest, hrest⟩ := Location.dropEmptyEnd_prefix base.toList
  have hshort : Location.dropEmptyEnd base.toList ≠ [] := Location.dropEmptyEnd_ne_nil hchars
  have hbase : String.ofList (Location.dropEmptyEnd base.toList) ++ String.ofList rest = base :=
    String.toList_injective (by simpa using hrest)
  have hnonempty : String.ofList (Location.dropEmptyEnd base.toList) ≠ "" := by
    intro hempty
    exact hshort (by simpa using congrArg String.toList hempty)
  have hstart : startTrail host (String.ofList (Location.dropEmptyEnd base.toList)) =
      startTrail host base := by
    rw [startTrail, startTrail, ← Location.isAbsolute_append hnonempty (String.ofList rest), hbase]
  have hbytes : (String.ofList (Location.dropEmptyEnd base.toList)).utf8ByteSize ≤ maxPathBytes := by
    have hsum := congrArg String.utf8ByteSize hbase
    rw [String.utf8ByteSize_append] at hsum
    omega
  have hnul' : '\x00' ∉ (String.ofList (Location.dropEmptyEnd base.toList)).toList := by
    rw [String.toList_ofList]
    exact fun hmem => hnul (hrest ▸ List.mem_append_left rest hmem)
  have hadv' := advance_dropEmptyEnd base.toList (by rwa [String.ofList_toList])
  rw [resolve_eq, if_neg hnul', if_neg hnonempty, if_neg (Nat.not_lt.mpr hbytes), hstart, hadv']
  rfl

/-- A name below an existing folder has that folder's real place for the folder above it. -/
theorem parentPlace_join (h : host.resolve base = .ok ⟨place, .folder es⟩)
    (hname : IsEntryName name) :
    host.parentPlace (Location.join base name) =
      if name.utf8ByteSize > maxNameBytes then .error .nameTooLong else .ok (place, name) := by
  obtain ⟨hnul, hbase, _⟩ := resolve_ok h
  have hs : IsSegment name := hname.toIsSegment
  have hchars : '\x00' ∉ (Location.join base name).toList := by
    have hsegs : ∀ n ∈ [name], IsSegment n := by simpa using hs
    intro hin
    rcases (Location.mem_toList_joinAll (by decide) hsegs).mp hin with hin | ⟨n, hn, hin⟩
    · exact hnul hin
    · rw [List.mem_singleton] at hn
      exact hname.no_nul (hn ▸ hin)
  have habove : host.resolve (String.ofList (Location.dropEmptyEnd base.toList)) =
      .ok ⟨place, .folder es⟩ := resolve_dropEmptyEnd h
  have hdir : (String.ofList (Location.dropEmptyEnd base.toList)).isEmpty = false := by
    rw [Bool.eq_false_iff, Ne, String.isEmpty_iff]
    exact (resolve_ok habove).2.1
  unfold parentPlace
  rw [Location.parent?_join hbase hs, Location.fileName_join hbase hs]
  simp only [String.contains_char_eq, hchars, decide_false, Bool.false_eq_true, if_false, hdir,
    habove, bind, Except.bind, Entry.isFolder, Bool.not_true, pure, Except.pure, throw, throwThe,
    MonadExceptOf.throw]

/-! ## Making a folder below another -/

theorem meetsNoLink_singleton (h : ∀ target, Entry.find? name es ≠ some (.link target)) :
    (Entry.folder es).MeetsNoLink [name] := by
  intro above habove target hat
  rcases List.prefix_cons_iff.mp habove with rfl | ⟨rest, rfl, hrest⟩
  · rw [Entry.at?_nil] at hat
    cases hat
  · rw [List.prefix_nil.mp hrest, Entry.at?_folder_cons] at hat
    cases hfind : Entry.find? name es with
    | none => simp [hfind] at hat
    | some d =>
        rw [hfind, Option.bind_some, Entry.at?_nil] at hat
        exact h target (hfind.trans hat)

theorem lookup_join (h : host.resolve base = .ok ⟨place, .folder es⟩) (hname : IsEntryName name)
    (hlink : ∀ target, Entry.find? name es ≠ some (.link target)) (followLast : Bool) :
    host.lookup followLast (Location.join base name) =
      if Fits (Location.join base name) [name] then
        match Entry.find? name es with
        | none => .error .notFound
        | some d => .ok ⟨place ++ [name], d⟩
      else .error .nameTooLong := by
  have hlookup := lookup_below h (List.cons_ne_nil name [])
    (by simpa using hname.toIsSegment) (meetsNoLink_singleton hlink) followLast
  have hnul : ¬ ∃ n ∈ [name], '\x00' ∈ n.toList := by
    simpa using hname.no_nul
  rw [if_neg hnul, Entry.descend_folder_cons] at hlookup
  rw [show Location.join base name = Location.joinAll base [name] from rfl, hlookup]
  simp only [Fits, List.forall_mem_singleton]
  by_cases hsize : (Location.joinAll base [name]).utf8ByteSize ≤ maxPathBytes
  · by_cases hlong : name.utf8ByteSize ≤ maxNameBytes
    · rw [if_neg (by omega), if_neg (by omega), if_pos ⟨hsize, hlong⟩]
      cases Entry.find? name es <;> rfl
    · rw [if_neg (by omega), if_pos (by omega), if_neg fun hfits => hlong hfits.2]
      rfl
  · rw [if_pos (by omega), if_neg fun hfits => hsize hfits.1]

theorem isEmpty_join (h : host.resolve base = .ok f) (hname : IsEntryName name) :
    (Location.join base name).isEmpty = false := by
  rw [Bool.eq_false_iff, Ne, String.isEmpty_iff]
  exact Location.join_ne_empty (resolve_ok h).2.1
    (Location.isAbsolute_of_isSegment hname.toIsSegment)

theorem ensureFolder_join (h : host.resolve base = .ok ⟨place, .folder es⟩)
    (hname : IsEntryName name) (hlink : ∀ target, Entry.find? name es ≠ some (.link target)) :
    host.ensureFolder (Location.join base name) =
      if Fits (Location.join base name) [name] then
        match Entry.find? name es with
        | none => .ok (host.setPlace (place ++ [name]) (some (.folder [])))
        | some d => if d.isFolder then .ok host else .error .alreadyExists
      else .error .nameTooLong := by
  rw [ensureFolder, createFolder, resolveEntry, isFolder, resolve, lookup_join h hname hlink,
    lookup_join h hname hlink]
  by_cases hfits : Fits (Location.join base name) [name]
  · rw [if_pos hfits, if_pos hfits]
    cases Entry.find? name es with
    | none =>
        have hshort : ¬ name.utf8ByteSize > maxNameBytes :=
          Nat.not_lt.mpr (hfits.2 name List.mem_cons_self)
        simp [isEmpty_join h hname, parentPlace_join h hname, hshort, bind, Except.bind, pure,
          Except.pure]
    | some d => rfl
  · rw [if_neg hfits, if_neg hfits]
    rfl

/-- A folder below an existing one is made unless it is there. -/
theorem createFolders_join (h : host.resolve base = .ok ⟨place, .folder es⟩)
    (hname : IsEntryName name) (hlink : ∀ target, Entry.find? name es ≠ some (.link target)) :
    host.createFolders (Location.join base name) =
      if Fits (Location.join base name) [name] then
        match Entry.find? name es with
        | none => (host.setPlace (place ++ [name]) (some (.folder [])), .ok ())
        | some d => (host, if d.isFolder then .ok () else .error .alreadyExists)
      else (host, .error .nameTooLong) := by
  rw [createFolders, createFoldersUpTo.eq_def]
  simp only [isEmpty_join h hname, ensureFolder_join h hname hlink, Bool.false_eq_true, if_false]
  by_cases hfits : Fits (Location.join base name) [name]
  · rw [if_pos hfits, if_pos hfits]
    cases Entry.find? name es with
    | none => rfl
    | some d => cases d <;> rfl
  · rw [if_neg hfits, if_neg hfits]

end ImportAtlas.Host
