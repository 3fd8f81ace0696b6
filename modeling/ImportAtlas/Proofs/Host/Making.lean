import ImportAtlas.Proofs.Host.Parent

/-!
# Making folders and those above them

Making a folder starts at the lowest folder above it that is there. A folder that was made is one
that its path leads to, so the next one below it finds it. Hence making folders never fails because
something is missing, as long as the working folder is there.
-/

namespace ImportAtlas.Host

open Text

namespace Location

variable {base path dir s : String} {cs : List Char}

/-- A path with nothing at its end that says nothing. -/
def IsTidy (path : String) : Prop := dropEmptyEnd path.toList = path.toList

theorem dropEmptyEnd_idem (cs : List Char) : dropEmptyEnd (dropEmptyEnd cs) = dropEmptyEnd cs := by
  have hgo (r : List Char) : dropEmptyEnd (dropEmptyEnd.go r) = dropEmptyEnd.go r := by
    fun_induction dropEmptyEnd.go r
    case case1 => rfl
    case case2 ih => exact ih
    case case3 ih => exact ih
    case case4 cs hroot hslash hdot =>
      rw [dropEmptyEnd, List.reverse_reverse, dropEmptyEnd.go]
      · exact hroot
      · exact hslash
      · exact hdot
  exact hgo cs.reverse

theorem isTidy_dropEmptyEnd (cs : List Char) : IsTidy (String.ofList (dropEmptyEnd cs)) := by
  rw [IsTidy, String.toList_ofList, dropEmptyEnd_idem]

theorem isTidy_of_plain (h : '/' ∉ path.toList) : IsTidy path := by
  have hback : '/' ∉ path.toList.reverse := fun hin => h (List.mem_reverse.mp hin)
  rw [IsTidy, dropEmptyEnd, dropEmptyEnd.go, List.reverse_reverse]
  · intro he
    exact hback (he ▸ List.mem_singleton_self '/')
  · intro rest he
    exact hback (he ▸ List.mem_cons_self)
  · intro rest he
    exact hback (he ▸ List.mem_cons_of_mem _ List.mem_cons_self)

theorem isTidy_join (base : String) (hs : IsSegment s) : IsTidy (join base s) := by
  by_cases hbase : base = ""
  · have hjoin : join base s = s := by simp [hbase, join]
    rw [hjoin]
    exact isTidy_of_plain hs.no_slash
  · obtain ⟨b, hjoin, _⟩ := join_toList hbase hs
    rw [IsTidy, hjoin, dropEmptyEnd_append_segment b hs]

/-- The folder above a path, and what is left of the path then. -/
inductive IsAbove (path : String) : String → Prop
  | working (plain : '/' ∉ path.toList) : IsAbove path ""
  | folder (d last : List Char) (split : path.toList = d ++ '/' :: last) (plain : '/' ∉ last) :
      IsAbove path (if d = [] then "/" else String.ofList (dropEmptyEnd d))

theorem isAbove_of_parent? (hpath : IsTidy path) (h : parent? path = some dir) :
    IsAbove path dir := by
  unfold parent? at h
  split at h
  · cases h
  · cases h
  · simp only [show dropEmptyEnd path.toList = path.toList from hpath] at h
    by_cases hslash : '/' ∈ path.toList
    · obtain ⟨d, c, hc, hsplit⟩ := exists_sep_afterLast isSlash_slash hslash
      obtain rfl : c = '/' := by simpa [isSlash] using hc
      have hplain : ∀ x ∈ afterLast isSlash path.toList, isSlash x = false :=
        plain_of_mem_afterLast
      have hbefore : beforeLast? isSlash path.toList = some d := by
        rw [hsplit]
        exact beforeLast?_append_sep d isSlash_slash hplain
      simp only [hbefore] at h
      have hlast : '/' ∉ afterLast isSlash path.toList := fun hin => by
        simpa [isSlash] using hplain _ hin
      have habove := IsAbove.folder d _ hsplit hlast
      cases d with
      | nil => exact Option.some.inj h ▸ habove
      | cons x d => exact Option.some.inj h ▸ habove
    · have hplain : ∀ x ∈ path.toList, isSlash x = false := fun x hx =>
        beq_eq_false_iff_ne.mpr fun he => hslash (he ▸ hx)
      simp only [beforeLast?_of_plain hplain] at h
      exact Option.some.inj h ▸ .working hslash

theorem isTidy_of_isAbove (h : IsAbove path dir) : IsTidy dir := by
  cases h with
  | working plain => rfl
  | folder d last split plain =>
      split
      · rfl
      · exact isTidy_dropEmptyEnd d

theorem length_lt_of_parent? (hne : path ≠ "") (hpath : IsTidy path) (h : parent? path = some dir) :
    dir.length < path.length := by
  rw [← String.length_toList, ← String.length_toList]
  cases isAbove_of_parent? hpath h with
  | working plain =>
      have hchars : path.toList ≠ [] := fun hnil => hne (String.toList_eq_nil_iff.mp hnil)
      exact List.length_pos_of_ne_nil hchars
  | folder d last hsplit plain =>
      rw [hsplit]
      split
      next hd =>
        subst hd
        cases last with
        | nil =>
            have hroot : path = "/" := String.toList_injective hsplit
            rw [hroot] at h
            exact absurd h (by decide)
        | cons c last => simp
      next hd =>
        have hprefix : dropEmptyEnd d <+: d := dropEmptyEnd_prefix d
        have hlength : (dropEmptyEnd d).length ≤ d.length := hprefix.length_le
        rw [String.toList_ofList, List.length_append, List.length_cons]
        omega

theorem fileName_of_fields {front : List String}
    (hfields : fields isSlash path = front ++ [s]) (hs : IsSegment s) : fileName path = s := by
  obtain ⟨parts, hparts⟩ : ∃ parts, partsOf path = parts ++ [s] :=
    ⟨front.filter (· != ""), by simp [partsOf, hfields, hs.ne_empty]⟩
  obtain ⟨plain, hplain⟩ : ∃ plain,
      ((parts ++ [s]).filter (· != ".")).map ofSegment = plain ++ [.name s] :=
    ⟨(parts.filter (· != ".")).map ofSegment, by simp [hs.ne_current, ofSegment, hs.ne_parent]⟩
  have hlast : (components path).getLast? = some (.name s) := by
    rw [components_eq, hparts]
    simp only [componentsOf, hplain, ← List.cons_append]
    split
    · rw [List.getLast?_concat]
    · split <;> rw [List.getLast?_concat]
  rw [fileName, hlast]

end Location

/-! ## The folder above, as it is found -/

variable {root : Entry} {links : Nat} {trail : Trail} {host host' : Host} {path dir last : String}
  {f : Found}

theorem isAbsolute_ofList_append {d : List Char} (hd : d ≠ []) (rest : List Char) :
    Location.isAbsolute (String.ofList (d ++ rest)) = Location.isAbsolute (String.ofList d) := by
  rw [String.ofList_append]
  exact Location.isAbsolute_append (by simpa using hd) _

theorem fields_of_split {d last : List Char} (split : path.toList = d ++ '/' :: last)
    (plain : '/' ∉ last) :
    fields Location.isSlash path =
      fields Location.isSlash (String.ofList d) ++ [String.ofList last] := by
  have hpath : path = String.ofList d ++ String.singleton '/' ++ String.ofList last :=
    String.toList_injective (by simp [split])
  rw [hpath, fields_append_sep _ Location.isSlash_slash]
  congr 1
  refine fields_of_plain fun c hc => ?_
  rw [String.toList_ofList] at hc
  exact beq_eq_false_iff_ne.mpr fun he => plain (he ▸ hc)

theorem startTrail_of_split {d last : List Char} (hd : d ≠ [])
    (split : path.toList = d ++ '/' :: last) :
    startTrail host path = startTrail host (String.ofList (Location.dropEmptyEnd d)) := by
  have hpath : path = String.ofList (d ++ '/' :: last) :=
    String.toList_injective (by rw [split, String.toList_ofList])
  obtain ⟨rest, hrest⟩ := Location.dropEmptyEnd_prefix d
  have hcut := isAbsolute_ofList_append (Location.dropEmptyEnd_ne_nil hd) rest
  rw [hrest] at hcut
  rw [startTrail, startTrail, ← hcut, hpath, isAbsolute_ofList_append hd]

/-- What the folder above leads to is reached by the fields of a path before its last one. -/
theorem advance_above {d last : List Char} (split : path.toList = d ++ '/' :: last)
    (h : host.startingAt (if d = [] then "/" else String.ofList (Location.dropEmptyEnd d)) = .ok f)
    (hfolder : f.entry.isFolder = true) :
    ∃ s, advance host.root maxLinks (startTrail host path)
      (fields Location.isSlash (String.ofList d)) = .ok s ∧ found host.root s.2 = f := by
  by_cases hd : d = []
  · subst hd
    have hroot : host.resolve "/" = .ok f := h
    have hfields : fields Location.isSlash "/" = [""] ++ [""] := by decide
    have hstart : startTrail host path = startTrail host "/" := by
      rw [startTrail, startTrail, Location.isAbsolute, split]
      rfl
    obtain ⟨_, _, _, links, way, hadv, _, rfl⟩ := resolve_ok hroot
    rw [hfields] at hadv
    exact ⟨(links, way), hstart ▸ advance_front (.inr rfl) hadv, rfl⟩
  · have hne : String.ofList (Location.dropEmptyEnd d) ≠ "" := by
      simpa using Location.dropEmptyEnd_ne_nil hd
    have hres : host.resolve (String.ofList (Location.dropEmptyEnd d)) = .ok f := by
      rwa [if_neg hd, startingAt, if_neg (by simpa using hne)] at h
    obtain ⟨_, _, _, links, way, hadv, _, rfl⟩ := resolve_ok hres
    refine ⟨(links, way), ?_, rfl⟩
    rw [startTrail_of_split hd split]
    exact advance_of_dropEmptyEnd d hadv hfolder

/-- The way to the folder above is the way of a path up to its last part. -/
theorem exists_front_of_isAbove (habove : Location.IsAbove path dir)
    (h : host.startingAt dir = .ok f) (hfolder : f.entry.isFolder = true) :
    ∃ front last s, fields Location.isSlash path = front ++ [last] ∧ '/' ∉ last.toList ∧
      advance host.root maxLinks (startTrail host path) front = .ok s ∧
        found host.root s.2 = f := by
  cases habove with
  | working plain =>
      have hfields : fields Location.isSlash path = [path] :=
        fields_of_plain fun c hc => beq_eq_false_iff_ne.mpr fun he => plain (he ▸ hc)
      have hrel : Location.isAbsolute path = false :=
        beq_eq_false_iff_ne.mpr fun hhead => plain (List.mem_of_head? hhead)
      have hstart : startTrail host path = startTrail host "." := by
        rw [startTrail, hrel, startTrail]
        rfl
      have hdot : host.resolve "." = .ok f := h
      rw [resolve_dot] at hdot
      split at hdot
      · cases hdot
        refine ⟨[], path, (maxLinks, startTrail host path), hfields, plain, by rw [advance], ?_⟩
        rw [hstart]
      · cases hdot
  | folder d last split plain =>
      obtain ⟨s, hadv, hs⟩ := advance_above split h hfolder
      exact ⟨_, String.ofList last, s, fields_of_split split plain, by simpa using plain, hadv, hs⟩

/-! ## Making one folder -/

theorem parentPlace_cases (host : Host) (path : String) :
    (∃ dir f, Location.parent? path = some dir ∧ host.startingAt dir = .ok f ∧
      f.entry.isFolder = true ∧ host.parentPlace path = .ok (f.place, Location.fileName path)) ∨
    (∃ dir e, Location.parent? path = some dir ∧ host.startingAt dir = .error e ∧
      host.parentPlace path = .error e) ∨
    ∃ e, host.parentPlace path = .error e ∧ e ≠ .notFound := by
  unfold parentPlace startingAt
  simp only [bind, Except.bind, pure, Except.pure, throw, throwThe, MonadExceptOf.throw]
  split
  · exact .inr (.inr ⟨_, rfl, by decide⟩)
  · cases Location.parent? path with
    | none => exact .inr (.inr ⟨_, rfl, by decide⟩)
    | some dir =>
        simp only
        cases hres : host.resolve (if dir.isEmpty then "." else dir) with
        | error e => exact .inr (.inl ⟨dir, e, rfl, hres, rfl⟩)
        | ok f =>
            simp only
            split
            · exact .inr (.inr ⟨_, rfl, by decide⟩)
            · split
              · exact .inr (.inr ⟨_, rfl, by decide⟩)
              · exact .inl ⟨dir, f, rfl, hres, by simp_all, rfl⟩

theorem createFolder_ok (h : host.createFolder path = .ok host') :
    path ≠ "" ∧ host.resolveEntry path = .error .notFound ∧ ∃ dir f,
      Location.parent? path = some dir ∧ host.startingAt dir = .ok f ∧ f.entry.isFolder = true ∧
        host' = host.setPlace (f.place ++ [Location.fileName path]) (some (.folder [])) := by
  unfold createFolder at h
  split at h
  · cases h
  next hmissing =>
    by_cases hne : path = ""
    · simp [hne, bind, Except.bind, throw, throwThe, MonadExceptOf.throw] at h
    · rcases parentPlace_cases host path with ⟨dir, f, hdir, hf, hfolder, hplace⟩ |
        ⟨dir, e, _, _, hplace⟩ | ⟨e, hplace, _⟩
      · simp [hne, hplace, bind, Except.bind, pure, Except.pure] at h
        exact ⟨hne, hmissing, dir, f, hdir, hf, hfolder, h.symm⟩
      · simp [hne, hplace, bind, Except.bind] at h
      · simp [hne, hplace, bind, Except.bind] at h
  · cases h

/-- A folder is not made for want of something only if the one above it is missing. -/
theorem ensureFolder_notFound (hne : path ≠ "") (h : host.ensureFolder path = .error .notFound) :
    ∃ dir, Location.parent? path = some dir ∧ dir ≠ "" ∧ host.isFolder dir = false := by
  have hcreate : host.createFolder path = .error .notFound := by
    unfold ensureFolder at h
    split at h
    · cases h
    next e he =>
      split at h
      · cases h
      · rw [he, h]
  unfold createFolder at hcreate
  split at hcreate
  · cases hcreate
  · rcases parentPlace_cases host path with ⟨dir, f, _, _, _, hplace⟩ |
      ⟨dir, e, hdir, herror, hplace⟩ | ⟨e, hplace, hother⟩
    · simp [hne, hplace, bind, Except.bind, pure, Except.pure] at hcreate
    · simp [hne, hplace, bind, Except.bind] at hcreate
      subst hcreate
      have hdirne : dir ≠ "" := by
        rintro rfl
        -- The working folder is where the lookup starts, so it is not what is missing.
        have hdot : host.resolve "." = .error .notFound := herror
        rw [resolve_dot] at hdot
        split at hdot <;> cases hdot
      refine ⟨dir, hdir, hdirne, ?_⟩
      rw [startingAt, if_neg (by simpa using hdirne)] at herror
      rw [isFolder, herror]
    · simp [hne, hplace, bind, Except.bind] at hcreate
      exact absurd hcreate hother
  next e hother _ => exact absurd (Except.error.inj hcreate) hother

theorem isSegment_of_follow_notFound (hplain : '/' ∉ last.toList)
    (hfolder : (current root trail).isFolder = true)
    (h : follow root false links trail [last] = .error .notFound) :
    IsSegment last ∧ last.utf8ByteSize ≤ maxNameBytes ∧
      (current root trail).child? last = none := by
  rw [follow, hfolder] at h
  simp only [Bool.not_true, Bool.false_eq_true, if_false] at h
  by_cases hself : last = "" ∨ last = "."
  · rw [if_pos (by simpa using hself), follow] at h
    cases h
  · rw [if_neg (by simpa using hself)] at h
    by_cases hparent : last = ".."
    · rw [if_pos (by simpa using hparent), follow] at h
      cases h
    · rw [if_neg (by simpa using hparent)] at h
      by_cases hlong : last.utf8ByteSize > maxNameBytes
      · rw [if_pos hlong] at h
        cases h
      · rw [if_neg hlong] at h
        cases hchild : (current root trail).child? last with
        | none =>
            exact ⟨⟨fun he => hself (.inl he), fun he => hself (.inr he), hparent, hplain⟩,
              Nat.le_of_not_gt hlong, rfl⟩
        | some e =>
            rw [hchild] at h
            cases e with
            | file c =>
                simp only [follow] at h
                cases h
            | link target =>
                simp only [List.isEmpty_nil, Bool.not_false, Bool.and_self, if_true] at h
                cases h
            | folder es =>
                simp only [follow] at h
                cases h

/-- A folder was made under a free name in the folder above. -/
structure IsMade (host host' : Host) (path : String) (way : Trail) (last : String)
    (es : List (String × Entry)) : Prop where
  filled : path ≠ ""
  pathText : IsPathText path
  segment : IsSegment last
  short : last.utf8ByteSize ≤ maxNameBytes
  reached : ∃ front links, fields Location.isSlash path = front ++ [last] ∧
    advance host.root maxLinks (startTrail host path) front = .ok (links, way)
  above : current host.root way = .folder es
  free : Entry.find? last es = none
  changed : host' = { host with
    root := host.root.setAt (some (.folder (Entry.alter last (some (.folder [])) es)))
      (Trail.names way) }

theorem exists_isMade (hpath : Location.IsTidy path) (h : host.createFolder path = .ok host') :
    ∃ way last es, IsMade host host' path way last es := by
  obtain ⟨hne, hmissing, dir, f, hdir, hf, hfolder, rfl⟩ := createFolder_ok h
  obtain ⟨front, last, ⟨links, way⟩, hfields, hplain, hadv, rfl⟩ :=
    exists_front_of_isAbove (Location.isAbove_of_parent? hpath hdir) hf hfolder
  obtain ⟨es, hes⟩ := Entry.exists_of_isFolder hfolder
  have habove : current host.root way = .folder es := hes
  have htext : IsPathText path := isPathText_of_notFound hmissing
  rw [resolveEntry, lookup_eq, if_neg htext.no_nul, if_neg hne,
    if_neg (Nat.not_lt.mpr htext.short), hfields,
    follow_append _ _ _ _ _ (List.cons_ne_nil last []), hadv] at hmissing
  obtain ⟨hlast, hshort, hfree⟩ :=
    isSegment_of_follow_notFound hplain (habove ▸ rfl) hmissing
  rw [habove] at hfree
  have htrail : IsTrail host.root way := isTrail_advance (isTrail_startTrail host path) hadv
  have hat : host.root.at? (Trail.names way) = some (.folder es) := habove ▸ htrail.at?_names
  refine ⟨way, last, es, hne, htext, hlast, hshort, ⟨front, links, hfields, hadv⟩, habove,
    hfree, ?_⟩
  rw [Location.fileName_of_fields hfields hlast, setPlace]
  congr 1
  exact (Entry.setAt_append hat (List.cons_ne_nil _ _) _).trans (by rw [Entry.setAt_singleton])

namespace IsMade

variable {way : Trail} {es : List (String × Entry)}

theorem at?_way (h : IsMade host host' path way last es) :
    host.root.at? (Trail.names way) = some (.folder es) := by
  obtain ⟨front, links, _, hadv⟩ := h.reached
  rw [(isTrail_advance (isTrail_startTrail host path) hadv).at?_names, h.above]

theorem keeps (h : IsMade host host' path way last es) : host.root.Keeps host'.root := by
  rw [h.changed]
  exact (Entry.keeps_alter h.free _).setAt h.at?_way

theorem hasWorkingFolder (h : IsMade host host' path way last es)
    (hworking : host.HasWorkingFolder) : host'.HasWorkingFolder :=
  hworking.of_keeps h.keeps (by rw [h.changed])

/-- The new folder is where its path leads to. -/
theorem isFolder (h : IsMade host host' path way last es) (hworking : host.HasWorkingFolder) :
    host'.isFolder path = true := by
  obtain ⟨front, links, hfields, hadv⟩ := h.reached
  have hsame : host'.workingFolder = host.workingFolder := by rw [h.changed]
  obtain ⟨hstart, hstart', hnames⟩ := startTrail_of_keeps h.keeps hworking hsame path
  obtain ⟨way', hadv', htrail', hway⟩ := advance_of_keeps h.keeps hstart hstart' hnames hadv
  have habove : current host'.root way' = .folder (Entry.alter last (some (.folder [])) es) := by
    have hself := htrail'.at?_names
    rw [hway, h.changed, Entry.at?_setAt_self h.at?_way, Option.some.injEq] at hself
    rw [h.changed, ← hself]
  have hchild : (current host'.root way').child? last = some (.folder []) := by
    rw [habove, Entry.child?, Entry.entries, Entry.find?_alter_some]
  rw [Host.isFolder, resolve_eq, if_neg h.pathText.no_nul, if_neg h.filled,
    if_neg (Nat.not_lt.mpr h.pathText.short), hfields, advance_append, hadv', Except.bind,
    advance_cons_name h.segment hchild (by simp), if_neg (Nat.not_lt.mpr h.short), advance]
  rfl

end IsMade

theorem isFolder_of_ensureFolder (hpath : Location.IsTidy path) (hworking : host.HasWorkingFolder)
    (h : host.ensureFolder path = .ok host') :
    host'.isFolder path = true ∧ host'.HasWorkingFolder := by
  unfold ensureFolder at h
  split at h
  next hcreate =>
    obtain ⟨way, last, es, hmade⟩ := exists_isMade hpath (h ▸ hcreate)
    exact ⟨hmade.isFolder hworking, hmade.hasWorkingFolder hworking⟩
  next =>
    split at h
    next hfolder => exact Except.ok.inj h ▸ ⟨hfolder, hworking⟩
    next => cases h

/-! ## Making those above as well -/

/-- What making folders comes to: the path leads to one, or it failed for another reason than that
something is missing. -/
inductive Makes (path : String) : Host × Except HostError Unit → Prop
  | made {host : Host} (leads : path ≠ "" → host.isFolder path = true)
      (working : host.HasWorkingFolder) : Makes path (host, .ok ())
  | failed {host : Host} {e : HostError} (reason : e ≠ .notFound) : Makes path (host, .error e)

theorem makes_createFoldersUpTo {bound : Nat} (hbound : path.length ≤ bound)
    (hpath : Location.IsTidy path) (hworking : host.HasWorkingFolder) :
    Makes path (createFoldersUpTo bound host path) := by
  -- Each folder above has a shorter path, so the bound is never what stops the search.
  induction bound generalizing host path with
  | zero =>
      have hempty : path = "" := by simpa using hbound
      rw [createFoldersUpTo.eq_def]
      simp only [String.isEmpty_iff, if_pos hempty]
      exact .made (fun hne => absurd hempty hne) hworking
  | succ bound ih =>
      rw [createFoldersUpTo.eq_def]
      simp only [String.isEmpty_iff]
      by_cases hne : path = ""
      · rw [if_pos hne]
        exact .made (fun h => absurd hne h) hworking
      rw [if_neg hne]
      cases hfirst : host.ensureFolder path with
      | ok after =>
          obtain ⟨hfolder, hworking'⟩ := isFolder_of_ensureFolder hpath hworking hfirst
          exact .made (fun _ => hfolder) hworking'
      | error e =>
          by_cases hmissing : e = .notFound
          · subst hmissing
            obtain ⟨dir, hdir, hdirne, _⟩ := ensureFolder_notFound hne hfirst
            have hshorter := Location.length_lt_of_parent? hne hpath hdir
            have hdirtidy := Location.isTidy_of_isAbove (Location.isAbove_of_parent? hpath hdir)
            have habove : Makes dir (createFoldersUpTo bound host dir) :=
              ih (by omega) hdirtidy hworking
            simp only [hdir]
            generalize createFoldersUpTo bound host dir = result at habove ⊢
            cases habove with
            | failed reason => exact .failed reason
            | @made after leads working =>
                simp only
                cases hsecond : after.ensureFolder path with
                | ok last =>
                    obtain ⟨hfolder, hworking'⟩ := isFolder_of_ensureFolder hpath working hsecond
                    exact .made (fun _ => hfolder) hworking'
                | error e =>
                    refine .failed ?_
                    rintro rfl
                    obtain ⟨dir', hdir', _, habsent⟩ := ensureFolder_notFound hne hsecond
                    obtain rfl : dir = dir' := Option.some.inj (hdir.symm.trans hdir')
                    rw [leads hdirne] at habsent
                    cases habsent
          · cases e <;> first | exact absurd rfl hmissing | exact .failed (by simp)

/-- Where the working folder is there, making folders never fails because something is missing. -/
theorem createFolders_ne_notFound (hpath : Location.IsTidy path)
    (hworking : host.HasWorkingFolder) : (host.createFolders path).2 ≠ .error .notFound := by
  have hmakes : Makes path (host.createFolders path) :=
    makes_createFoldersUpTo (Nat.le_refl _) hpath hworking
  generalize host.createFolders path = result at hmakes ⊢
  cases hmakes with
  | made leads working => simp
  | failed reason => simpa using reason

end ImportAtlas.Host
