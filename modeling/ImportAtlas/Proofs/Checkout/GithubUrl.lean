import ImportAtlas.Proofs.Checkout.Depot
import ImportAtlas.Proofs.Text.Blank

/-!
# The addresses that name a repository

An address is `owner/name` behind one of a few starts and before one of a few endings, all blanks
around it cut off. One text may be taken apart in two ways, since `.git` can be the end of the name
or stand behind it: then the shorter name is meant. So every form gives back the owner and the name
it was made of, as long as that name does not end with `.git` itself.
-/

namespace ImportAtlas.Identity

open Text Checkout Host

variable {owner name text start ending front : String} {cs rest lit opt tail part : List Char}

/-! ## The forms of an address -/

/-- What stands in front of the owner in an address of the web. -/
def webStarts : List String :=
  ["http://github.com/", "https://github.com/", "http://www.github.com/",
    "https://www.github.com/"]

def webEndings : List String := ["", ".git", "/", ".git/"]

def sshStart : String := "git@github.com:"

def sshEndings : List String := ["", ".git"]

/-- What may stand around the owner and the name. -/
def IsForm (start ending : String) : Prop :=
  start ∈ webStarts ∧ ending ∈ webEndings ∨ start = sshStart ∧ ending ∈ sshEndings

/-- A text that can stand between two slashes. -/
structure IsPart (s : String) : Prop where
  ne : s ≠ ""
  plain : '/' ∉ s.toList

/-- The text is the address of the owner and the name in some form. -/
structure Spells (owner name text : String) : Prop where
  ownerPart : IsPart owner
  namePart : IsPart name
  form : ∃ start ending, IsForm start ending ∧ text = start ++ owner ++ "/" ++ name ++ ending

/-- The text is the address of the owner and the name, and cannot be taken for one of a shorter
name. -/
structure Names (owner name text : String) : Prop where
  spells : Spells owner name text
  shortest : ∀ o n, Spells o n text → name.length ≤ n.length

/-- The name could be read as a shorter one with `.git` behind it. -/
def EndsWithGit (name : String) : Prop := ∃ front, front ≠ "" ∧ name = front ++ ".git"

/-! ## Starts -/

theorem dropStart?_eq_some_iff {start : List Char} :
    dropStart? start cs = some rest ↔ cs = start ++ rest := by
  induction start generalizing cs with
  | nil => simp [dropStart?, eq_comm]
  | cons a start ih =>
      cases cs with
      | nil => simp [dropStart?]
      | cons c cs =>
          rw [dropStart?, List.cons_append, List.cons.injEq, ← ih]
          by_cases hac : a = c
          · simp [hac]
          · simp [hac, Ne.symm hac]

/-- A start behind one that may be left out, if the two cannot be mistaken for each other. -/
theorem dropStart?_dropOptional_eq_some_iff (hopt : ∀ r, dropStart? opt (lit ++ r) = none) :
    dropStart? lit (dropOptional opt cs) = some rest ↔
      cs = lit ++ rest ∨ cs = opt ++ (lit ++ rest) := by
  rw [dropOptional]
  cases h : dropStart? opt cs with
  | none =>
      have hne : cs ≠ opt ++ (lit ++ rest) := by
        intro he
        rw [dropStart?_eq_some_iff.mpr he] at h
        cases h
      rw [Option.getD_none, dropStart?_eq_some_iff, or_iff_left hne]
  | some r =>
      have hcs : cs = opt ++ r := dropStart?_eq_some_iff.mp h
      have hne : cs ≠ lit ++ rest := by
        intro he
        rw [he, hopt] at h
        cases h
      rw [Option.getD_some, dropStart?_eq_some_iff, or_iff_right hne, hcs,
        List.append_cancel_left_eq]

theorem webPart?_eq_some_iff : webPart? cs = some part ↔
    ∃ start ∈ webStarts, ∃ rest, cs = start.toList ++ rest ∧ dropClosingSlash rest = part := by
  have hscheme : ∀ r, dropStart? ['s'] ("://".toList ++ r) = none := fun _ => rfl
  have hhost : ∀ r, dropStart? "www.".toList ("github.com/".toList ++ r) = none := fun _ => rfl
  simp only [webPart?, bind, pure, Option.bind_eq_some_iff, Option.some.injEq,
    dropStart?_eq_some_iff, dropStart?_dropOptional_eq_some_iff hscheme,
    dropStart?_dropOptional_eq_some_iff hhost]
  constructor
  · rintro ⟨_, rfl, _, rfl | rfl, rest, rfl | rfl, hpart⟩
    · exact ⟨"http://github.com/", by simp [webStarts], rest, rfl, hpart⟩
    · exact ⟨"http://www.github.com/", by simp [webStarts], rest, rfl, hpart⟩
    · exact ⟨"https://github.com/", by simp [webStarts], rest, rfl, hpart⟩
    · exact ⟨"https://www.github.com/", by simp [webStarts], rest, rfl, hpart⟩
  · rintro ⟨start, hstart, rest, rfl, hpart⟩
    simp only [webStarts, List.mem_cons, List.not_mem_nil, or_false] at hstart
    rcases hstart with rfl | rfl | rfl | rfl
    · exact ⟨_, rfl, _, .inl rfl, rest, .inl rfl, hpart⟩
    · exact ⟨_, rfl, _, .inr rfl, rest, .inl rfl, hpart⟩
    · exact ⟨_, rfl, _, .inl rfl, rest, .inr rfl, hpart⟩
    · exact ⟨_, rfl, _, .inr rfl, rest, .inr rfl, hpart⟩

/-! ## Endings -/

theorem dropClosingSlash_cases (cs : List Char) :
    cs = dropClosingSlash cs ∨ cs = dropClosingSlash cs ++ ['/'] := by
  rw [dropClosingSlash]
  split
  next r hr => exact .inr (by rw [← List.reverse_inj, hr]; simp)
  next => exact .inl rfl

theorem dropClosingSlash_append_slash (cs : List Char) :
    dropClosingSlash (cs ++ ['/']) = cs := by
  simp [dropClosingSlash]

theorem dropClosingSlash_of_plain (hne : tail ≠ []) (hplain : '/' ∉ tail) (cs : List Char) :
    dropClosingSlash (cs ++ tail) = cs ++ tail := by
  obtain ⟨more, c, rfl⟩ := List.eq_nil_or_concat tail |>.resolve_left hne
  have hc : c ≠ '/' := fun he => hplain (by simp [he])
  rw [dropClosingSlash, List.concat_eq_append, ← List.append_assoc, List.reverse_concat]
  split
  next r hr => exact absurd (List.cons.inj hr).1 hc
  next => rfl

theorem dropGitEnd_cases (cs : List Char) :
    cs = dropGitEnd cs ∨ dropGitEnd cs ≠ [] ∧ cs = dropGitEnd cs ++ ".git".toList := by
  rw [dropGitEnd]
  split
  next c r hr =>
    refine .inr ⟨by simp, ?_⟩
    rw [← List.reverse_inj, dropStart?_eq_some_iff.mp hr]
    simp
  next => exact .inl rfl

theorem dropGitEnd_append (hne : cs ≠ []) : dropGitEnd (cs ++ ".git".toList) = cs := by
  obtain ⟨more, c, rfl⟩ := List.eq_nil_or_concat cs |>.resolve_left hne
  have hgit : dropStart? ['t', 'i', 'g', '.'] (more.concat c ++ ".git".toList).reverse =
      some (c :: more.reverse) := by
    rw [dropStart?_eq_some_iff]
    simp
  rw [dropGitEnd, hgit]
  simp

/-- The owner ends at the first slash, and the name has none. -/
theorem ownerAndName?_eq_some_iff : ownerAndName? cs = some (owner, name) ↔
    ∃ tail, cs = owner.toList ++ '/' :: tail ∧ IsPart owner ∧ tail ≠ [] ∧ '/' ∉ tail ∧
      name = String.ofList (dropGitEnd tail) := by
  have hslash : ∀ {o : List Char}, '/' ∉ o → ∀ c ∈ o, (c != '/') = true := by
    intro o ho c hc
    rw [bne_iff_ne]
    rintro rfl
    exact ho hc
  constructor
  · intro h
    rw [ownerAndName?] at h
    split at h
    next c tail hdrop =>
      split at h
      next => cases h
      next hparts =>
        simp only [Option.some.injEq, Prod.mk.injEq] at h
        obtain ⟨rfl, rfl⟩ := h
        simp only [Bool.or_eq_true, not_or, List.isEmpty_iff, List.contains_iff_mem] at hparts
        obtain ⟨⟨howner, htail⟩, hplain⟩ := hparts
        obtain rfl : c = '/' := by
          have hhead := List.head?_dropWhile_not (p := (· != '/')) (l := cs)
          rw [hdrop] at hhead
          simpa using hhead
        refine ⟨tail, ?_, ⟨fun he => howner (by simpa using he), fun hmem => ?_⟩, htail, hplain,
          rfl⟩
        · rw [String.toList_ofList, ← hdrop, List.takeWhile_append_dropWhile]
        · rw [String.toList_ofList] at hmem
          exact absurd (List.mem_takeWhile_imp hmem) (by simp)
    next => cases h
  · rintro ⟨tail, rfl, howner, htail, hplain, rfl⟩
    have hhead : ∀ c ∈ ('/' :: tail).head?, (c != '/') = false := by
      rintro _ ⟨⟩
      rfl
    have htake := takeWhile_append_of_head (hslash howner.plain) hhead
    have hdrop := dropWhile_append_of_head (hslash howner.plain) hhead
    rw [ownerAndName?, hdrop, htake]
    simp [howner.ne, htail, hplain]

/-! ## Reading an address -/

/-- The owner and the name that a text gives, be they fit for folders or not. -/
def named? (cs : List Char) : Option (String × String) :=
  (webPart? cs <|> dropStart? sshStart.toList cs) >>= ownerAndName?

theorem ofGithubUrl?_eq (url : String) :
    ofGithubUrl? url = (named? (trim url).toList).bind fun (o, n) =>
      if isValidPart o && isValidPart n then some (o, n) else none := by
  rw [named?, trim, String.toList_ofList, ofGithubUrl?]
  simp only [bind, Option.bind_assoc]
  rfl

theorem ofGithubUrl?_eq_some_iff {url : String} : ofGithubUrl? url = some (owner, name) ↔
    named? (trim url).toList = some (owner, name) ∧ isValidPart owner = true ∧
      isValidPart name = true := by
  rw [ofGithubUrl?_eq, Option.bind_eq_some_iff]
  constructor
  · rintro ⟨⟨o, n⟩, hread, h⟩
    obtain ⟨hvalid, rfl, rfl⟩ : (isValidPart o && isValidPart n) = true ∧ o = owner ∧ n = name := by
      simpa using h
    exact ⟨hread, by simpa using hvalid⟩
  · rintro ⟨hread, howner, hname⟩
    exact ⟨_, hread, by simp [howner, hname]⟩

theorem named?_web (hstart : start ∈ webStarts) (rest : List Char) :
    named? (start.toList ++ rest) = ownerAndName? (dropClosingSlash rest) := by
  have hpart : webPart? (start.toList ++ rest) = some (dropClosingSlash rest) :=
    webPart?_eq_some_iff.mpr ⟨start, hstart, rest, rfl, rfl⟩
  rw [named?, hpart]
  rfl

theorem named?_ssh (rest : List Char) :
    named? (sshStart.toList ++ rest) = ownerAndName? rest := by
  have hpart : dropStart? sshStart.toList (sshStart.toList ++ rest) = some rest :=
    dropStart?_eq_some_iff.mpr rfl
  have hweb : webPart? (sshStart.toList ++ rest) = none := rfl
  rw [named?, hpart, hweb]
  rfl

theorem named?_cases (h : named? cs = some (owner, name)) :
    (∃ start ∈ webStarts, ∃ rest, cs = start.toList ++ rest ∧
      ownerAndName? (dropClosingSlash rest) = some (owner, name)) ∨
    ∃ rest, cs = sshStart.toList ++ rest ∧ ownerAndName? rest = some (owner, name) := by
  rw [named?] at h
  cases hweb : webPart? cs with
  | some part =>
      rw [hweb] at h
      obtain ⟨start, hstart, rest, hcs, rfl⟩ := webPart?_eq_some_iff.mp hweb
      exact .inl ⟨start, hstart, rest, hcs, h⟩
  | none =>
      rw [hweb] at h
      obtain ⟨rest, hrest, h⟩ := Option.bind_eq_some_iff.mp h
      exact .inr ⟨rest, dropStart?_eq_some_iff.mp hrest, h⟩

/-- The pair that is read stands in the text, behind a start and before an ending without the
closing slash. -/
theorem spells_of_ownerAndName? (h : ownerAndName? part = some (owner, name)) :
    IsPart owner ∧ IsPart name ∧ ∃ git ∈ sshEndings,
      part = (owner ++ "/" ++ name ++ git).toList := by
  obtain ⟨tail, rfl, howner, htail, hplain, rfl⟩ := ownerAndName?_eq_some_iff.mp h
  rcases dropGitEnd_cases tail with hcut | ⟨hne, hcut⟩
  · rw [← hcut]
    exact ⟨howner, ⟨by simpa using htail, by simpa using hplain⟩, "", by simp [sshEndings], by simp⟩
  · refine ⟨howner, ⟨by simpa using hne, fun hmem => hplain ?_⟩, ".git", by simp [sshEndings], ?_⟩
    · rw [hcut]
      exact List.mem_append_left _ (by simpa using hmem)
    · conv_lhs => rw [hcut]
      simp

theorem spells_of_named? (h : named? text.toList = some (owner, name)) :
    Spells owner name text := by
  rcases named?_cases h with ⟨start, hstart, rest, hcs, h⟩ | ⟨rest, hcs, h⟩
  · obtain ⟨howner, hname, git, hgit, hpart⟩ := spells_of_ownerAndName? h
    rcases dropClosingSlash_cases rest with hrest | hrest
    · refine ⟨howner, hname, start, git, .inl ⟨hstart, ?_⟩, ?_⟩
      · exact List.mem_of_mem_take (i := 2) hgit
      · rw [← String.toList_inj, hcs, hrest, hpart]
        simp
    · refine ⟨howner, hname, start, git ++ "/", .inl ⟨hstart, ?_⟩, ?_⟩
      · exact List.mem_of_mem_drop (i := 2) (List.mem_map_of_mem (f := (· ++ "/")) hgit)
      · rw [← String.toList_inj, hcs, hrest, hpart]
        simp
  · obtain ⟨howner, hname, git, hgit, hpart⟩ := spells_of_ownerAndName? h
    refine ⟨howner, hname, sshStart, git, .inr ⟨rfl, hgit⟩, ?_⟩
    rw [← String.toList_inj, hcs, hpart]
    simp

/-- The name that is read of a text is the one it was made with, or that without its `.git`. -/
theorem exists_ownerAndName? (howner : IsPart owner) (hname : IsPart name) {git : String}
    (hgit : git ∈ sshEndings) :
    ∃ n, ownerAndName? (owner ++ "/" ++ name ++ git).toList = some (owner, n) ∧
      (n = name ∨ n ≠ "" ∧ name = n ++ ".git") := by
  have hne : name.toList ≠ [] := fun he => hname.ne (String.toList_eq_nil_iff.mp he)
  have hread : ownerAndName? (owner ++ "/" ++ name ++ git).toList =
      some (owner, String.ofList (dropGitEnd (name.toList ++ git.toList))) := by
    rw [ownerAndName?_eq_some_iff]
    refine ⟨name.toList ++ git.toList, by simp, howner, by simp [hname.ne], ?_, rfl⟩
    rw [List.mem_append, not_or]
    refine ⟨hname.plain, ?_⟩
    simp only [sshEndings, List.mem_cons, List.not_mem_nil, or_false] at hgit
    rcases hgit with rfl | rfl <;> decide
  refine ⟨_, hread, ?_⟩
  simp only [sshEndings, List.mem_cons, List.not_mem_nil, or_false] at hgit
  rcases hgit with rfl | rfl
  · rcases dropGitEnd_cases name.toList with hcut | ⟨hcut, hback⟩
    · exact .inl (by simp [← hcut])
    · refine .inr ⟨by simpa using hcut, ?_⟩
      rw [← String.toList_inj]
      simpa using hback
  · exact .inl (by rw [dropGitEnd_append hne, String.ofList_toList])

/-- An ending on the web is one that has no slash, perhaps with one behind it. -/
theorem dropClosingSlash_ending (hname : IsPart name) (hending : ending ∈ webEndings)
    (front : String) : ∃ git ∈ sshEndings,
      dropClosingSlash (front ++ name ++ ending).toList = (front ++ name ++ git).toList := by
  have hne : name.toList ≠ [] := fun he => hname.ne (String.toList_eq_nil_iff.mp he)
  have hplain := dropClosingSlash_of_plain hne hname.plain front.toList
  have hgit : dropClosingSlash ((front ++ name).toList ++ ".git".toList) = _ :=
    dropClosingSlash_of_plain (by decide) (by decide) _
  simp only [webEndings, List.mem_cons, List.not_mem_nil, or_false] at hending
  rcases hending with rfl | rfl | rfl | rfl
  · exact ⟨"", by simp [sshEndings], by simpa using hplain⟩
  · exact ⟨".git", by simp [sshEndings], by simpa using hgit⟩
  · exact ⟨"", by simp [sshEndings], by
      simpa using dropClosingSlash_append_slash (front ++ name).toList⟩
  · exact ⟨".git", by simp [sshEndings], by
      simpa using dropClosingSlash_append_slash (front ++ name ++ ".git").toList⟩

/-- Every text that is an address in some form is read, as the shortest name there is in it. -/
theorem exists_named? (h : Spells owner name text) :
    ∃ n, named? text.toList = some (owner, n) ∧ (n = name ∨ n ≠ "" ∧ name = n ++ ".git") := by
  obtain ⟨howner, hname, start, ending, hform, rfl⟩ := h
  rcases hform with ⟨hstart, hending⟩ | ⟨rfl, hending⟩
  · obtain ⟨git, hgit, hslash⟩ := dropClosingSlash_ending hname hending (owner ++ "/")
    obtain ⟨n, hread, hn⟩ := exists_ownerAndName? howner hname hgit
    refine ⟨n, ?_, hn⟩
    rw [show (start ++ owner ++ "/" ++ name ++ ending).toList =
      start.toList ++ (owner ++ "/" ++ name ++ ending).toList by simp, named?_web hstart, hslash,
      hread]
  · obtain ⟨n, hread, hn⟩ := exists_ownerAndName? howner hname hending
    refine ⟨n, ?_, hn⟩
    rw [show (sshStart ++ owner ++ "/" ++ name ++ ending).toList =
      sshStart.toList ++ (owner ++ "/" ++ name ++ ending).toList by simp, named?_ssh, hread]

/-- Of the names that an address can be taken to give, the shortest is read. -/
theorem named?_eq_some_iff :
    named? text.toList = some (owner, name) ↔ Names owner name text := by
  constructor
  · intro h
    refine ⟨spells_of_named? h, fun o n hspells => ?_⟩
    obtain ⟨n', hread, hn⟩ := exists_named? hspells
    obtain ⟨-, rfl⟩ : owner = o ∧ name = n' := by simpa using h.symm.trans hread
    rcases hn with rfl | ⟨-, rfl⟩
    · exact Nat.le_refl _
    · rw [String.length_append]
      exact Nat.le_add_right _ _
  · rintro ⟨hspells, hshortest⟩
    obtain ⟨n, hread, hn⟩ := exists_named? hspells
    rcases hn with rfl | ⟨-, hn⟩
    · exact hread
    · have hle := hshortest _ _ (spells_of_named? hread)
      rw [hn, String.length_append] at hle
      exact absurd hle (Nat.not_le.mpr (Nat.lt_add_of_pos_right (by decide)))

/-- What is read from a text, against the forms of an address. -/
structure ReadsUrl (url : String) : Prop where
  reads : ∀ owner name, ofGithubUrl? url = some (owner, name) ↔
    Names owner name (trim url) ∧ isValidPart owner = true ∧ isValidPart name = true
  /-- Two addresses of one repository are read alike. -/
  alike : ∀ owner name other, Names owner name (trim url) → Names owner name (trim other) →
    ofGithubUrl? url = ofGithubUrl? other
  /-- Whatever is put around an owner and a name, it is an address of these, unless the name may
  lose its end. -/
  spelled : ∀ owner name, ofGithubUrl? url = some (owner, name) →
    ((∀ other, Spells owner name (trim other) → ofGithubUrl? other = some (owner, name)) ↔
      ¬ EndsWithGit name)
  located : ∀ owner name reposDir, ofGithubUrl? url = some (owner, name) →
    localPath reposDir owner name = .ok (Location.join (Location.join reposDir owner) name)

/-- A name that ends with `.git` loses this end where nothing stands behind it. -/
theorem exists_misread (howner : IsPart owner) (hname : IsPart name) (hgit : EndsWithGit name) :
    ∃ other, Spells owner name (trim other) ∧ ofGithubUrl? other ≠ some (owner, name) := by
  obtain ⟨front, hfront, rfl⟩ := hgit
  have htrim : trim ("https://github.com/" ++ owner ++ "/" ++ (front ++ ".git") ++ "/") =
      "https://github.com/" ++ owner ++ "/" ++ (front ++ ".git") ++ "/" := by
    have hlast (s : String) : (s ++ "/").toList.getLast? = some '/' := by simp
    rw [trim_eq_self_iff, startsBlank, endsBlank, hlast]
    simp [isBlank]
  have hplain : '/' ∉ front.toList := fun hmem => hname.plain (by simp [hmem])
  refine ⟨_, ⟨howner, hname, _, _, .inl ⟨?_, ?_⟩, htrim⟩, fun hread => ?_⟩
  · simp [webStarts]
  · simp [webEndings]
  rw [ofGithubUrl?_eq_some_iff, htrim, named?_eq_some_iff] at hread
  have hshorter := hread.1.shortest owner front
    ⟨howner, ⟨hfront, hplain⟩, "https://github.com/", ".git/", .inl ⟨by simp [webStarts], by
      simp [webEndings]⟩, by simp [← String.toList_inj]⟩
  rw [String.length_append] at hshorter
  exact absurd hshorter (Nat.not_le.mpr (Nat.lt_add_of_pos_right (by decide)))

/-- Exactly the addresses of the forms are read, and each as the shortest name in it. -/
theorem readsUrl (url : String) : ReadsUrl url where
  reads owner name := by rw [ofGithubUrl?_eq_some_iff, named?_eq_some_iff]
  alike owner name other hurl hother := by
    rw [ofGithubUrl?_eq, ofGithubUrl?_eq, named?_eq_some_iff.mpr hurl,
      named?_eq_some_iff.mpr hother]
  spelled owner name h := by
    rw [ofGithubUrl?_eq_some_iff, named?_eq_some_iff] at h
    obtain ⟨⟨hspells, -⟩, hvalid⟩ := h
    constructor
    · intro hall hgit
      obtain ⟨other, hother, hmisread⟩ := exists_misread hspells.ownerPart hspells.namePart hgit
      exact hmisread (hall other hother)
    · intro hbare other hother
      obtain ⟨n, hread, hn⟩ := exists_named? hother
      rcases hn with rfl | hcut
      · exact ofGithubUrl?_eq_some_iff.mpr ⟨hread, hvalid⟩
      · exact absurd ⟨n, hcut⟩ hbare
  located owner name reposDir h := localPath_eq reposDir (isIdentity_of_ofGithubUrl? h)

/-- All addresses of `o/r` agree, and not all of `o/r.git`, though there are some. -/
theorem readsUrl_plain :
    (ofGithubUrl? "git@github.com:o/r.git" = some ("o", "r") ∧
      ∀ other, Spells "o" "r" (trim other) → ofGithubUrl? other = some ("o", "r")) ∧
    ofGithubUrl? "\thttps://www.github.com/o/r.git.git/ " = some ("o", "r.git") ∧
      ¬ ∀ other, Spells "o" "r.git" (trim other) → ofGithubUrl? other = some ("o", "r.git") := by
  have hplain : ofGithubUrl? "git@github.com:o/r.git" = some ("o", "r") := by cbv
  have htwice : ofGithubUrl? "\thttps://www.github.com/o/r.git.git/ " = some ("o", "r.git") := by
    cbv
  refine ⟨⟨hplain, ((readsUrl _).spelled _ _ hplain).mpr ?_⟩, htwice, fun hall => ?_⟩
  · rintro ⟨front, -, h⟩
    have hlength : 1 = front.length + 4 := by
      rw [show 1 = "r".length by decide, h, String.length_append]
      rfl
    omega
  · exact ((readsUrl _).spelled _ _ htwice).mp hall ⟨"r", by decide, by decide⟩

end ImportAtlas.Identity
