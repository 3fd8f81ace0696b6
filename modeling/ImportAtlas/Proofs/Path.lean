import ImportAtlas.Path
import ImportAtlas.Proofs.Host.Location

/-!
# Paths below a folder

A path lies in a folder if it starts with the folder's path and a slash. For paths put together from
names this is the same as starting with the folder's names and going on. The folder of a path stands
before its last slash, and an extension behind its last dot.
-/

namespace ImportAtlas.Path

open Text Host

variable {folder path dir : String} {segs names : List String}

def liesIn (folder path : String) : Bool := (folder.toList ++ ['/']).isPrefixOf path.toList

theorem liesIn_iff : liesIn folder path = true ↔ ∃ below, path = folder ++ "/" ++ below := by
  rw [liesIn, List.isPrefixOf_iff_prefix]
  constructor
  · rintro ⟨below, h⟩
    exact ⟨String.ofList below, String.toList_injective (by simp [← h])⟩
  · rintro ⟨below, rfl⟩
    exact ⟨below.toList, by simp⟩

theorem slashed_append (path more : String) :
    slashed (path ++ more) = slashed path ++ slashed more := by
  apply String.toList_injective
  simp [slashed, replaceChar]

theorem slashed_eq_self (h : '\\' ∉ path.toList) : slashed path = path := by
  apply String.toList_injective
  rw [slashed, replaceChar, String.toList_ofList]
  conv_rhs => rw [← List.map_id path.toList]
  refine List.map_congr_left fun c hc => ?_
  rw [if_neg (by simpa using fun he : c = '\\' => h (he ▸ hc)), id]

theorem liesIn_slashed (hfolder : '\\' ∉ folder.toList) (h : liesIn folder path = true) :
    liesIn folder (slashed path) = true := by
  obtain ⟨below, rfl⟩ := liesIn_iff.mp h
  refine liesIn_iff.mpr ⟨slashed below, ?_⟩
  rw [slashed_append, slashed_append, slashed_eq_self hfolder, slashed_eq_self (by decide)]

theorem segments_joinFields (hne : names ≠ []) (hnames : ∀ n ∈ names, IsSegment n) :
    segments (joinFields '/' names) = names := by
  have hfields : fields isSlash (joinFields '/' names) = names :=
    Location.fields_joinFields_segments hne hnames
  have hpath : joinFields '/' names ≠ "" := by
    intro hempty
    rw [hempty] at hfields
    have hname : "" ∈ names := hfields ▸ by decide
    exact (hnames "" hname).ne_empty rfl
  rw [segments, if_neg (by simpa using hpath), hfields]

theorem joinFields_fields (path : String) : joinFields '/' (fields isSlash path) = path := by
  rw [joinFields, fields, List.map_map]
  simp only [Function.comp_def, String.toList_ofList, List.map_id']
  rw [show isSlash = (· == '/') from rfl, joinBy_splitBy, String.ofList_toList]

theorem joinFields_segments (path : String) : joinFields '/' (segments path) = path := by
  by_cases hpath : path = ""
  · simp [hpath, segments, joinFields]
  · rw [segments, if_neg (by simpa using hpath), joinFields_fields]

theorem joinFields_concat_append (init : List String) (last more : String) :
    joinFields '/' (init ++ [last]) ++ more = joinFields '/' (init ++ [last ++ more]) := by
  cases init with
  | nil => simp [joinFields]
  | cons s rest =>
      rw [joinFields_append '/' (List.cons_ne_nil s rest) (List.cons_ne_nil last []),
        joinFields_append '/' (List.cons_ne_nil s rest) (List.cons_ne_nil (last ++ more) []),
        String.append_assoc]
      simp [joinFields]

theorem joinFields_concat (hne : names ≠ []) (name : String) :
    joinFields '/' names ++ ("/" ++ name) = joinFields '/' (names ++ [name]) := by
  rw [joinFields_append '/' hne (List.cons_ne_nil name []), String.append_assoc]
  simp [joinFields]

theorem liesIn_joinFields (hsegs : segs ≠ []) (hs : ∀ s ∈ segs, IsSegment s) (hnames : names ≠ [])
    (hn : ∀ n ∈ names, IsSegment n) :
    liesIn (joinFields '/' segs) (joinFields '/' names) = true ↔
      ∃ below, below ≠ [] ∧ names = segs ++ below := by
  rw [liesIn_iff]
  constructor
  · rintro ⟨below, h⟩
    refine ⟨fields Location.isSlash below, fields_ne_nil _ _, ?_⟩
    have hfields := congrArg (fields Location.isSlash) h
    rwa [Location.fields_joinFields_segments hnames hn, show "/" = String.singleton '/' from rfl,
      fields_append_sep _ Location.isSlash_slash,
      Location.fields_joinFields_segments hsegs hs] at hfields
  · rintro ⟨below, hbelow, rfl⟩
    exact ⟨joinFields '/' below, joinFields_append '/' hsegs hbelow⟩

theorem liesIn_joinFields_append {below : List String} (hsegs : segs ≠ []) (hbelow : below ≠ []) :
    liesIn (joinFields '/' segs) (joinFields '/' (segs ++ below)) = true :=
  liesIn_iff.mpr ⟨joinFields '/' below, joinFields_append '/' hsegs hbelow⟩

/-! ## The folder of a path -/

theorem isSlash_eq_false (hslash : '/' ∉ path.toList) : ∀ c ∈ path.toList, isSlash c = false :=
  fun _ hc => beq_eq_false_iff_ne.mpr fun he => hslash (he ▸ hc)

theorem toList_append_name (dir name : String) :
    (dir ++ "/" ++ name).toList = dir.toList ++ '/' :: name.toList := by simp

theorem directory?_append_name {name : String} (hname : '/' ∉ name.toList) :
    directory? (dir ++ "/" ++ name) = some dir := by
  rw [directory?, toList_append_name,
    beforeLast?_append_sep dir.toList (by decide) (isSlash_eq_false hname), Option.map_some,
    String.ofList_toList]

theorem directory?_of_no_slash (hslash : '/' ∉ path.toList) : directory? path = none := by
  rw [directory?, beforeLast?_of_plain (isSlash_eq_false hslash), Option.map_none]

theorem exists_append_name (hslash : '/' ∈ path.toList) :
    ∃ dir name, path = dir ++ "/" ++ name ∧ '/' ∉ name.toList := by
  obtain ⟨front, c, hc, hpath⟩ := exists_sep_afterLast (p := isSlash) (by decide) hslash
  refine ⟨String.ofList front, lastSegment path, String.toList_injective ?_, fun hmem => ?_⟩
  · rw [toList_append_name, String.toList_ofList, lastSegment, String.toList_ofList,
      ← eq_of_beq hc]
    exact hpath
  · rw [lastSegment, String.toList_ofList] at hmem
    exact absurd (plain_of_mem_afterLast (p := isSlash) '/' hmem) (by decide)

theorem directory?_eq_some_iff :
    directory? path = some dir ↔ ∃ name, path = dir ++ "/" ++ name ∧ '/' ∉ name.toList := by
  constructor
  · intro h
    by_cases hslash : '/' ∈ path.toList
    · obtain ⟨front, name, rfl, hname⟩ := exists_append_name hslash
      rw [directory?_append_name hname, Option.some.injEq] at h
      exact ⟨name, by rw [h], hname⟩
    · rw [directory?_of_no_slash hslash] at h
      cases h
  · rintro ⟨name, rfl, hname⟩
    exact directory?_append_name hname

theorem directory?_eq_none_iff : directory? path = none ↔ '/' ∉ path.toList := by
  constructor
  · intro h hslash
    obtain ⟨front, name, rfl, hname⟩ := exists_append_name hslash
    rw [directory?_append_name hname] at h
    cases h
  · exact directory?_of_no_slash

theorem directory?_ne_none (h : liesIn folder path = true) :
    directory? path ≠ none := by
  obtain ⟨below, rfl⟩ := liesIn_iff.mp h
  rw [ne_eq, directory?_eq_none_iff, not_not, toList_append_name]
  exact List.mem_append_right _ List.mem_cons_self

/-- The last segment is the last of the pieces between slashes. -/
theorem getLast?_fields (path : String) :
    (fields isSlash path).getLast? = some (lastSegment path) := by
  by_cases hslash : '/' ∈ path.toList
  · obtain ⟨front, name, rfl, hname⟩ := exists_append_name hslash
    have hplain := isSlash_eq_false hname
    rw [lastSegment, toList_append_name, afterLast_append_sep _ (by decide) hplain,
      String.ofList_toList, show "/" = String.singleton '/' from rfl,
      fields_append_sep _ (by decide), fields_of_plain hplain, List.getLast?_concat]
  · have hplain := isSlash_eq_false hslash
    have hlast := afterLast_append_plain [] hplain
    rw [List.nil_append] at hlast
    rw [fields_of_plain hplain, lastSegment, hlast, show afterLast isSlash [] = [] from rfl,
      List.nil_append, String.ofList_toList, List.getLast?_singleton]

/-! ## Extensions -/

theorem extension?_append (stem : String) {ext : String}
    (hext : ∀ c ∈ ext.toList, isSeparator c = false ∧ c ≠ '.') :
    extension? (stem ++ "." ++ ext) = some ext := by
  have hname : (fileName (stem ++ "." ++ ext)).toList =
      afterLast isSeparator stem.toList ++ '.' :: ext.toList := by
    have hplain : ∀ c ∈ '.' :: ext.toList, isSeparator c = false :=
      List.forall_mem_cons.mpr ⟨by decide, fun c hc => (hext c hc).1⟩
    rw [fileName, String.toList_ofList, String.toList_append, String.toList_append,
      List.append_assoc]
    exact afterLast_append_plain _ hplain
  have hdot : ∀ c ∈ ext.toList, (c == '.') = false :=
    fun c hc => beq_eq_false_iff_ne.mpr (hext c hc).2
  have hlast := afterLast_append_sep (p := (· == '.')) (afterLast isSeparator stem.toList)
    (c := '.') (by decide) hdot
  simp only [extension?, hname, hlast]
  simp

theorem eq_of_extension? {path ext : String} (h : extension? path = some ext) :
    ∃ stem, path = stem ++ "." ++ ext := by
  simp only [extension?] at h
  split at h
  next hdot =>
    rw [List.contains_iff_mem] at hdot
    obtain ⟨front, d, hd, hname⟩ := exists_sep_afterLast (p := (· == '.')) (by decide) hdot
    obtain ⟨above, habove⟩ := exists_append_afterLast isSeparator path.toList
    have hlast : afterLast (· == '.') (fileName path).toList = ext.toList := by
      rw [← Option.some.inj h, String.toList_ofList]
    rw [hlast, eq_of_beq hd, fileName, String.toList_ofList] at hname
    refine ⟨String.ofList (above ++ front), String.toList_injective ?_⟩
    rw [habove, hname]
    simp
  next => cases h

end ImportAtlas.Path
