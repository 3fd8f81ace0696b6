import ImportAtlas.Scope
import ImportAtlas.Proofs.Path
import ImportAtlas.Proofs.Text.Blank

/-!
# Written forms of scopes

The written form of a scope names the folders it leads through, each by a plain segment. It is its
own written form exactly if it has no blanks at its ends: those of a first or last folder's name are
taken for the user's. The slash that it is shown with keeps those at the start, not those at the
end.
-/

namespace ImportAtlas.Scope

open Text Host

variable {scope folder : String} {segs : List String}

/-- The folders that a scope leads through, none for the whole repository, if it is not refused. -/
def folders? (scope : String) : Option (List String) :=
  if (clean scope).contains ':' || (plainSegments (clean scope)).contains ".." then none
  else some (plainSegments (clean scope))

theorem normalize_of_none (h : folders? scope = none) : normalize scope = .error () := by
  rw [folders?] at h
  split at h
  next hbad => rw [normalize, if_pos hbad]
  next => cases h

theorem eq_of_folders? (h : folders? scope = some segs) : plainSegments (clean scope) = segs := by
  rw [folders?] at h
  split at h
  · cases h
  · exact Option.some.inj h

theorem normalize_of_some (h : folders? scope = some segs) :
    normalize scope = .ok (if segs = [] then none else some (joinFields '/' segs)) := by
  rw [folders?] at h
  split at h
  next => cases h
  next hgood =>
    have hsegs := Option.some.inj h
    subst hsegs
    rw [normalize, if_neg hgood]
    simp only [List.isEmpty_iff]
    split <;> rfl

/-- What the folders of a scope look like. -/
structure IsWritten (segs : List String) : Prop where
  ne_nil : segs ≠ []
  segments : ∀ s ∈ segs, IsSegment s
  no_backslash : ∀ s ∈ segs, '\\' ∉ s.toList
  no_colon : ∀ s ∈ segs, ':' ∉ s.toList

theorem isWritten_of_folders? (h : folders? scope = some segs) (hne : segs ≠ []) :
    IsWritten segs := by
  rw [folders?] at h
  split at h
  next => cases h
  next hgood =>
    have hsegs := Option.some.inj h
    subst hsegs
    simp only [Bool.or_eq_true, not_or, String.contains_char_eq, decide_eq_true_eq,
      List.contains_iff_mem] at hgood
    have hfield {s : String} (hs : s ∈ plainSegments (clean scope)) :
        s ∈ fields Path.isSlash (clean scope) := (List.mem_filter.mp hs).1
    have hchar {s : String} (hs : s ∈ plainSegments (clean scope)) :
        ∀ c ∈ s.toList, c ∈ (clean scope).toList := by
      obtain ⟨f, hf, rfl⟩ := List.mem_map.mp (hfield hs)
      simpa using mem_of_mem_splitBy hf
    have hclean : '\\' ∉ (clean scope).toList := by
      intro hc
      have hslashed := (List.dropWhile_sublist Path.isSlash).mem (by simpa [clean] using hc)
      simp only [Path.slashed, replaceChar, String.toList_ofList, List.mem_map] at hslashed
      obtain ⟨d, _, hd⟩ := hslashed
      split at hd
      · cases hd
      · simp_all
    refine ⟨hne, fun s hs => ?_, fun s hs hc => hclean (hchar hs _ hc),
      fun s hs hc => hgood.1 (hchar hs _ hc)⟩
    have hplain := (List.mem_filter.mp hs).2
    simp only [Bool.not_eq_true', Bool.or_eq_false_iff, beq_eq_false_iff_ne] at hplain
    refine ⟨hplain.1, hplain.2, fun he => hgood.2 (he ▸ hs), fun hc => ?_⟩
    have hslash := plain_of_mem_fields (hfield hs) '/' hc
    cases hslash

theorem folders?_of_normalize {folder : String} (h : normalize scope = .ok (some folder)) :
    ∃ segs, folders? scope = some segs ∧ IsWritten segs ∧ folder = joinFields '/' segs := by
  cases hf : folders? scope with
  | none =>
      rw [normalize_of_none hf] at h
      cases h
  | some segs =>
      rw [normalize_of_some hf] at h
      split at h
      · cases h
      next hne =>
        exact ⟨segs, rfl, isWritten_of_folders? hf hne, (Option.some.inj (Except.ok.inj h)).symm⟩

theorem IsWritten.segments_joinFields (hw : IsWritten segs) :
    Path.segments (joinFields '/' segs) = segs := Path.segments_joinFields hw.ne_nil hw.segments

theorem IsWritten.no_backslash_joinFields (hw : IsWritten segs) :
    '\\' ∉ (joinFields '/' segs).toList := by
  rw [mem_joinFields (by decide)]
  exact fun ⟨s, hs, hc⟩ => hw.no_backslash s hs hc

theorem clean_eq (h : '\\' ∉ scope.toList) :
    clean scope = String.ofList ((trim scope).toList.dropWhile Path.isSlash) := by
  have htrim : '\\' ∉ (trim scope).toList := by
    rw [trim, String.toList_ofList]
    exact fun hc => h ((stripEnds_sublist isBlank _).mem hc)
  rw [clean, Path.slashed_eq_self htrim]

theorem IsWritten.dropWhile_isSlash (hw : IsWritten segs) :
    (joinFields '/' segs).toList.dropWhile Path.isSlash = (joinFields '/' segs).toList := by
  have habs := Location.isAbsolute_joinFields hw.ne_nil hw.segments
  rw [Location.isAbsolute, beq_eq_false_iff_ne] at habs
  rw [dropWhile_eq_self_iff, Option.any_eq_false]
  intro c hc
  exact beq_eq_false_iff_ne.mpr fun he => habs (he ▸ hc)

theorem clean_joinFields (hw : IsWritten segs)
    (htrim : trim (joinFields '/' segs) = joinFields '/' segs) :
    clean (joinFields '/' segs) = joinFields '/' segs := by
  rw [clean_eq hw.no_backslash_joinFields, htrim, hw.dropWhile_isSlash, String.ofList_toList]

theorem folders?_of_clean (hw : IsWritten segs) (hclean : clean scope = joinFields '/' segs) :
    folders? scope = some segs := by
  have hplain : plainSegments (joinFields '/' segs) = segs := by
    have hfields : fields Path.isSlash (joinFields '/' segs) = segs :=
      Location.fields_joinFields_segments hw.ne_nil hw.segments
    rw [plainSegments, hfields, List.filter_eq_self]
    intro s hs
    simp [(hw.segments s hs).ne_empty, (hw.segments s hs).ne_current]
  have hcolon : (joinFields '/' segs).contains ':' = false := by
    rw [String.contains_char_eq, decide_eq_false_iff_not, mem_joinFields (by decide)]
    exact fun ⟨s, hs, hc⟩ => hw.no_colon s hs hc
  have hparent : segs.contains ".." = false := by
    rw [Bool.eq_false_iff, ne_eq, List.contains_iff_mem]
    exact fun hs => (hw.segments _ hs).ne_parent rfl
  rw [folders?, hclean, hplain, hcolon, hparent]
  rfl

theorem folders?_joinFields (hw : IsWritten segs)
    (htrim : trim (joinFields '/' segs) = joinFields '/' segs) :
    folders? (joinFields '/' segs) = some segs :=
  folders?_of_clean hw (clean_joinFields hw htrim)

theorem length_le_of_normalize (h : normalize scope = .ok (some folder)) :
    folder.toList.length ≤ (clean scope).toList.length := by
  obtain ⟨segs, hsegs, _, rfl⟩ := folders?_of_normalize h
  rw [← eq_of_folders? hsegs]
  calc
    (joinFields '/' (plainSegments (clean scope))).toList.length
        ≤ (joinFields '/' (fields Path.isSlash (clean scope))).toList.length := by
      rw [joinFields, joinFields, String.toList_ofList, String.toList_ofList]
      exact length_joinBy_le '/' (List.filter_sublist.map _)
    _ = (clean scope).toList.length := by
      rw [joinFields, fields, String.toList_ofList, List.map_map]
      simp only [Function.comp_def, String.toList_ofList, List.map_id']
      exact congrArg List.length (joinBy_splitBy '/' _)

/-- A scope that is nothing but a written form and what is cut off from it is written so exactly if
all of the written form is left. -/
theorem normalize_eq_joinFields_iff (hw : IsWritten segs)
    (hsub : (clean scope).toList.Sublist (joinFields '/' segs).toList) :
    normalize scope = .ok (some (joinFields '/' segs)) ↔ clean scope = joinFields '/' segs := by
  constructor
  · intro h
    exact String.toList_injective (hsub.eq_of_length_le (length_le_of_normalize h))
  · intro hclean
    rw [normalize_of_some (folders?_of_clean hw hclean), if_neg hw.ne_nil]

/-- The written form of a scope is its own written form exactly if it has no blanks at its ends. -/
theorem normalize_joinFields_iff (hw : IsWritten segs) :
    normalize (joinFields '/' segs) = .ok (some (joinFields '/' segs)) ↔
      trim (joinFields '/' segs) = joinFields '/' segs := by
  have hsub : (clean (joinFields '/' segs)).toList.Sublist (trim (joinFields '/' segs)).toList := by
    rw [clean_eq hw.no_backslash_joinFields, String.toList_ofList]
    exact List.dropWhile_sublist _
  have htrim : (trim (joinFields '/' segs)).toList.Sublist (joinFields '/' segs).toList := by
    rw [trim, String.toList_ofList]
    exact stripEnds_sublist isBlank _
  rw [normalize_eq_joinFields_iff hw (hsub.trans htrim)]
  constructor
  · intro h
    rw [h] at hsub
    exact String.toList_injective (htrim.eq_of_length_le hsub.length_le)
  · exact clean_joinFields hw

/-! ## Shown with a slash -/

theorem toList_clean_slash (h : '\\' ∉ folder.toList) :
    (clean ("/" ++ folder)).toList =
      (folder.toList.rdropWhile isBlank).dropWhile Path.isSlash := by
  have hslash : '\\' ∉ ("/" ++ folder).toList := by simpa using h
  have hstrip : stripEnds isBlank ("/" ++ folder).toList =
      '/' :: folder.toList.rdropWhile isBlank := by
    rw [String.toList_append]
    exact stripEnds_cons_of_neg (by decide) folder.toList
  rw [clean_eq hslash, trim, hstrip, String.toList_ofList, String.toList_ofList]
  exact List.dropWhile_cons_of_pos (by decide)

theorem normalize_slash_joinFields_iff (hw : IsWritten segs) :
    normalize ("/" ++ joinFields '/' segs) = .ok (some (joinFields '/' segs)) ↔
      endsBlank (joinFields '/' segs) = false := by
  have hclean := toList_clean_slash hw.no_backslash_joinFields
  have hback := (List.rdropWhile_prefix isBlank (joinFields '/' segs).toList).sublist
  have hfront : (clean ("/" ++ joinFields '/' segs)).toList.Sublist
      ((joinFields '/' segs).toList.rdropWhile isBlank) := by
    rw [hclean]
    exact List.dropWhile_sublist _
  rw [normalize_eq_joinFields_iff hw (hfront.trans hback), endsBlank, ← rdropWhile_eq_self_iff]
  constructor
  · intro h
    rw [h] at hfront
    exact hback.eq_of_length_le hfront.length_le
  · intro h
    apply String.toList_injective
    rw [hclean, h, hw.dropWhile_isSlash]

/-- What becomes of the written form of a scope that is given as a scope itself, bare or as it is
shown. -/
structure Restates (folder : String) : Prop where
  bare_iff : normalize folder = .ok (some folder) ↔
    startsBlank folder = false ∧ endsBlank folder = false
  shown_iff : normalize ("/" ++ folder) = .ok (some folder) ↔ endsBlank folder = false

theorem restates_of_normalize (h : normalize scope = .ok (some folder)) : Restates folder := by
  obtain ⟨segs, -, hw, rfl⟩ := folders?_of_normalize h
  exact
    { bare_iff := (normalize_joinFields_iff hw).trans trim_eq_self_iff
      shown_iff := normalize_slash_joinFields_iff hw }

/-! ### Folders whose names have blanks at their ends -/

theorem normalize_leading : normalize "/ a" = .ok (some " a") := by
  rw [normalize, String.contains_char_eq]
  decide

theorem normalize_trailing : normalize "a /" = .ok (some "a ") := by
  rw [normalize, String.contains_char_eq]
  decide

theorem normalize_inner : normalize " .\\a / b/ " = .ok (some "a / b") := by
  rw [normalize, String.contains_char_eq]
  decide

/-- Blanks at the start are lost without the slash, blanks at the end in any case, others never. -/
theorem restates_blank :
    (normalize "/ a" = .ok (some " a") ∧ normalize " a" ≠ .ok (some " a")) ∧
      (normalize "a /" = .ok (some "a ") ∧ normalize "a " ≠ .ok (some "a ") ∧
        normalize "/a " ≠ .ok (some "a ")) ∧
      normalize " .\\a / b/ " = .ok (some "a / b") ∧
      normalize "a / b" = .ok (some "a / b") ∧ normalize "/a / b" = .ok (some "a / b") := by
  have hleading := restates_of_normalize normalize_leading
  have htrailing := restates_of_normalize normalize_trailing
  have hinner := restates_of_normalize normalize_inner
  refine ⟨⟨normalize_leading, ?_⟩, ⟨normalize_trailing, ?_, ?_⟩, normalize_inner, ?_, ?_⟩
  · exact hleading.bare_iff.not.mpr (by decide)
  · exact htrailing.bare_iff.not.mpr (by decide)
  · exact htrailing.shown_iff.not.mpr (by decide)
  · exact hinner.bare_iff.mpr (by decide)
  · exact hinner.shown_iff.mpr (by decide)

end ImportAtlas.Scope
