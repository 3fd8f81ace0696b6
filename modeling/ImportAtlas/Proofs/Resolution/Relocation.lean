import ImportAtlas.Proofs.Resolution.Base

/-!
# Moving a set of files into a folder

If all files are moved into a folder, an import of a moved file names what it named before, moved as
well. The folder is only a start of the path: `..` segments that stay inside the old root do not
reach it, and candidates and written forms go on behind it as they were.
-/

namespace ImportAtlas

open Text Host

variable {files : List String} {folder path : String}

namespace Path

/-- The path of a file once its root is moved into a folder. -/
def under (folder path : String) : String := folder ++ "/" ++ path

theorem under_injective (folder : String) : Function.Injective (under folder) := by
  intro path other h
  have hchars := congrArg String.toList h
  rw [under, under, String.toList_append, String.toList_append (s := folder ++ "/")] at hchars
  exact String.toList_injective (List.append_cancel_left hchars)

theorem under_append (folder path more : String) :
    under folder path ++ more = under folder (path ++ more) := String.append_assoc

theorem under_joinFields (hfolder : IsCanonical folder) {names : List String} (hne : names ≠ []) :
    under folder (joinFields '/' names) = joinFields '/' (segments folder ++ names) := by
  have hjoin := joinFields_append '/' hfolder.ne_nil hne
  rw [joinFields_segments] at hjoin
  exact hjoin.symm

theorem slashed_under (hfolder : IsCanonical folder) (path : String) :
    slashed (under folder path) = under folder (slashed path) := by
  rw [under, slashed_append, slashed_append, hfolder.slashed, slashed_eq_self (by decide), under]

theorem fields_under (hfolder : IsCanonical folder) (path : String) :
    fields isSeparator (under folder path) = segments folder ++ fields isSeparator path := by
  rw [under, show "/" = String.singleton '/' from rfl, fields_append_sep _ (by decide),
    hfolder.fields]

end Path

theorem FileSet.get?_under (hfolder : Path.IsCanonical folder) (files : List String)
    (path : String) :
    (⟨files.map (Path.under folder)⟩ : FileSet).get? (Path.under folder path) =
      ((⟨files⟩ : FileSet).get? path).map (Path.under folder) := by
  have hsame : (fun f => Path.slashed (Path.under folder f) == Path.under folder path) =
      fun f => Path.slashed f == path := by
    funext f
    rw [Path.slashed_under hfolder, Bool.eq_iff_iff, beq_iff_eq, beq_iff_eq]
    exact (Path.under_injective folder).eq_iff
  rw [get?, List.find?_map, Function.comp_def, hsame, get?]

namespace Resolution

variable {order : SuffixOrder} {importer specifier : String}

theorem way_under (hfolder : Path.IsCanonical folder) (importer specifier : String) :
    way (Path.under folder importer) specifier =
      Path.segments folder ++ way importer specifier := by
  rw [way, Path.fields_under hfolder, List.dropLast_append_of_ne_nil (fields_ne_nil _ _),
    List.append_assoc, way]

/-- A way that stays in the old root never takes a segment of the folder away. -/
theorem base_under (hfolder : Path.IsCanonical folder) (hne : base importer specifier ≠ "")
    (hinside : Path.leavesRoot (base importer specifier) = false) :
    base (Path.under folder importer) specifier =
      Path.under folder (base importer specifier) := by
  rw [base_eq] at hne hinside
  have hstays : ".." ∉ Path.foldSegments (way importer specifier) :=
    Path.parent_notMem_foldSegments (fun _ hs => (no_separator_of_mem_way hs).1) hinside
  have hkept : Path.foldSegments (way importer specifier) ≠ [] := by
    intro hnil
    rw [hnil] at hne
    exact hne rfl
  rw [base_eq, base_eq, way_under hfolder, Path.foldSegments_append hfolder.plain hstays,
    Path.under_joinFields hfolder hkept]

theorem candidates_under (hfolder : Path.IsCanonical folder) (hne : base importer specifier ≠ "")
    (hinside : Path.leavesRoot (base importer specifier) = false) (order : SuffixOrder) :
    candidates order (Path.under folder importer) specifier =
      (candidates order importer specifier).map (Path.under folder) := by
  have hbase := base_under hfolder hne hinside
  have hmoved : base (Path.under folder importer) specifier ≠ "" := by
    rw [hbase, Path.under]
    simp
  rw [candidates_of_base hmoved, candidates_of_base hne, hbase, List.map_map]
  exact List.map_congr_left fun suffix _ => Path.under_append folder _ suffix

theorem resolve_under (hfolder : Path.IsCanonical folder) (hne : base importer specifier ≠ "")
    (hinside : Path.leavesRoot (base importer specifier) = false) (order : SuffixOrder)
    (files : List String) :
    resolve order ⟨files.map (Path.under folder)⟩ (Path.under folder importer) specifier =
      (resolve order ⟨files⟩ importer specifier).map (Path.under folder) := by
  rw [resolve, resolve]
  cases SpecifierKind.of specifier with
  | external => rfl
  | relative =>
      have hget : (⟨files.map (Path.under folder)⟩ : FileSet).get? ∘ Path.under folder =
          Option.map (Path.under folder) ∘ (⟨files⟩ : FileSet).get? :=
        funext (FileSet.get?_under hfolder files)
      simp only [candidates_under hfolder hne hinside, List.findSome?_map, List.map_findSome?, hget]

/-- Imports from a file are the same before and after all files are moved into a folder. -/
structure Relocates (order : SuffixOrder) (files : List String)
    (folder importer specifier : String) : Prop where
  some_iff : ∀ target,
    resolve order ⟨files.map (Path.under folder)⟩ (Path.under folder importer) specifier =
      some (Path.under folder target) ↔
    resolve order ⟨files⟩ importer specifier = some target
  none_iff :
    resolve order ⟨files.map (Path.under folder)⟩ (Path.under folder importer) specifier = none ↔
    resolve order ⟨files⟩ importer specifier = none

theorem relocates_of_isCanonical (hfolder : Path.IsCanonical folder)
    (hne : base importer specifier ≠ "")
    (hinside : Path.leavesRoot (base importer specifier) = false) (order : SuffixOrder)
    (files : List String) : Relocates order files folder importer specifier where
  some_iff target := by
    rw [resolve_under hfolder hne hinside, ← Option.map_some]
    exact (Option.map_injective (Path.under_injective folder)).eq_iff
  none_iff := by
    rw [resolve_under hfolder hne hinside]
    exact Option.map_eq_none_iff

/-! ### A repository that becomes part of another -/

def innerFiles : List String := ["lib/index.ts", "lib\\util.js", "main.js"]

def outerFiles : List String :=
  ["pkgs/app/lib/index.ts", "pkgs/app/lib\\util.js", "pkgs/app/main.js"]

theorem relocates_inner :
    resolve .javascriptFirst ⟨outerFiles⟩ "pkgs/app/main.js" "./lib" =
        some "pkgs/app/lib/index.ts" ∧
      resolve .typescriptFirst ⟨outerFiles⟩ "pkgs/app/lib/index.ts" "../lib/x/../util" =
        some "pkgs/app/lib\\util.js" ∧
      resolve .javascriptFirst ⟨outerFiles⟩ "pkgs/app/lib\\util.js" "../app" = none := by
  have hfolder : Path.IsCanonical "pkgs/app" := by decide
  have htop : Relocates .javascriptFirst innerFiles "pkgs/app" "main.js" "./lib" :=
    relocates_of_isCanonical hfolder (by decide) (by decide) .javascriptFirst innerFiles
  have hdeep : Relocates .typescriptFirst innerFiles "pkgs/app" "lib/index.ts" "../lib/x/../util" :=
    relocates_of_isCanonical hfolder (by decide) (by decide) .typescriptFirst innerFiles
  have hmiss : Relocates .javascriptFirst innerFiles "pkgs/app" "lib\\util.js" "../app" :=
    relocates_of_isCanonical hfolder (by decide) (by decide) .javascriptFirst innerFiles
  exact ⟨(htop.some_iff "lib/index.ts").mpr (by decide),
    (hdeep.some_iff "lib\\util.js").mpr (by decide), hmiss.none_iff.mpr (by decide)⟩

end Resolution

end ImportAtlas
