import ImportAtlas.Proofs.Config.Layer
import ImportAtlas.Proofs.Text.Blank

/-!
# Layers of the configuration

The environment lies over the file, and the file over the defaults. Which value a setting has is
decided by the topmost layer that has one for it, whatever the layers say of the other settings. The
file is the one that is asked for, else the first one that is there, and what is wrong with that one
is an error.
-/

namespace ImportAtlas

variable {host : Host} {env : Environment} {asked : Option String} {path text : String}
  {port : UInt16}

/-- A layer on top of another: where it has no value, the other one counts. -/
def Layer.onto (above below : Layer) : Layer where
  reposDir := above.reposDir.or below.reposDir
  extraExcludedDirs := above.extraExcludedDirs.or below.extraExcludedDirs
  followSymlinks := above.followSymlinks.or below.followSymlinks
  maxFileSize := above.maxFileSize.or below.maxFileSize
  parallelThreads := above.parallelThreads.or below.parallelThreads
  resolutionOrder := above.resolutionOrder.or below.resolutionOrder
  host := above.host.or below.host
  port := above.port.or below.port

@[simp] theorem Layer.onto_empty (l : Layer) : l.onto {} = l := by simp [onto]

/-! ## The environment as a layer -/

namespace Config

/-- The decimal digits of the number of a port, perhaps behind a plus sign. -/
def WritesPort (text : String) (port : UInt16) : Prop :=
  ∃ digits, (text.toList = digits ∨ text.toList = '+' :: digits) ∧ digits ≠ [] ∧
    (∀ c ∈ digits, c.isDigit = true) ∧ Nat.ofDigitChars 10 digits 0 = port.toNat

def afterPlus : List Char → List Char
  | '+' :: digits => digits
  | digits => digits

theorem readPort?_eq (text : String) : readPort? text =
    if (afterPlus text.toList).isEmpty || !(afterPlus text.toList).all Json.isDigit then none
    else if Json.natOfDigits (afterPlus text.toList) < 0x10000 then
      some (UInt16.ofNat (Json.natOfDigits (afterPlus text.toList)))
    else none := rfl

/-- The sign is no digit, so there is only one way to take it off. -/
theorem afterPlus_eq_iff {cs digits : List Char} (hne : digits ≠ [])
    (hdigits : ∀ c ∈ digits, c.isDigit = true) :
    afterPlus cs = digits ↔ cs = digits ∨ cs = '+' :: digits := by
  have hplus : ∀ rest, digits ≠ '+' :: rest := by
    rintro rest rfl
    exact absurd (hdigits '+' List.mem_cons_self) (by decide)
  rw [afterPlus.eq_def]
  split
  next rest =>
    rw [List.cons.injEq, eq_self, true_and, or_iff_right (hplus rest).symm]
  next hcs =>
    exact ⟨.inl, fun h => h.resolve_right fun he => hcs _ he⟩

theorem readPort?_eq_some_iff : readPort? text = some port ↔ WritesPort text port := by
  rw [readPort?_eq]
  constructor
  · intro h
    split at h
    · exact nomatch h
    next hdigits =>
      simp only [Bool.or_eq_true, List.isEmpty_iff, Bool.not_eq_true', not_or, Bool.not_eq_false,
        List.all_eq_true] at hdigits
      obtain ⟨hne, hdigits⟩ := hdigits
      rw [Option.ite_none_right_eq_some, Option.some.injEq] at h
      obtain ⟨hlt, rfl⟩ := h
      refine ⟨_, (afterPlus_eq_iff hne hdigits).mp rfl, hne, hdigits, ?_⟩
      rw [← Json.natOfDigits_eq_ofDigitChars, UInt16.toNat_ofNat_of_lt' hlt]
  · rintro ⟨digits, htext, hne, hdigits, hport⟩
    rw [(afterPlus_eq_iff hne hdigits).mpr htext, Json.natOfDigits_eq_ofDigitChars, hport]
    have hall : digits.all Json.isDigit = true := List.all_eq_true.mpr hdigits
    simp [hne, hall, port.toNat_lt]

end Config

open Config

/-- The variables that are set to something valid. -/
def Environment.layer (env : Environment) : Layer where
  reposDir := (env.get? "TEMP_REPO_PATH").filter fun dir => !Text.isAllBlank dir
  port := env.get? "PORT" >>= readPort?

theorem Environment.layer_reposDir_eq_some_iff {dir : String} :
    env.layer.reposDir = some dir ↔
      env.get? "TEMP_REPO_PATH" = some dir ∧ Text.trim dir ≠ "" := by
  rw [layer, Option.filter_eq_some_iff, ne_eq, Text.trim_eq_empty_iff, Bool.not_eq_true',
    Bool.not_eq_true]

theorem Environment.layer_port_eq_some_iff :
    env.layer.port = some port ↔ ∃ text, env.get? "PORT" = some text ∧ WritesPort text port := by
  simp only [layer, Option.bind_eq_bind, Option.bind_eq_some_iff, readPort?_eq_some_iff]

namespace Config

/-- Only the folder and the port can come from the environment. -/
theorem value_applyEnvironment (env : Environment) (c : Config) :
    (applyEnvironment env c).value =
      { c with
        reposDir := env.layer.reposDir.getD c.reposDir
        server := { c.server with port := env.layer.port.getD c.server.port } } := by
  rw [applyEnvironment, Environment.layer]
  -- The folder is not set, blank or to be taken; in each case the port is not set, no number or to
  -- be taken.
  rcases env.get? "TEMP_REPO_PATH" with _ | dir
  on_goal 2 => cases hblank : Text.isAllBlank dir
  all_goals
    rcases env.get? "PORT" with _ | text
    · simp [Option.filter, *]
    · cases hport : readPort? text <;> simp [Option.filter, *]

/-- The environment does not touch what it has no value for. -/
theorem value_applyEnvironment_config (env : Environment) (l : Layer) :
    (applyEnvironment env l.config).value = (env.layer.onto l).config := by
  rw [value_applyEnvironment]
  simp [Layer.config, Layer.onto, Environment.layer, Option.getD_or]

/-! ## The file -/

/-- The file to be read: the one that is asked for, else the first one that is there. -/
inductive IsCandidate (host : Host) (env : Environment) : Option String → String → Prop
  | asked (path : String) : IsCandidate host env (some path) path
  | working (hfile : host.fileExists "repograph.toml" = true) :
      IsCandidate host env none "repograph.toml"
  | home {home : String} (hworking : host.fileExists "repograph.toml" = false)
      (hhome : env.home = some home) (hfile : host.fileExists (homeFile home) = true) :
      IsCandidate host env none (homeFile home)

theorem findFile?_eq_some_iff :
    findFile? host env = some path ↔ IsCandidate host env none path := by
  rw [findFile?, lookupOrder, localFile, List.find?_cons]
  cases hworking : host.fileExists "repograph.toml" with
  | true =>
      rw [Option.some.injEq]
      constructor
      · rintro rfl
        exact .working hworking
      · rintro (_ | _ | ⟨hnone, -, -⟩)
        · rfl
        · exact nomatch hworking.symm.trans hnone
  | false =>
      constructor
      · intro h
        obtain ⟨home, hhome, rfl⟩ : ∃ home, env.home = some home ∧ homeFile home = path := by
          simpa using List.mem_of_find?_eq_some h
        exact .home hworking hhome (List.find?_some h)
      · rintro (_ | hfile | ⟨-, hhome, hfile⟩)
        · exact nomatch hworking.symm.trans hfile
        · simp [hhome, hfile]

theorem value_loadFile (h : IsCandidate host env asked path) :
    (loadFile host env asked).value = fromFile host path := by
  cases asked with
  | none =>
      rw [← findFile?_eq_some_iff] at h
      simp [loadFile, h]
  | some _ =>
      cases h
      rfl

theorem value_loadFile_of_forall_not (h : ∀ path, ¬ IsCandidate host env asked path) :
    (loadFile host env asked).value = .ok {} := by
  cases asked with
  | none =>
      have hnone : findFile? host env = none := by
        rw [Option.eq_none_iff_forall_ne_some]
        exact fun path hpath => h path (findFile?_eq_some_iff.mp hpath)
      simp [loadFile, hnone]
  | some path => exact absurd (.asked path) (h path)

theorem value_load (host : Host) (env : Environment) (asked : Option String) :
    (load host env asked).value =
      (loadFile host env asked).value.map fun c => (applyEnvironment env c).value := by
  rw [load, Logged.value_bind]
  cases (loadFile host env asked).value with
  | error e => rfl
  | ok c => rfl

/-- What is loaded, layer by layer, and what is an error. -/
structure LoadsInLayers (host : Host) (env : Environment) (asked : Option String) : Prop where
  written : ∀ path text l, IsCandidate host env asked path → host.readText path = .ok text →
    l.IsWrittenIn text → (load host env asked).value = .ok (env.layer.onto l).config
  absent : (∀ path, ¬ IsCandidate host env asked path) →
    (load host env asked).value = .ok env.layer.config
  unreadable : ∀ path e, IsCandidate host env asked path → host.readText path = .error e →
    (load host env asked).value = .error (.unreadable path e)
  malformed : ∀ path text, IsCandidate host env asked path → host.readText path = .ok text →
    ofToml? text = none → (load host env asked).value = .error (.malformed path)
  reposDir : ∀ dir, env.layer.reposDir = some dir ↔
    env.get? "TEMP_REPO_PATH" = some dir ∧ Text.trim dir ≠ ""
  port : ∀ port, env.layer.port = some port ↔
    ∃ text, env.get? "PORT" = some text ∧ WritesPort text port
  /-- Every choice of settings can be written. -/
  writable : ∀ l : Layer, l.NumbersFit → ∃ text, l.IsWrittenIn text

/-- The settings are taken one by one, each from the topmost layer that has it. -/
theorem loadsInLayers (host : Host) (env : Environment) (asked : Option String) :
    LoadsInLayers host env asked where
  written path text l hpath htext hl := by
    have hfile : fromFile host path = .ok l.config := by
      simp only [fromFile, htext, Layer.ofToml?_of_isWrittenIn hl]
    rw [value_load, value_loadFile hpath, hfile, Except.map, value_applyEnvironment_config]
  absent h := by
    have hdefault := value_applyEnvironment_config env {}
    rw [Layer.onto_empty] at hdefault
    rw [value_load, value_loadFile_of_forall_not h, Except.map, ← hdefault]
    rfl
  unreadable path e hpath he := by
    have hfile : fromFile host path = .error (.unreadable path e) := by simp only [fromFile, he]
    rw [value_load, value_loadFile hpath, hfile, Except.map]
  malformed path text hpath htext hnone := by
    have hfile : fromFile host path = .error (.malformed path) := by
      simp only [fromFile, htext, hnone]
    rw [value_load, value_loadFile hpath, hfile, Except.map]
  reposDir _ := Environment.layer_reposDir_eq_some_iff
  port _ := Environment.layer_port_eq_some_iff
  writable l hl := ⟨l.text, Layer.isWrittenIn_text hl⟩

/-! ### A file with a few settings, in its own way -/

def sparse : Layer where
  reposDir := some "a"
  maxFileSize := some 1000
  port := some 8080

def sparseText : String :=
  "server.port = 0x1F90 # not 80\nrepos_dir = 'a'\n[graph]\nmax_file_size = 1_000\ndepth = 2\n"

theorem isWrittenIn_sparseText : sparse.IsWrittenIn sparseText := by
  refine ⟨⟨by simp [sparse, Json.countBound], by simp [sparse]⟩, .table false false
    [("server", .table true true [("port", .int 8080)]), ("repos_dir", .str "a"),
      ("graph", .table false false [("max_file_size", .int 1000), ("depth", .int 2)])],
    rfl, ?_⟩
  constructor
  case root => exact ⟨_, rfl⟩
  case graph | server =>
    rintro _ ⟨⟩
    exact ⟨_, rfl⟩
  all_goals rfl

/-- There is a file in the working folder and one in the home folder. -/
def hostWithBoth (working home : String) : Host :=
  ⟨.folder [("repograph.toml", .file working.toUTF8),
    ("h", .folder [(".repograph", .folder [("config.toml", .file home.toUTF8)])])], []⟩

theorem resolve_hostWithBoth (working home : String) :
    (hostWithBoth working home).resolve "repograph.toml" =
      .ok ⟨["repograph.toml"], .file working.toUTF8⟩ := by
  have hat : (hostWithBoth working home).root.at? ["repograph.toml"] =
      some (.file working.toUTF8) := rfl
  rw [Host.resolve_eq, if_neg (by decide), if_neg (by decide), if_neg (by decide),
    show Host.startTrail (hostWithBoth working home) "repograph.toml" = [] from rfl,
    show Text.fields Host.Location.isSlash "repograph.toml" = ["repograph.toml"] by decide,
    Host.advance_names (by decide) hat (by simp), if_pos (by decide)]
  rfl

def blankFolder : Environment where
  settings := [("TEMP_REPO_PATH", " \t"), ("PORT", "+080")]
  home := some "/h"

theorem load_sparseText : (load (hostWithBoth sparseText "port") blankFolder none).value = .ok {
    reposDir := "a", graph := { maxFileSize := 1000 }, server := { port := 80 } } := by
  have hresolve := resolve_hostWithBoth sparseText "port"
  have hfile : IsCandidate (hostWithBoth sparseText "port") blankFolder none "repograph.toml" :=
    .working (by rw [Host.fileExists, hresolve]; rfl)
  have hbytes : (hostWithBoth sparseText "port").readBytes "repograph.toml" =
      .ok sparseText.toUTF8 := by
    rw [Host.readBytes, hresolve]
    rfl
  have henv : blankFolder.layer = { port := some 80 } := by rfl
  rw [(loadsInLayers _ blankFolder none).written _ _ _ hfile (Host.readText_of_readBytes hbytes)
    isWrittenIn_sparseText, henv]
  rfl

end Config

end ImportAtlas
