import ImportAtlas.Json.Graph
import ImportAtlas.Proofs.Json.Record
import ImportAtlas.Proofs.Json.Value

/-!
# Graphs and reports in JSON

A graph with its summary and a report are read back from their texts, compact or laid out, if 64
bits hold their counts.
-/

namespace ImportAtlas

namespace Json

variable {α : Type} {limit n : Nat} {toJson : α → Json}

theorem isBounded_nat (h : n < countBound) : IsBounded n := by
  rw [countBound] at h
  exact ⟨by omega, by omega⟩

theorem readable_map {as : List α} (h : ∀ a ∈ as, Readable limit (toJson a)) :
    Readable (limit + 1) (arr (as.map toJson)) := .arr (List.forall_mem_map.mpr h)

theorem readable_strings (limit : Nat) (ss : List String) : Readable (limit + 1) (strings ss) :=
  readable_map fun s _ => .str limit s

theorem readable_ofOption {o : Option α} (h : ∀ a, Readable limit (toJson a)) :
    Readable limit (ofOption toJson o) := by
  cases o with
  | none => exact .null limit
  | some a => exact h a

end Json

open Json

@[simp] theorem Language.ofJson?_toJson (l : Language) : ofJson? l.toJson = some l :=
  ofName?_name l

@[simp] theorem ImportKind.ofJson?_toJson (k : ImportKind) : ofJson? k.toJson = some k :=
  ofName?_name k

namespace ImportStatement

def CountsFit (i : ImportStatement) : Prop := i.line < countBound

variable {i : ImportStatement}

theorem ofJson?_toJson (h : i.CountsFit) : ofJson? i.toJson = some i := by
  simp [ofJson?, toJson, record?, Record.required, get?, asNat?_nat h]

theorem readable_toJson (h : i.CountsFit) (limit : Nat) : Readable (limit + 1) i.toJson := by
  refine .obj ?_
  simp only [List.forall_mem_cons]
  exact ⟨.str _ _, .int _ (isBounded_nat h), .str _ _, by simp⟩

end ImportStatement

namespace ParseReport

structure CountsFit (p : ParseReport) : Prop where
  imports : ∀ i ∈ p.imports, i.CountsFit
  importCount : p.importCount < countBound

variable {p : ParseReport}

theorem ofJson?_toJson (h : p.CountsFit) : ofJson? p.toJson = some p := by
  have himports := asList?_map fun i hi => ImportStatement.ofJson?_toJson (h.imports i hi)
  have hlanguage :
      asOption? Language.ofJson? (ofOption Language.toJson p.language) = some p.language :=
    asOption?_ofOption (fun l => by simp [Language.toJson]) Language.ofJson?_toJson
  simp [ofJson?, toJson, record?, Record.required, Record.optional, get?, himports, hlanguage,
    asNat?_nat h.importCount]

theorem readable_toJson (h : p.CountsFit) (limit : Nat) : Readable (limit + 3) p.toJson := by
  refine .obj ?_
  simp only [List.forall_mem_cons]
  exact ⟨.str _ _, readable_ofOption fun l => .str _ _,
    readable_map fun i hi => ImportStatement.readable_toJson (h.imports i hi) _,
    .int _ (isBounded_nat h.importCount), by simp⟩

end ParseReport

namespace FileNode

@[simp] theorem ofJson?_toJson (n : FileNode) : ofJson? n.toJson = some n := by
  simp [ofJson?, toJson, record?, Record.required, get?]

theorem readable_toJson (n : FileNode) (limit : Nat) : Readable (limit + 1) n.toJson := by
  refine .obj ?_
  simp only [List.forall_mem_cons]
  exact ⟨.str _ _, .str _ _, .str _ _, .str _ _, by simp⟩

end FileNode

namespace FileEdge

@[simp] theorem ofJson?_toJson (e : FileEdge) : ofJson? e.toJson = some e := by
  simp [ofJson?, toJson, record?, Record.required, get?]

theorem readable_toJson (e : FileEdge) (limit : Nat) : Readable (limit + 1) e.toJson := by
  refine .obj ?_
  simp only [List.forall_mem_cons]
  exact ⟨.str _ _, .str _ _, .str _ _, .str _ _, by simp⟩

end FileEdge

namespace FolderGroup

@[simp] theorem ofJson?_toJson (g : FolderGroup) : ofJson? g.toJson = some g := by
  simp [ofJson?, toJson, record?, Record.required, get?]

theorem readable_toJson (g : FolderGroup) (limit : Nat) : Readable (limit + 2) g.toJson := by
  refine .obj ?_
  simp only [List.forall_mem_cons]
  exact ⟨.str _ _, .str _ _, .str _ _, readable_strings _ _, by simp⟩

end FolderGroup

namespace FileGraph

@[simp] theorem ofJson?_toJson (g : FileGraph) : ofJson? g.toJson = some g := by
  have hnodes : asList? FileNode.ofJson? (arr (g.nodes.map FileNode.toJson)) = some g.nodes :=
    asList?_map fun n _ => n.ofJson?_toJson
  have hedges : asList? FileEdge.ofJson? (arr (g.edges.map FileEdge.toJson)) = some g.edges :=
    asList?_map fun e _ => e.ofJson?_toJson
  have hgroups : asList? FolderGroup.ofJson? (arr (g.folderGroups.map FolderGroup.toJson)) =
      some g.folderGroups :=
    asList?_map fun f _ => f.ofJson?_toJson
  simp [ofJson?, toJson, record?, Record.required, get?, hnodes, hedges, hgroups]

theorem readable_toJson (g : FileGraph) (limit : Nat) : Readable (limit + 4) g.toJson := by
  refine .obj ?_
  simp only [List.forall_mem_cons]
  exact ⟨readable_map fun n _ => n.readable_toJson _, readable_map fun e _ => e.readable_toJson _,
    readable_map fun f _ => f.readable_toJson _, by simp⟩

end FileGraph

namespace GraphStats

structure CountsFit (s : GraphStats) : Prop where
  totalFiles : s.totalFiles < countBound
  totalImports : s.totalImports < countBound

variable {s : GraphStats}

theorem ofJson?_toJson (h : s.CountsFit) : ofJson? s.toJson = some s := by
  simp [ofJson?, toJson, record?, Record.required, get?, asNat?_nat h.totalFiles,
    asNat?_nat h.totalImports]

theorem readable_toJson (h : s.CountsFit) (limit : Nat) : Readable (limit + 1) s.toJson := by
  refine .obj ?_
  simp only [List.forall_mem_cons]
  exact ⟨.int _ (isBounded_nat h.totalFiles), .int _ (isBounded_nat h.totalImports), .str _ _,
    by simp⟩

end GraphStats

namespace GraphResponse

variable {g : GraphResponse}

theorem ofJson?_toJson (h : g.stats.CountsFit) : ofJson? g.toJson = some g := by
  have hfolder : asOption? asString? (ofOption str g.folder) = some g.folder :=
    asOption?_ofOption (by simp) asString?_str
  simp [ofJson?, toJson, record?, Record.required, Record.optional, get?, hfolder,
    GraphStats.ofJson?_toJson h]

theorem readable_toJson (h : g.stats.CountsFit) (limit : Nat) :
    Readable (limit + 5) g.toJson := by
  refine .obj ?_
  simp only [List.forall_mem_cons]
  exact ⟨.str _ _, .str _ _, readable_ofOption fun s => .str _ s, g.graph.readable_toJson _,
    GraphStats.readable_toJson h _, by simp⟩

end GraphResponse

/-- A value is read back from its text in either layout, and the two texts stand for one value. -/
structure Json.ReadsBack {α : Type} (toJson : α → Json) (ofJson? : Json → Option α) (a : α) :
    Prop where
  value : ∀ isPretty, parse? ((toJson a).render (.ofPretty isPretty)) >>= ofJson? = some a
  layout : parse? ((toJson a).render .compact) = parse? ((toJson a).render .pretty)

theorem Json.readsBack {α : Type} {toJson : α → Json} {ofJson? : Json → Option α} {a : α}
    (hreadable : Readable maxDepth (toJson a)) (hrecord : ofJson? (toJson a) = some a) :
    ReadsBack toJson ofJson? a where
  value isPretty := by
    rw [parse?_render (Layout.isBlank_ofPretty isPretty) hreadable]
    exact hrecord
  layout := by
    rw [show Layout.compact = .ofPretty false from rfl,
      show Layout.pretty = .ofPretty true from rfl,
      parse?_render (Layout.isBlank_ofPretty _) hreadable,
      parse?_render (Layout.isBlank_ofPretty _) hreadable]

/-- Every graph with its summary and every report is read back from its text, compact or laid out,
whatever stands in its strings and however many parts it has. -/
theorem readsBack_of_countsFit {g : GraphResponse} {p : ParseReport} (hg : g.stats.CountsFit)
    (hp : p.CountsFit) :
    ReadsBack GraphResponse.toJson GraphResponse.ofJson? g ∧
      ReadsBack ParseReport.toJson ParseReport.ofJson? p :=
  ⟨readsBack (GraphResponse.readable_toJson hg 122) (GraphResponse.ofJson?_toJson hg),
    readsBack (ParseReport.readable_toJson hp 124) (ParseReport.ofJson?_toJson hp)⟩

/-! ### Quotes, backslashes, control characters and letters of all kinds -/

def strangeResponse : GraphResponse :=
  .ofGraph "o\\\"" "\x00\x1f\x7f\n" (some "\u2028 é😀")
    ⟨[.ofPath "a/\u0008\t.ts", .ofPath ""], [⟨"edge-0", "a/\u0008\t.ts", "", .dynamic⟩],
      [⟨"a", "\r", "\u000c", ["/", "\\u0041"]⟩, ⟨"", "", "", []⟩]⟩

def strangeReport : ParseReport where
  file := "\"\\\""
  language := none
  imports := [⟨"./\ud7ff\ue000\uffff", 18446744073709551615, .require⟩]
  importCount := 1

theorem readsBack_strange :
    parse? (strangeResponse.toJson.render .pretty) >>= GraphResponse.ofJson? =
        some strangeResponse ∧
      parse? (strangeReport.toJson.render .compact) >>= ParseReport.ofJson? =
        some strangeReport := by
  have hresponse : strangeResponse.stats.CountsFit := ⟨by decide, by decide⟩
  have hreport : strangeReport.CountsFit :=
    ⟨by simp [strangeReport, ImportStatement.CountsFit, countBound], by decide⟩
  obtain ⟨hg, hp⟩ := readsBack_of_countsFit hresponse hreport
  exact ⟨hg.value true, hp.value false⟩

end ImportAtlas
