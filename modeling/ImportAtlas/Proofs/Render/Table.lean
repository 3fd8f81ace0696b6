import ImportAtlas.Proofs.Text.Lines
import ImportAtlas.Render.Table

/-!
# Reading a table of edges

The dashes below the header tell how wide the columns are, and with that where each of them starts.
A row that is cut there gives back its cells, since no cell is longer than its column and the spaces
behind a cell are not part of it. So a table tells its edges, whatever characters their names have.
-/

namespace ImportAtlas

open Text

/-- A text that stays in its line and can be told from the spaces behind it. -/
def IsCell (text : String) : Prop := '\n' ∉ text.toList ∧ text.toList.getLast? ≠ some ' '

instance (text : String) : Decidable (IsCell text) := inferInstanceAs (Decidable (_ ∧ _))

def FileEdge.IsTabular (e : FileEdge) : Prop := IsCell e.id ∧ IsCell e.source ∧ IsCell e.target

instance (e : FileEdge) : Decidable e.IsTabular := inferInstanceAs (Decidable (_ ∧ _))

theorem ImportKind.isCell_name (kind : ImportKind) : IsCell kind.name := by
  cases kind <;> decide

namespace Render

variable {w : ColumnWidths} {id source target kind row : String} {e : FileEdge}
  {edges : List FileEdge}

/-! ## Columns -/

namespace ColumnWidths

/-- The widths that a line of dashes shows by its runs. The last column has no width. -/
def ofDashes? (line : String) : Option ColumnWidths :=
  match (fields (· != '-') line).filter (· != "") with
  | [id, source, target, _] => some ⟨id.length, source.length, target.length⟩
  | _ => none

/-- What a row has from the offset of each column up to that of the next one. -/
def columns (w : ColumnWidths) (row : String) : List String :=
  [slice 0 (w.id + 2) row,
    slice (w.id + 2) (w.id + w.source + 4) row,
    slice (w.id + w.source + 4) (w.id + w.source + w.target + 6) row,
    slice (w.id + w.source + w.target + 6) row.length row]

theorem columns_append {a b c : String} (ha : a.length = w.id + 2) (hb : b.length = w.source + 2)
    (hc : c.length = w.target + 2) (d : String) : w.columns (a ++ b ++ c ++ d) = [a, b, c, d] := by
  -- The offsets are the lengths of what stands in front of each part.
  have hsecond : a.length + b.length = w.id + w.source + 4 := by omega
  have hthird : (a ++ b).length + c.length = w.id + w.source + w.target + 6 := by
    rw [String.length_append]
    omega
  have hlast : (a ++ b ++ c).length = w.id + w.source + w.target + 6 := by
    rw [String.length_append]
    exact hthird
  have h₁ := slice_append "" a (b ++ c ++ d)
  have h₂ := slice_append a b (c ++ d)
  have h₃ := slice_append (a ++ b) c d
  have h₄ := slice_append (a ++ b ++ c) d ""
  simp only [String.length_empty, Nat.zero_add, ha, String.empty_append,
    ← String.append_assoc] at h₁
  rw [hsecond, ha, ← String.append_assoc] at h₂
  rw [hthird, String.length_append, hsecond] at h₃
  rw [← String.length_append, hlast, String.append_empty] at h₄
  rw [columns, h₁, h₂, h₃, h₄]

theorem length_le_ofEdges (he : e ∈ edges) :
    e.id.length ≤ (ofEdges edges).id ∧ e.source.length ≤ (ofEdges edges).source ∧
      e.target.length ≤ (ofEdges edges).target := by
  refine ⟨?_, ?_, ?_⟩ <;>
    exact length_le_columnWidth (List.mem_cons_of_mem _ (List.mem_map_of_mem he))

theorem heading_le_ofEdges (edges : List FileEdge) :
    "ID".length ≤ (ofEdges edges).id ∧ "Source".length ≤ (ofEdges edges).source ∧
      "Target".length ≤ (ofEdges edges).target := by
  refine ⟨?_, ?_, ?_⟩ <;> exact length_le_columnWidth List.mem_cons_self

end ColumnWidths

/-! ## Rows -/

/-- A row with these cells. Each starts at the offset of its column, none is cut, and nothing but
spaces, two at least, stands between one and the next. -/
structure ShowsRow (w : ColumnWidths) (id source target kind row : String) : Prop where
  id_le : id.length ≤ w.id
  source_le : source.length ≤ w.source
  target_le : target.length ≤ w.target
  columns : w.columns row =
    [id ++ gap (w.id + 2 - id.length), source ++ gap (w.source + 2 - source.length),
      target ++ gap (w.target + 2 - target.length), kind]

theorem showsRow_tableRow (hid : id.length ≤ w.id) (hsource : source.length ≤ w.source)
    (htarget : target.length ≤ w.target) (kind : String) :
    ShowsRow w id source target kind (tableRow w id source target kind) := by
  refine ⟨hid, hsource, htarget, ?_⟩
  have hrow : tableRow w id source target kind = padRight w.id id ++ gap 2 ++
      (padRight w.source source ++ gap 2) ++ (padRight w.target target ++ gap 2) ++ kind := by
    simp only [tableRow, String.append_assoc]
    rfl
  rw [hrow, padRight_append_gap hid, padRight_append_gap hsource, padRight_append_gap htarget]
  apply ColumnWidths.columns_append
  · exact length_append_gap (Nat.le_add_right_of_le hid)
  · exact length_append_gap (Nat.le_add_right_of_le hsource)
  · exact length_append_gap (Nat.le_add_right_of_le htarget)

theorem lineFeed_notMem_tableRow (hid : '\n' ∉ id.toList) (hsource : '\n' ∉ source.toList)
    (htarget : '\n' ∉ target.toList) (hkind : '\n' ∉ kind.toList) :
    '\n' ∉ (tableRow w id source target kind).toList := by
  have hpad {width : Nat} {s : String} (hs : '\n' ∉ s.toList) :
      '\n' ∉ (padRight width s).toList := fun hmem => (mem_padRight hmem).elim hs (by decide)
  simp [tableRow, hpad hid, hpad hsource, hpad htarget, hkind]

/-- The edge of a row that is cut at the offsets of the columns. -/
def readRow? (w : ColumnWidths) (row : String) : Option FileEdge :=
  match (w.columns row).map trimSpaces with
  | [id, source, target, kind] =>
    (ImportKind.ofName? kind).map fun kind => ⟨id, source, target, kind⟩
  | _ => none

theorem ShowsRow.readRow?_eq (h : ShowsRow w e.id e.source e.target e.kind.name row)
    (he : e.IsTabular) : readRow? w row = some e := by
  obtain ⟨hid, hsource, htarget⟩ := he
  have hcells : (w.columns row).map trimSpaces = [e.id, e.source, e.target, e.kind.name] := by
    rw [h.columns]
    simp only [List.map_cons, List.map_nil, trimSpaces_append_gap, trimSpaces_eq_self hid.2,
      trimSpaces_eq_self hsource.2, trimSpaces_eq_self htarget.2,
      trimSpaces_eq_self e.kind.isCell_name.2]
  rw [readRow?, hcells]
  simp

/-! ## The line of dashes -/

def dashLine (w : ColumnWidths) : String :=
  tableRow w (dashes w.id) (dashes w.source) (dashes w.target) (dashes 7)

@[simp] theorem length_dashes (n : Nat) : (dashes n).length = n := by simp [dashes]

theorem forall_mem_dashes (n : Nat) : ∀ c ∈ (dashes n).toList, c = '-' := by
  intro c hc
  rw [dashes, String.toList_ofList] at hc
  exact List.eq_of_mem_replicate hc

theorem dashes_ne_empty {n : Nat} (hn : 0 < n) : dashes n ≠ "" := by
  intro h
  have hlen := length_dashes n
  rw [h, String.length_empty] at hlen
  omega

theorem showsRow_dashLine (w : ColumnWidths) :
    ShowsRow w (dashes w.id) (dashes w.source) (dashes w.target) (dashes 7) (dashLine w) := by
  apply showsRow_tableRow <;> simp

theorem padRight_dashes (n : Nat) : padRight n (dashes n) = dashes n := by
  rw [padRight_eq, length_dashes, Nat.sub_self]
  exact String.append_empty

/-- Between two runs of dashes there is one empty field, since two spaces stand there. -/
theorem dashLine_eq (w : ColumnWidths) :
    dashLine w = joinFields ' '
      [dashes w.id, "", dashes w.source, "", dashes w.target, "", dashes 7] := by
  apply String.toList_injective
  simp [dashLine, tableRow, padRight_dashes, joinFields, joinBy]

theorem ofDashes?_dashLine (hid : 0 < w.id) (hsource : 0 < w.source) (htarget : 0 < w.target) :
    ColumnWidths.ofDashes? (dashLine w) = some w := by
  have hfields : fields (· != '-') (dashLine w) =
      [dashes w.id, "", dashes w.source, "", dashes w.target, "", dashes 7] := by
    rw [dashLine_eq]
    apply fields_joinFields rfl (by simp)
    simpa using ⟨forall_mem_dashes _, forall_mem_dashes _, forall_mem_dashes _, forall_mem_dashes _⟩
  rw [ColumnWidths.ofDashes?, hfields]
  simp [dashes_ne_empty, hid, hsource, htarget]

/-! ## Tables -/

def edgeRow (w : ColumnWidths) (e : FileEdge) : String :=
  tableRow w e.id e.source e.target e.kind.name

/-- The edges of a table, read from its text alone. -/
def readTable? (text : String) : Option (List FileEdge) :=
  match lines text with
  | _ :: dashLine :: rows =>
    (ColumnWidths.ofDashes? dashLine).bind fun w => rows.mapM (readRow? w)
  | _ => none

theorem mapM_readRow? {rows : List String}
    (hrows : List.Forall₂ (fun e row => readRow? w row = some e) edges rows) :
    rows.mapM (readRow? w) = some edges := by
  induction hrows with
  | nil => rfl
  | cons hrow _ ih => simp [hrow, ih]

/-- A table of some edges: a header, a line of dashes that shows the widths of the columns, and one
row for each edge. -/
structure Tabulates (edges : List FileEdge) (text : String) : Prop where
  rows : ∃ w header dashLine rows, lines text = header :: dashLine :: rows ∧
    ColumnWidths.ofDashes? dashLine = some w ∧
    ShowsRow w "ID" "Source" "Target" "Type" header ∧
    ShowsRow w (dashes w.id) (dashes w.source) (dashes w.target) (dashes 7) dashLine ∧
    List.Forall₂ (fun e row => ShowsRow w e.id e.source e.target e.kind.name row) edges rows
  /-- The text alone gives back the edges. -/
  read : readTable? text = some edges

theorem lines_table {g : FileGraph} (hg : ∀ e ∈ g.edges, e.IsTabular) :
    lines (table .plain g) = tableRow (.ofEdges g.edges) "ID" "Source" "Target" "Type" ::
      dashLine (.ofEdges g.edges) :: g.edges.map (edgeRow (.ofEdges g.edges)) := by
  apply lines_unlines
  rw [tableLines, List.forall_mem_cons, List.forall_mem_cons, List.forall_mem_map]
  have hdashes (n : Nat) : '\n' ∉ (dashes n).toList := fun hmem =>
    absurd (forall_mem_dashes n _ hmem) (by decide)
  refine ⟨?_, ?_, fun e he => ?_⟩
  · apply lineFeed_notMem_tableRow <;> decide
  · apply lineFeed_notMem_tableRow <;> exact hdashes _
  · obtain ⟨hid, hsource, htarget⟩ := hg e he
    exact lineFeed_notMem_tableRow hid.1 hsource.1 htarget.1 e.kind.isCell_name.1

/-- Whatever the names of its edges are, with spaces inside or characters of any kind, the table of
a graph is aligned and gives them back. -/
theorem tabulates_table {g : FileGraph} (hg : ∀ e ∈ g.edges, e.IsTabular) :
    Tabulates g.edges (table .plain g) := by
  have hlines := lines_table hg
  obtain ⟨hid, hsource, htarget⟩ := ColumnWidths.heading_le_ofEdges g.edges
  have hwidths : ColumnWidths.ofDashes? (dashLine (.ofEdges g.edges)) = some (.ofEdges g.edges) :=
    ofDashes?_dashLine (Nat.lt_of_lt_of_le (by decide) hid)
      (Nat.lt_of_lt_of_le (by decide) hsource) (Nat.lt_of_lt_of_le (by decide) htarget)
  have hrow : ∀ e ∈ g.edges, ShowsRow (.ofEdges g.edges) e.id e.source e.target e.kind.name
      (edgeRow (.ofEdges g.edges) e) := by
    intro e he
    obtain ⟨heid, hesource, hetarget⟩ := ColumnWidths.length_le_ofEdges he
    exact showsRow_tableRow heid hesource hetarget e.kind.name
  constructor
  · refine ⟨_, _, _, _, hlines, hwidths, ?_, showsRow_dashLine _, ?_⟩
    · exact showsRow_tableRow hid hsource htarget "Type"
    · exact List.forall₂_map_right_iff.mpr (List.forall₂_same.mpr hrow)
  · rw [readTable?, hlines]
    dsimp only
    rw [hwidths, Option.bind_some]
    apply mapM_readRow?
    apply List.forall₂_map_right_iff.mpr
    exact List.forall₂_same.mpr fun e he => (hrow e he).readRow?_eq (hg e he)

/-! ### Names with accents, with spaces inside and shorter than their headings -/

def accentedGraph : FileGraph where
  nodes := []
  edges := [⟨"edge-0", "é  ü.js", "b.ts", .require⟩, ⟨"e", "", "  lib/日本.tsx", .dynamic⟩]
  folderGroups := []

theorem tabulates_accented : (∀ e ∈ accentedGraph.edges, e.IsTabular) ∧
    lines (table .plain accentedGraph) =
      ["ID      Source   Target        Type",
        "------  -------  ------------  -------",
        "edge-0  é  ü.js  b.ts          require",
        "e                  lib/日本.tsx  dynamic"] ∧
    Tabulates accentedGraph.edges (table .plain accentedGraph) := by
  have hg : ∀ e ∈ accentedGraph.edges, e.IsTabular := by decide
  exact ⟨hg, (lines_table hg).trans (by cbv), tabulates_table hg⟩

end Render

end ImportAtlas
