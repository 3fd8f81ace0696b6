import ImportAtlas.Graph.Basic
import ImportAtlas.Render.Style
import ImportAtlas.Text.Lines

/-!
# Table of edges

One row for each edge. The columns are as wide as their longest cell, counted in characters.
-/

namespace ImportAtlas.Render

open Text

/-- The widths of the columns that are filled up; the last one is not. -/
structure ColumnWidths where
  id : Nat
  source : Nat
  target : Nat
  deriving DecidableEq, Repr, Inhabited

def ColumnWidths.ofEdges (edges : List FileEdge) : ColumnWidths where
  id := columnWidth ("ID" :: edges.map FileEdge.id)
  source := columnWidth ("Source" :: edges.map FileEdge.source)
  target := columnWidth ("Target" :: edges.map FileEdge.target)

def tableRow (w : ColumnWidths) (id source target kind : String) : String :=
  padRight w.id id ++ "  " ++ padRight w.source source ++ "  " ++
    padRight w.target target ++ "  " ++ kind

def dashes (n : Nat) : String := String.ofList (List.replicate n '-')

def tableLines (style : Style) (edges : List FileEdge) : List String :=
  let w := ColumnWidths.ofEdges edges
  style.bold (tableRow w "ID" "Source" "Target" "Type") ::
    tableRow w (dashes w.id) (dashes w.source) (dashes w.target) (dashes 7) ::
    edges.map fun e => tableRow w e.id e.source e.target e.kind.name

def table (style : Style) (g : FileGraph) : String := unlines (tableLines style g.edges)

end ImportAtlas.Render
