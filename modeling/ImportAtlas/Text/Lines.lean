/-!
# Lines of text

Texts made of lines, each closed by a line feed, and texts filled up to a width.
-/

namespace ImportAtlas.Text

/-- The lines of a list, each followed by a line feed. -/
def unlines (lines : List String) : String :=
  String.ofList (lines.flatMap fun line => line.toList ++ ['\n'])

/-- The text followed by as many spaces as it takes to fill a width. -/
def padRight (width : Nat) (s : String) : String :=
  s ++ String.ofList (List.replicate (width - s.length) ' ')

/-- The width of a column: that of its longest cell. -/
def columnWidth (cells : List String) : Nat := (cells.map String.length).foldl max 0

@[simp] theorem unlines_nil : unlines [] = "" := rfl

theorem toList_unlines (lines : List String) :
    (unlines lines).toList = lines.flatMap fun line => line.toList ++ ['\n'] := by
  simp [unlines]

end ImportAtlas.Text
