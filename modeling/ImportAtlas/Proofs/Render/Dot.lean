import ImportAtlas.Proofs.Graph.Assembly
import ImportAtlas.Render.Dot

/-!
# What a drawing tells

A quoted name ends at the first quote that no backslash escapes, so it can be split off from any
text that follows, whatever it holds. The pieces of a drawing then come apart one after another, and
two graphs have the same drawing only if they have the same clusters and the same arrows.
-/

namespace ImportAtlas

open Text

/-! ## Texts that can be split off -/

/-- A way of writing that tells where it ends, whatever text follows. -/
def IsSelfDelimiting {α : Type} (write : α → List Char) : Prop :=
  ∀ a b rest rest', write a ++ rest = write b ++ rest' → a = b ∧ rest = rest'

namespace IsSelfDelimiting

variable {α β : Type} {write : α → List Char} {close : β → List Char}

theorem injective (h : IsSelfDelimiting write) : Function.Injective write := by
  intro a b hab
  exact (h a b [] [] (by rw [hab])).1

theorem constant (word : List Char) : IsSelfDelimiting fun _ : Unit => word := by
  intro _ _ rest rest' heq
  exact ⟨rfl, List.append_cancel_left heq⟩

theorem after (word : List Char) (h : IsSelfDelimiting write) :
    IsSelfDelimiting fun a => word ++ write a := by
  intro a b rest rest' heq
  apply h
  rw [List.append_assoc, List.append_assoc] at heq
  exact List.append_cancel_left heq

theorem before (h : IsSelfDelimiting write) (word : List Char) :
    IsSelfDelimiting fun a => write a ++ word := by
  intro a b rest rest' heq
  rw [List.append_assoc, List.append_assoc] at heq
  obtain ⟨hab, hrest⟩ := h a b _ _ heq
  exact ⟨hab, List.append_cancel_left hrest⟩

theorem pair (h : IsSelfDelimiting write) (h' : IsSelfDelimiting close) :
    IsSelfDelimiting fun x : α × β => write x.1 ++ close x.2 := by
  rintro ⟨a, b⟩ ⟨a', b'⟩ rest rest' heq
  rw [List.append_assoc, List.append_assoc] at heq
  obtain ⟨rfl, hrest⟩ := h a a' _ _ heq
  obtain ⟨rfl, hend⟩ := h' b b' _ _ hrest
  exact ⟨rfl, hend⟩

/-- Numbered items one after another, and then something that starts unlike any of them. -/
theorem numbered {item : Nat → α → List Char} (hitem : ∀ n, IsSelfDelimiting (item n))
    (hclose : IsSelfDelimiting close)
    (hapart : ∀ n a b rest rest', item n a ++ rest ≠ close b ++ rest') (n : Nat) :
    IsSelfDelimiting fun x : List α × β =>
      ((x.1.zipIdx n).flatMap fun y => item y.2 y.1) ++ close x.2 := by
  rintro ⟨as, b⟩ ⟨as', b'⟩ rest rest' heq
  induction as generalizing as' n with
  | nil =>
      cases as' with
      | nil =>
          obtain ⟨rfl, hrest⟩ := hclose b b' rest rest' heq
          exact ⟨rfl, hrest⟩
      | cons a' as' =>
          simp only [List.zipIdx_cons, List.flatMap_cons, List.append_assoc] at heq
          exact absurd heq.symm (hapart n a' b _ _)
  | cons a as ih =>
      cases as' with
      | nil =>
          simp only [List.zipIdx_cons, List.flatMap_cons, List.append_assoc] at heq
          exact absurd heq (hapart n a b' _ _)
      | cons a' as' =>
          simp only [List.zipIdx_cons, List.flatMap_cons, List.append_assoc] at heq
          obtain ⟨rfl, hmore⟩ := hitem n a a' _ _ heq
          obtain ⟨hsame, hrest⟩ := ih (n + 1) as' (by simpa only [List.append_assoc] using hmore)
          cases hsame
          exact ⟨rfl, hrest⟩

theorem listed (h : IsSelfDelimiting write) {word : List Char}
    (hapart : ∀ a rest rest', write a ++ rest ≠ word ++ rest') :
    IsSelfDelimiting fun as : List α => as.flatMap write ++ word := by
  have hnumbered := numbered (fun _ => h) (constant word) (fun _ a _ => hapart a) 0
  have hflat (as : List α) : ((as.zipIdx 0).flatMap fun y => write y.1) = as.flatMap write := by
    conv_rhs => rw [← List.zipIdx_map_fst 0 as]
    rw [List.flatMap_map]
  intro as as' rest rest' heq
  have hpair := hnumbered (as, ()) (as', ()) rest rest'
  simp only [hflat] at hpair
  obtain ⟨hsame, hrest⟩ := hpair heq
  exact ⟨congrArg Prod.fst hsame, hrest⟩

end IsSelfDelimiting

namespace Render

/-! ## Quoted names -/

/-- What stands for one character between quotes. -/
def escaped (c : Char) : List Char := if c == '\\' || c == '"' then ['\\', c] else [c]

theorem dotEscape_eq (s : List Char) : dotEscape s = s.flatMap escaped := rfl

theorem escaped_eq (c : Char) :
    escaped c = ['\\', c] ∧ (c = '\\' ∨ c = '"') ∨ escaped c = [c] ∧ c ≠ '\\' ∧ c ≠ '"' := by
  by_cases hc : c = '\\' ∨ c = '"'
  · exact Or.inl ⟨by rcases hc with rfl | rfl <;> rfl, hc⟩
  · rw [not_or] at hc
    exact Or.inr ⟨by simp [escaped, hc.1, hc.2], hc⟩

theorem isSelfDelimiting_escaped : IsSelfDelimiting escaped := by
  intro c d rest rest' heq
  rcases escaped_eq c with ⟨hc, _⟩ | ⟨hc, hplain, _⟩
  · rcases escaped_eq d with ⟨hd, _⟩ | ⟨hd, hplain', _⟩
    · rw [hc, hd] at heq
      simpa using heq
    · rw [hc, hd] at heq
      exact absurd (List.cons.inj heq).1.symm hplain'
  · rcases escaped_eq d with ⟨hd, _⟩ | ⟨hd, _⟩
    · rw [hc, hd] at heq
      exact absurd (List.cons.inj heq).1 hplain
    · rw [hc, hd] at heq
      simpa using heq

/-- A quote that stands in the name comes after a backslash, so no name starts with a bare one. -/
theorem escaped_append_ne (c : Char) (rest rest' : List Char) :
    escaped c ++ rest ≠ ['"'] ++ rest' := by
  intro heq
  rcases escaped_eq c with ⟨hc, _⟩ | ⟨hc, _, hquote⟩
  · rw [hc] at heq
    simp at heq
  · rw [hc] at heq
    exact hquote (List.cons.inj heq).1

def quoted (s : String) : List Char := '"' :: (dotEscape s.toList ++ ['"'])

theorem toList_dotQuote (s : String) : (dotQuote s).toList = quoted s := by
  simp [dotQuote, quoted]

theorem isSelfDelimiting_quoted : IsSelfDelimiting quoted := by
  have hchars : IsSelfDelimiting fun cs => dotEscape cs ++ ['"'] := by
    simp only [dotEscape_eq]
    exact isSelfDelimiting_escaped.listed escaped_append_ne
  intro s t rest rest' heq
  obtain ⟨hst, hrest⟩ := hchars.after ['"'] s.toList t.toList rest rest' heq
  exact ⟨String.toList_injective hst, hrest⟩

/-! ## Lines -/

def nodeText (x : String × String) : List Char :=
  "    ".toList ++ quoted x.1 ++ (" [label=".toList ++ quoted x.2 ++ "];\n".toList)

def clusterText (n : Nat) (x : String × List (String × String)) : List Char :=
  (("  subgraph cluster_" ++ toString n ++ " \x7b\n    label=").toList ++ quoted x.1 ++
      ";\n".toList) ++
    (x.2.flatMap nodeText ++ "  \x7d\n".toList)

def styleText (kind : ImportKind) : List Char := (edgeStyle kind).toList

def arrowText (t : String × String × ImportKind) : List Char :=
  "  ".toList ++ quoted t.1 ++
    (" -> ".toList ++ quoted t.2.1 ++ (" [style=".toList ++ styleText t.2.2 ++ "];\n".toList))

theorem isSelfDelimiting_nodeText : IsSelfDelimiting nodeText :=
  (isSelfDelimiting_quoted.after _).pair ((isSelfDelimiting_quoted.after _).before _)

theorem isSelfDelimiting_styleText : IsSelfDelimiting styleText := by
  intro kind kind' rest rest' heq
  cases kind <;> cases kind' <;> simp_all [styleText, edgeStyle]

theorem isSelfDelimiting_arrowText : IsSelfDelimiting arrowText :=
  (isSelfDelimiting_quoted.after _).pair
    ((isSelfDelimiting_quoted.after _).pair ((isSelfDelimiting_styleText.after _).before _))

theorem nodeText_append_ne (x : String × String) (rest rest' : List Char) :
    nodeText x ++ rest ≠ "  \x7d\n".toList ++ rest' := by
  simp [nodeText]

theorem isSelfDelimiting_clusterText (n : Nat) : IsSelfDelimiting (clusterText n) := by
  have hlabel := (isSelfDelimiting_quoted.after
    ("  subgraph cluster_" ++ toString n ++ " \x7b\n    label=").toList).before ";\n".toList
  have hnodes := isSelfDelimiting_nodeText.listed nodeText_append_ne
  -- The pair is stated before it is compared with the text, whose parts are slow to tell apart.
  have hpair := hlabel.pair hnodes
  exact hpair

theorem arrowText_append_ne (t : String × String × ImportKind) (rest rest' : List Char) :
    arrowText t ++ rest ≠ "\x7d\n".toList ++ rest' := by
  simp [arrowText]

/-- The text of all arrows, up to the end of the drawing. -/
def arrowsText (ts : List (String × String × ImportKind)) : List Char :=
  ts.flatMap arrowText ++ "\x7d\n".toList

theorem isSelfDelimiting_arrowsText : IsSelfDelimiting arrowsText :=
  isSelfDelimiting_arrowText.listed arrowText_append_ne

/-- A cluster starts with a word, an arrow with a quote and the end with a brace. -/
theorem clusterText_append_ne (n : Nat) (x : String × List (String × String))
    (ts : List (String × String × ImportKind)) (rest rest' : List Char) :
    clusterText n x ++ rest ≠ arrowsText ts ++ rest' := by
  cases ts with
  | nil => simp [clusterText, arrowsText]
  | cons t ts => simp [clusterText, arrowsText, arrowText, quoted]

end Render

/-! ## Drawings -/

namespace FileGraph

/-- Each folder group with its files and the labels that are shown for them. -/
def clusters (g : FileGraph) : List (String × List (String × String)) :=
  g.folderGroups.map fun group => (group.path, group.fileIds.map fun id => (id, g.labelOf id))

end FileGraph

namespace Render

def drawingText (x : List (String × List (String × String)) × List (String × String × ImportKind)) :
    List Char :=
  ((x.1.zipIdx 0).flatMap fun y => clusterText y.2 y.1) ++ arrowsText x.2

theorem isSelfDelimiting_drawingText : IsSelfDelimiting drawingText :=
  .numbered isSelfDelimiting_clusterText isSelfDelimiting_arrowsText clusterText_append_ne 0

/-- A line of the drawing with what ends it. -/
def closed (line : String) : List Char := line.toList ++ ['\n']

def header : List Char :=
  ["digraph dependencies \x7b", "  rankdir=LR;", "  node [shape=box, fontname=\"Helvetica\"];"].flatMap
    closed

theorem line_dotNode (g : FileGraph) (id : String) :
    closed (dotNode g id) = nodeText (id, g.labelOf id) := by
  simp [closed, dotNode, nodeText, toList_dotQuote]

theorem line_dotEdge (e : FileEdge) : closed (dotEdge e) = arrowText e.triple := by
  simp [closed, dotEdge, arrowText, styleText, FileEdge.triple, toList_dotQuote]

theorem lines_dotCluster (g : FileGraph) (n : Nat) (group : FolderGroup) :
    (dotCluster g n group).flatMap closed =
      clusterText n (group.path, group.fileIds.map fun id => (id, g.labelOf id)) := by
  have hnodes : (group.fileIds.map (dotNode g)).flatMap closed =
      (group.fileIds.map fun id => (id, g.labelOf id)).flatMap nodeText := by
    simp only [List.flatMap_map, line_dotNode]
  rw [dotCluster, List.cons_append, List.cons_append, List.flatMap_cons, List.flatMap_cons,
    List.flatMap_append, hnodes]
  simp [closed, clusterText, toList_dotQuote]

theorem toList_dot (g : FileGraph) :
    (dot g).toList = header ++ drawingText (g.clusters, g.triples) := by
  have hclusters : (g.folderGroups.zipIdx.flatMap fun x => dotCluster g x.2 x.1).flatMap closed =
      (g.clusters.zipIdx 0).flatMap fun y => clusterText y.2 y.1 := by
    simp only [List.flatMap_assoc, lines_dotCluster, FileGraph.clusters, List.zipIdx_map,
      List.flatMap_map, Prod.map, id]
  have hedges : (g.edges.map dotEdge).flatMap closed = g.triples.flatMap arrowText := by
    simp only [List.flatMap_map, line_dotEdge, FileGraph.triples]
  calc (dot g).toList = (dotLines g).flatMap closed := toList_unlines _
    _ = header ++ (g.folderGroups.zipIdx.flatMap fun x => dotCluster g x.2 x.1).flatMap closed ++
          (g.edges.map dotEdge).flatMap closed ++ closed "\x7d" := by
        simp only [dotLines, header, List.flatMap_append, List.flatMap_cons, List.flatMap_nil,
          List.append_nil, List.append_assoc, List.cons_append]
    _ = header ++ drawingText (g.clusters, g.triples) := by
        rw [hclusters, hedges, drawingText, arrowsText, List.append_assoc, List.append_assoc]
        rfl

/-- Two graphs have the same drawing exactly if they have the same clusters, with the same files and
labels, and the same edges but for their ids. -/
theorem dot_eq_iff (g g' : FileGraph) :
    dot g = dot g' ↔ g.clusters = g'.clusters ∧ g.triples = g'.triples := by
  rw [← String.toList_inj, toList_dot, toList_dot, List.append_cancel_left_eq,
    isSelfDelimiting_drawingText.injective.eq_iff, Prod.mk.injEq]

end Render

end ImportAtlas
