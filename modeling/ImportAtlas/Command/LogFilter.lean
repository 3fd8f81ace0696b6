import ImportAtlas.Log
import ImportAtlas.Text.Fields

/-!
# Log filters

Which messages are shown. A filter is a list of directives, each a level, the name of a part of the
program, or both; for a message the directive with the longest matching name counts, and of two as
long the later one.
-/

namespace ImportAtlas.Command

open Text

/-- A level to show, by its rank; zero shows nothing. -/
structure LogDirective where
  target : Option String
  rank : Nat
  deriving DecidableEq, Repr, Inhabited

abbrev LogFilter := List LogDirective

namespace LogFilter

def rankOfName? (name : String) : Option Nat :=
  let lower := String.ofList (name.toList.map Char.toLower)
  if lower == "off" then some 0
  else if lower == "error" then some 1
  else if lower == "warn" then some 2
  else if lower == "info" then some 3
  else if lower == "debug" then some 4
  else if lower == "trace" then some 5
  else none

/-- One directive. A name alone shows everything, and an unknown level makes the directive void. -/
def directive? (text : String) : Option LogDirective :=
  match fields (· == '=') text with
  | [part] => if part.isEmpty then none else
    match rankOfName? part with
    | some rank => some ⟨none, rank⟩
    | none => some ⟨some part, 5⟩
  | [target, level] =>
    if level.isEmpty then some ⟨some target, 5⟩
    else (rankOfName? level).map (⟨some target, ·⟩)
  | _ => none

/-- A filter as it is written. One without directives shows errors only. -/
def parse (text : String) : LogFilter :=
  let body := String.ofList (text.toList.takeWhile (· != '/'))
  let directives := (fields (· == ',') body).filterMap directive?
  if directives.isEmpty then [⟨none, 1⟩] else directives

def ofVerbosity : Nat → LogFilter
  | 0 => [⟨none, 2⟩]
  | 1 => [⟨none, 3⟩]
  | 2 => [⟨none, 4⟩]
  | _ => [⟨none, 5⟩]

def nameLength (d : LogDirective) : Nat := (d.target.map String.length).getD 0

def applies (target : String) (d : LogDirective) : Bool :=
  match d.target with
  | none => true
  | some name => name.toList.isPrefixOf target.toList

def rankFor (f : LogFilter) (target : String) : Nat :=
  ((f.filter (applies target)).foldl
    (fun best d => if nameLength best ≤ nameLength d then d else best) ⟨none, 0⟩).rank

end LogFilter

/-- The name of a part of the program in its log. -/
def logTarget (area : Log.Area) : String := "repograph::" ++ area.name

/-- A message as a line of the log. Further lines of it are set off by four spaces. -/
def logLine (clock : String) (e : Log.Entry) : String :=
  let text :=
    String.ofList (e.text.toList.flatMap fun c => if c == '\n' then "\n    ".toList else [c])
  "[" ++ clock ++ " " ++ e.level.name ++ (if e.level.name.length < 5 then " " else "") ++ " " ++
    logTarget e.area ++ "] " ++ text ++ "\n"

end ImportAtlas.Command
