/-
This file puts the findings of all passes into one form: a list of entries, each with the
phase it comes from, its severity, its place and its text, and one line for each.
-/

import PadLang.Position
import PadLang.Text.Escape

namespace PadLang

/-- The phases of a compilation. -/
inductive Phase where
  | lexical
  | parsing
  | semantic
deriving DecidableEq, Repr

/-- How a phase is named in a report. -/
def Phase.render : Phase → String
  | .lexical => "lexical"
  | .parsing => "parsing"
  | .semantic => "semantic"

/-- Whether an entry stops a compilation. -/
inductive Severity where
  | error
  | warning
deriving DecidableEq, Repr

/-- How a severity is named in a report. -/
def Severity.render : Severity → String
  | .error => "error"
  | .warning => "warning"

/-- One finding. -/
structure Entry where
  phase : Phase
  severity : Severity
  position : Position
  text : String
deriving DecidableEq, Repr

/-- The line of a finding. -/
def Entry.render (entry : Entry) : String :=
  entry.phase.render ++ " " ++ entry.severity.render ++ " at " ++ entry.position.render ++ ":: "
    ++ entry.text

/-- Findings in order. -/
structure Report where
  entries : List Entry := []
deriving DecidableEq, Repr

namespace Report

/-- The report of a list of findings. Until told otherwise they are errors of the last
phase. -/
def of {α : Type} (message : α → String) (findings : List (Located α)) : Report :=
  ⟨findings.map fun finding =>
    { phase := .semantic
      severity := .error
      position := finding.position
      text := message finding.value }⟩

/-- The same findings, all from one phase. -/
def inPhase (report : Report) (phase : Phase) : Report :=
  ⟨report.entries.map fun entry => { entry with phase }⟩

/-- The same findings, all as warnings. -/
def asWarnings (report : Report) : Report :=
  ⟨report.entries.map fun entry => { entry with severity := .warning }⟩

/-- The findings of one report, then those of another. -/
def merge (first second : Report) : Report :=
  ⟨first.entries ++ second.entries⟩

/-- How many findings are errors. -/
def errorCount (report : Report) : Nat :=
  (report.entries.filter fun entry => entry.severity == .error).length

/-- The lines of a report. -/
def lines (report : Report) : List String :=
  report.entries.map Entry.render

/-- The text of a report. -/
def render (report : Report) : String :=
  String.join (report.lines.map (· ++ "\n"))

/-- The lines of a report as one bracketed list of quoted strings. -/
def listing (report : Report) : String :=
  "[" ++ ", ".intercalate (report.lines.map Text.quote) ++ "]"

end Report

end PadLang
