/-
This file runs the passes one after another.

A pass runs only if the one before found no errors, and then reports all of its own. Where
a compilation stops, it stops with a report, or with a fault of the compiler itself.
-/

import PadLang.Report
import PadLang.Token.Scan
import PadLang.Grammar.Stmt
import PadLang.Analysis
import PadLang.Code.Stmt

namespace PadLang

/-- Why a compilation stops. -/
inductive Stop where
  | fault (cause : Fault)
  | rejected (phase : Phase) (report : Report)

/-- A step of a compilation. -/
abbrev Step := Except Stop

/-- A finished compilation: the code, and the warnings of a good build. -/
structure Product where
  code : Code
  warnings : Report

namespace Build

/-- A step that may find the compiler at fault. -/
def guarded {α : Type} (result : Except Fault α) : Step α :=
  result.mapError .fault

/-- Stops with the errors of a phase. -/
def reject {α : Type} (phase : Phase) (report : Report) : Step α :=
  .error (.rejected phase (report.inPhase phase))

/-- Splits a text into tokens. -/
def tokenize (source : String) : Step (List Token) := do
  match Scan.settle (← guarded (Scan.items source)) with
  | .ok tokens => return tokens
  | .error errors => reject .lexical (.of LexicalError.message errors)

/-- Reads the program that tokens form. -/
def parse (tokens : List Token) : Step Program := do
  match ← guarded (Grammar.program tokens) with
  | .ok program => return program
  | .error errors => reject .parsing (.of ParseError.message errors)

/-- The report of warnings. -/
def warningReport (warnings : List (Located Unreachable)) : Report :=
  (Report.of Unreachable.message warnings).asWarnings

/-- Analyses a program and generates its code. -/
def lower (program : Program) : Step Product := do
  match ← guarded (Analysis.analyze program) with
  | .ok analysis =>
    let code ← guarded (Code.generate analysis.program analysis.tree)
    return { code, warnings := (warningReport analysis.warnings).inPhase .semantic }
  | .error rejection =>
    reject .semantic
      ((Report.of Complaint.message rejection.complaints).merge
        (warningReport rejection.warnings))

/-- Compiles a text. -/
def compile (source : String) : Step Product := do
  lower (← parse (← tokenize source))

end Build

end PadLang
