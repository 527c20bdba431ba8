/-
This file is the command itself: it reads a source, compiles it, and delivers the code, the
reports and an exit code.

What lies outside the program is a record of operations in some monad. The same command
thus runs in a real folder, and as a function on a folder that is a value.
-/

import PadLang.Build
import PadLang.Command.Arguments
import PadLang.Syntax.Outline
import PadLang.Text.Utf8

namespace PadLang

namespace Command

/-! ### What lies outside -/

/-- What keeps a file from being read or written. -/
inductive Obstacle where
  | notFound
  | notADirectory
  | isADirectory
  | nameTooLong
  | notText
  | other (cause : String)
deriving DecidableEq, Repr

/-- The text of an obstacle. -/
def Obstacle.message : Obstacle → String
  | .notFound => "No such file or directory (os error 2)"
  | .notADirectory => "Not a directory (os error 20)"
  | .isADirectory => "Is a directory (os error 21)"
  | .nameTooLong => "File name too long (os error 36)"
  | .notText => "stream did not contain valid UTF-8"
  | .other cause => cause

/-- The operations of the outside world that the command needs. -/
structure Host (m : Type → Type) where
  /-- All of standard input. -/
  input : m (Except Obstacle (List UInt8))
  /-- The content of a file. -/
  read : String → m (Except Obstacle (List UInt8))
  /-- Replaces the content of a file, or makes a new one. -/
  write : String → String → m (Except Obstacle Unit)
  /-- Writes to standard output. -/
  print : String → m Unit
  /-- Writes to standard error. -/
  report : String → m Unit

/-! ### Failures -/

/-- Why a run fails. -/
inductive Failure where
  /-- A file, or standard input where there is no path, cannot be read. -/
  | reading (path : Option String) (obstacle : Obstacle)
  /-- A file cannot be written. -/
  | writing (path : String) (obstacle : Obstacle)
  /-- The compilation stops. -/
  | stopped (stop : Stop)

/-- A failure of the outside world as it is reported: what was tried, and the cause. -/
def blockedMessage (attempt : String) (obstacle : Obstacle) : String :=
  "Error: " ++ attempt ++ "\n\nCaused by:\n    " ++ obstacle.message ++ "\n"

/-- What a failure reports. -/
def Failure.message : Failure → String
  | .reading none obstacle => blockedMessage "Failed to read from stdin" obstacle
  | .reading (some path) obstacle => blockedMessage ("Failed to read: " ++ path) obstacle
  | .writing path obstacle => blockedMessage ("Failed to open for writing: " ++ path) obstacle
  | .stopped (.rejected _ report) =>
    report.render ++ s!"Error: Build failed with {report.errorCount} errors\n"
  | .stopped (.fault cause) => cause.message ++ "\n"

/-- The exit code of a failure. A fault of the compiler has one of its own. -/
def Failure.exitCode : Failure → UInt32
  | .stopped (.fault _) => 101
  | _ => 1

/-! ### Running -/

section

variable {m : Type → Type} [Monad m]

/-- Reads the source as text. -/
def readSource (host : Host m) (path : String) : ExceptT Failure m String := do
  let place := if path = "-" then none else some path
  let result : Except Obstacle (List UInt8) ← match place with
    | none => host.input
    | some file => host.read file
  match result with
  | .error obstacle => throw (.reading place obstacle)
  | .ok octets =>
    match Utf8.decode? octets with
    | none => throw (.reading place .notText)
    | some source => return source

/-- A step of a compilation, within a run. -/
def step {α : Type} (result : Step α) : ExceptT Failure m α :=
  match result with
  | .ok value => return value
  | .error stop => throw (.stopped stop)

/-- Compiles a source and shows on the way what the options ask for. -/
def build (host : Host m) (options : Options) (source : String) :
    ExceptT Failure m Product := do
  let tokens ← step (Build.tokenize source)
  if options.tokens then host.report (Token.dump tokens)
  let program ← step (Build.parse tokens)
  if options.tree then host.report (program.outline.render ++ "\n")
  step (Build.lower program)

/-- Delivers the code. -/
def deliver (host : Host m) (path : String) (code : Code) : ExceptT Failure m Unit := do
  if path = "-" then host.print code.render
  else match ← host.write path code.render with
    | .ok _ => return
    | .error obstacle => throw (.writing path obstacle)

/-- Reads, compiles and delivers. Nothing is delivered unless all went well before, and the
warnings of a good build come first. -/
def compile (host : Host m) (options : Options) : ExceptT Failure m Unit := do
  let source ← readSource host options.input
  let product ← build host options source
  host.report product.warnings.render
  deliver host options.output product.code

/-- The answer to a request for the version. -/
def versionText : String := "parlc 1.0.0\n"

/-- The lines of the answer to a request for help. -/
def helpLines : List String :=
  ["parlc 1.0.0",
   "PArL compiler",
   "",
   "USAGE:",
   "    parlc [OPTIONS] [INPUT]",
   "",
   "ARGS:",
   "    <INPUT>    Source file ('-' or absent for stdin)",
   "",
   "OPTIONS:",
   "        --ast              Dump the syntax tree to stderr",
   "    -h, --help             Print help information",
   "    -o, --output <FILE>    Output file ('-' for stdout) [default: -]",
   "        --tokens           Dump the token stream to stderr",
   "    -V, --version          Print version information"]

/-- The answer to a request for help. -/
def helpText : String :=
  String.join (helpLines.map (· ++ "\n"))

/-- Runs the command and gives its exit code. -/
def run (host : Host m) (arguments : List String) : m UInt32 := do
  match Request.ofArguments arguments with
  | .version => host.print versionText; return 0
  | .help => host.print helpText; return 0
  | .refuse misuse => host.report ("error: " ++ misuse.message ++ "\n"); return 2
  | .compile options =>
    match ← (compile host options).run with
    | .ok _ => return 0
    | .error failure => host.report failure.message; return failure.exitCode

end

end Command

end PadLang
