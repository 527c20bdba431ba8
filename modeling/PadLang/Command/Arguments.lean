/-
This file reads the arguments of the command.

Arguments are read from left to right. A word that is no option, a second source, and an
option nobody knows end the reading at once, and so do the two requests that need nothing
else, the version and the help. An option given twice and an option left without its value
are found only when all arguments have been read.
-/

namespace PadLang

namespace Command

/-- What a compilation is asked to do. A dash stands for standard input and output. -/
structure Options where
  /-- The path of the source. -/
  input : String := "-"
  /-- The path of the result. -/
  output : String := "-"
  /-- Whether the tokens are shown. -/
  tokens : Bool := false
  /-- Whether the syntax tree is shown. -/
  tree : Bool := false
deriving DecidableEq, Repr

/-- Why arguments are refused. -/
inductive Misuse where
  | unknown (argument : String)
  | excess (argument : String)
  | repeated
  | valueless
deriving DecidableEq, Repr

/-- The text of a refusal. -/
def Misuse.message : Misuse → String
  | .unknown argument => s!"unexpected argument `{argument}`"
  | .excess argument => s!"more than one source: `{argument}`"
  | .repeated => "an option was given more than once"
  | .valueless => "an option is without its value"

/-- What the arguments as a whole ask for. -/
inductive Request where
  | compile (options : Options)
  | version
  | help
  | refuse (misuse : Misuse)
deriving DecidableEq, Repr

/-- What one argument is. -/
inductive Argument where
  /-- The source, or the value of the option in front. -/
  | word
  /-- The end of the options. -/
  | divider
  | tokens
  | tree
  | version
  | help
  /-- The option that names the result, with its value if that is attached. -/
  | output (attached : Option String)
  | unknown
deriving DecidableEq, Repr

namespace Argument

/-- Reads an option with a long name, given without its two dashes. Only the option that
takes a value has one attached. -/
def ofLong (name : List Char) : Argument :=
  match String.ofList (name.takeWhile (· ≠ '=')), name.dropWhile (· ≠ '=') with
  | "output", [] => .output none
  | "output", _ :: value => .output (some (String.ofList value))
  | "tokens", [] => .tokens
  | "ast", [] => .tree
  | "version", [] => .version
  | "help", [] => .help
  | _, _ => .unknown

/-- Reads an option with a short name, given without its dash. A value may be attached with
or without an equals sign. -/
def ofShort (letter : Char) (rest : List Char) : Argument :=
  match letter, rest with
  | 'V', _ => .version
  | 'h', _ => .help
  | 'o', [] => .output none
  | 'o', '=' :: value => .output (some (String.ofList value))
  | 'o', value => .output (some (String.ofList value))
  | _, _ => .unknown

/-- Reads one argument by its form. A dash alone is a word. -/
def of (argument : String) : Argument :=
  match argument.toList with
  | ['-', '-'] => .divider
  | '-' :: '-' :: name => ofLong name
  | '-' :: letter :: rest => ofShort letter rest
  | _ => .word

end Argument

/-- What has been read so far. -/
structure Tally where
  /-- The source. -/
  input : Option String := none
  /-- The results named, with `none` where the value is missing. -/
  outputs : List (Option String) := []
  /-- How often the tokens were asked for. -/
  tokens : Nat := 0
  /-- How often the tree was asked for. -/
  trees : Nat := 0

namespace Tally

/-- The request of arguments read to their end. -/
def settle (tally : Tally) : Request :=
  let options : Options :=
    { input := tally.input.getD "-"
      tokens := 0 < tally.tokens
      tree := 0 < tally.trees }
  if 1 < tally.tokens ∨ 1 < tally.trees then .refuse .repeated
  else match tally.outputs with
    | [] => .compile options
    | [some output] => .compile { options with output }
    | [none] => .refuse .valueless
    | _ => .refuse .repeated

/-- Takes a word as the source. -/
def withInput (tally : Tally) (word : String) : Except Misuse Tally :=
  match tally.input with
  | none => .ok { tally with input := some word }
  | some _ => .error (.excess word)

/-- Adds a result. -/
def withOutput (tally : Tally) (output : Option String) : Tally :=
  { tally with outputs := tally.outputs ++ [output] }

end Tally

/-- Reads what follows the end of the options: words only. -/
def readWords (tally : Tally) : List String → Request
  | [] => tally.settle
  | word :: rest =>
    match tally.withInput word with
    | .ok next => readWords next rest
    | .error misuse => .refuse misuse

/-- Reads arguments, after some have been read. -/
def readArguments (tally : Tally) : List String → Request
  | [] => tally.settle
  | argument :: rest =>
    match Argument.of argument with
    | .word =>
      match tally.withInput argument with
      | .ok next => readArguments next rest
      | .error misuse => .refuse misuse
    | .divider => readWords tally rest
    | .tokens => readArguments { tally with tokens := tally.tokens + 1 } rest
    | .tree => readArguments { tally with trees := tally.trees + 1 } rest
    | .version => .version
    | .help => .help
    | .unknown => .refuse (.unknown argument)
    | .output (some value) => readArguments (tally.withOutput (some value)) rest
    | .output none =>
      match rest with
      | [] => (tally.withOutput none).settle
      | following :: later =>
        if Argument.of following = .word then
          readArguments (tally.withOutput (some following)) later
        else readArguments (tally.withOutput none) (following :: later)

/-- Reads all arguments. -/
def Request.ofArguments (arguments : List String) : Request :=
  readArguments {} arguments

end Command

end PadLang
