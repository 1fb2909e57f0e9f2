import RelayCheck.Check
import RelayCheck.Text.DecimalDigit

/-!
# The command line

The program takes the path of a schema and reads a document from its input. It prints one line
for every diagnostic, with the line and column of its first place, and succeeds if there is none.
With `--compat` it checks in compatibility mode.

This module introduces `Arguments` with `Arguments.parse?`, `Diagnostic.line`, and
`commandLine`, the whole program apart from reading and writing.
-/

namespace RelayCheck

/-! ## Arguments -/

/-- What is asked for on the command line. -/
structure Arguments where
  /-- The path of the schema. -/
  schemaPath : String
  /-- Whether to check in compatibility mode. -/
  compat : Bool
deriving DecidableEq

namespace Arguments

/-- The option for compatibility mode. -/
def compatOption : String := "--compat"

/-- What a word of the command line is. -/
inductive Word
  /-- A path. -/
  | path
  /-- The option for compatibility mode, possibly abbreviated. -/
  | compat
  /-- The mark after which all words are paths. -/
  | separator
  /-- Anything else. -/
  | unknown
deriving DecidableEq

/-- Whether a word is a negative number: a hyphen and decimal digits with or without a point among
or before them. A line feed may follow. -/
def isNegativeNumber (word : String) : Bool :=
  match word.toList with
  | '-' :: number =>
    let number := if number.getLast? == some '\n' then number.dropLast else number
    match number.dropWhile isDecimalDigit with
    | [] => !number.isEmpty
    | '.' :: fraction => !fraction.isEmpty && fraction.all isDecimalDigit
    | _ => false
  | _ => false

/-- The option that asks for help, which is not given here. -/
def helpOption : String := "--help"

/-- The short form of the option that asks for help. -/
def shortHelpOption : String := "-h"

/-- Whether a word is the start of an option, with both hyphens. -/
def abbreviates (word option : String) : Bool :=
  word.startsWith "--" && option.startsWith word

/-- The part of a word before its first equals sign. -/
def beforeValue (word : String) : String :=
  String.ofList (word.toList.takeWhile (· != '='))

/-- Whether a word is an option, possibly abbreviated or followed by a value, though the options
take no values. -/
def looksLikeOption (word : String) : Bool :=
  abbreviates (beforeValue word) compatOption || abbreviates (beforeValue word) helpOption
    || word.startsWith shortHelpOption

/-- What a word before any separator is. Words that start with a hyphen are options unless they
are a lone hyphen, or look like none and are a negative number or contain a blank. Of the options
only that for compatibility mode is accepted, without a value. -/
def classify (word : String) : Word :=
  if !word.startsWith "-" || word == "-" then .path
  else if word == "--" then .separator
  else if abbreviates word compatOption then .compat
  else if looksLikeOption word then .unknown
  else if isNegativeNumber word || word.contains ' ' then .path
  else .unknown

/-- The paths and the mode that words ask for; nothing if there is an unknown word. -/
def collect : List String → Option (List String × Bool)
  | [] => some ([], false)
  | word :: rest =>
    match classify word with
    | .path => (collect rest).map fun (paths, compat) => (word :: paths, compat)
    | .compat => (collect rest).map fun (paths, _) => (paths, true)
    | .separator => some (rest, false)
    | .unknown => none

/-- What is asked for, if exactly one path is given. -/
def parse? (words : List String) : Option Arguments :=
  match collect words with
  | some ([path], compat) => some ⟨path, compat⟩
  | _ => none

end Arguments

/-! ## Output -/

/-- A diagnostic as it is printed. -/
def Diagnostic.line (diagnostic : Diagnostic) : String :=
  match diagnostic.places with
  | [] => diagnostic.problem.message
  | pos :: _ => s!"{pos.line}:{pos.column} " ++ diagnostic.problem.message

/-- What the program prints for diagnostics. -/
def printed (diagnostics : List Diagnostic) : String :=
  String.join (diagnostics.map fun diagnostic => diagnostic.line ++ "\n")

/-- The exit code for diagnostics. -/
def exitCode (diagnostics : List Diagnostic) : Nat :=
  if diagnostics.isEmpty then 0 else 1

/-- The exit code for arguments that ask for nothing the program does. -/
def usageExitCode : Nat := 2

/-- A text with line feeds for all line ends. -/
def normalizeLineEnds (text : String) : String :=
  "\n".intercalate ((splitLines text.toList).map String.ofList)

/-- How a run of the program ends. -/
inductive Run
  /-- With an exit code and what is printed. -/
  | finished (code : Nat) (output : String)
  /-- Without the schema, whose path leads to no file. -/
  | missingFile
  /-- With a text that is no schema. -/
  | badSchema (error : SchemaError)
  /-- With an input that is no document. -/
  | badDocument (error : SyntaxError)
  /-- With an error that cannot be put into words. -/
  | wordless (fault : SuggestionFault)

/-- Check the document in the input against the text of a schema. -/
def runChecked (schemaText input : String) (compat : Bool) (supply : Supply) : Run :=
  match Schema.load (normalizeLineEnds schemaText) with
  | .error error => .badSchema error
  | .ok schema =>
    match schema.checkSource input compat supply with
    | .error (.unreadable error) => .badDocument error
    | .error (.wordless fault) => .wordless fault
    | .ok outcome => .finished (exitCode outcome.errors) (printed outcome.errors)

/-- The program: `read` gives the content of the file at a path, if there is one, and the supply has
the rules that are defined elsewhere. -/
def commandLine (words : List String) (read : String → Option String) (input : String)
    (supply : Supply := {}) : Run :=
  match Arguments.parse? words with
  | none => .finished usageExitCode ""
  | some arguments =>
    match read arguments.schemaPath with
    | none => .missingFile
    | some schemaText => runChecked schemaText input arguments.compat supply

end RelayCheck
