import RelayCheck.CommandLine

/-!
# The program

Reads the schema from the file named on the command line and the document from standard input,
prints the diagnostics, and ends with their exit code. What prevents the check is printed to
standard error.
-/

open RelayCheck

/-- The exit code of a run that could not check anything. -/
def failureExitCode : UInt32 := 1

/-- Check the document on standard input. -/
def main (words : List String) : IO UInt32 := do
  let content ← match Arguments.parse? words with
    | none => pure none
    | some arguments => do
      try
        let text ← IO.FS.readFile arguments.schemaPath
        pure (some text)
      catch _ => pure none
  let input ← (← IO.getStdin).readToEnd
  match commandLine words (fun _ => content) input with
  | .finished code output => do
    IO.print output
    return code.toUInt32
  | .missingFile => do
    IO.eprintln "The schema file cannot be read."
    return failureExitCode
  | .badSchema error => do
    IO.eprintln error.message
    return failureExitCode
  | .badDocument error => do
    IO.eprintln error.message
    return failureExitCode
  | .wordless fault => do
    IO.eprintln fault.message
    return failureExitCode
