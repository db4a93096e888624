import FormulaCalculator.Transcript

/-!
# The command line

With arguments the program answers the line that they make; without arguments
it answers the lines of its input behind a prompt. The lines of a session that
are not empty are kept in a file in the home directory, by which a later session
knows of it.
-/

set_option autoImplicit false

namespace FormulaCalculator.CommandLine

/-- The name of the file of earlier lines in the home directory. -/
def historyName : String := ".formula_calculator_history"

/-- Writes what a run gives and ends with its code. -/
def write (transcript : Transcript) : IO UInt32 := do
  IO.print transcript.output
  IO.eprint transcript.errors
  return transcript.code.toUInt32

/-- Answers the lines of the input until it ends, and returns those to remember. -/
partial def answerLines (calculator : Calculator) (entered : List String) :
    IO (List String) := do
  IO.print Transcript.prompt
  (← IO.getStdout).flush
  let line ← (← IO.getStdin).getLine
  if line.isEmpty then
    return entered.reverse
  else
    let text := Text.typed line
    IO.print (Transcript.reply calculator text)
    answerLines calculator (if Transcript.isMemorable text then text :: entered else entered)

/-- A session on the standard input. -/
def session : IO UInt32 := do
  match ← IO.getEnv "HOME" with
  | none =>
    IO.eprint "Error: can't find a home directory for the history file\n"
    return 1
  | some home =>
    let path := home ++ "/" ++ historyName
    let earlier ← try pure (some (← IO.FS.readFile path)) catch _ => pure none
    if earlier.isNone then
      IO.print Transcript.noHistory
    let entered ← answerLines {} []
    if !entered.isEmpty then
      IO.FS.writeFile path (earlier.getD "" ++ String.join (entered.map (· ++ "\n")))
    return 0

end FormulaCalculator.CommandLine

/-- Answers the arguments, or the lines of the input if there are none. -/
def main (arguments : List String) : IO UInt32 :=
  if arguments.isEmpty then
    FormulaCalculator.CommandLine.session
  else
    FormulaCalculator.CommandLine.write
      (FormulaCalculator.Transcript.ofRun true ⟨arguments, ""⟩)
