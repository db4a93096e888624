import FormulaCalculator.Session
import FormulaCalculator.Text.Typed

/-!
# What a run of the program writes

With arguments the program answers the one line that they make, and fails if
there is an error. Without arguments it answers the lines of its input one after
another behind a prompt, and an error does not stop it. Such a session is
remembered by later ones if it was told anything.
-/

set_option autoImplicit false

namespace FormulaCalculator

/-- What a run of the program writes, and the code it ends with. -/
structure Transcript where
  output : String
  errors : String
  code : Nat
deriving DecidableEq, Repr

/-- What a run of the program is given. -/
structure Invocation where
  arguments : List String
  input : String
deriving DecidableEq, Repr

namespace Transcript

/-- What is shown at the start when nothing was remembered from earlier runs. -/
def noHistory : String := "No history yet\n"

/-- What asks for a line. -/
def prompt : String := ">> "

/-- The answer to a line of a session, or what is said about the error. -/
def reply (calculator : Calculator) (line : String) : String :=
  match calculator.answer line with
  | .ok text => text ++ "\n"
  | .error error => error.chain ++ "\n"

/-- A run that answers one line and ends. -/
def single (calculator : Calculator) (line : String) : Transcript :=
  match calculator.answer line with
  | .ok text => ⟨text ++ "\n", "", 0⟩
  | .error error => ⟨"", error.report, 1⟩

/-- A run that answers the lines of the input until it ends. -/
def session (calculator : Calculator) (remembers : Bool) (input : String) : Transcript :=
  let replies := (Text.typedLines input).map fun line => prompt ++ reply calculator line
  ⟨(if remembers then "" else noHistory) ++ String.join replies ++ prompt, "", 0⟩

/-- One run. Its arguments make up one line if there are any. `remembers` tells
whether there was a session before. -/
def ofRun (remembers : Bool) (run : Invocation) : Transcript :=
  if run.arguments.isEmpty then session {} remembers run.input
  else single {} (" ".intercalate run.arguments)

/-- Whether later runs know of a line: an empty one is forgotten. -/
def isMemorable (line : String) : Bool := !line.isEmpty

/-- Whether a run is a session that later runs know of. -/
def leavesHistory (run : Invocation) : Bool :=
  run.arguments.isEmpty && (Text.typedLines run.input).any isMemorable

/-- Runs one after another. -/
def ofRuns (remembers : Bool) : List Invocation → List Transcript
  | [] => []
  | run :: runs => ofRun remembers run :: ofRuns (remembers || leavesHistory run) runs

end Transcript

end FormulaCalculator
