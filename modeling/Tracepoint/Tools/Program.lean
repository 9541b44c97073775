import Tracepoint.Run.World
import Tracepoint.Text.Blank
import Tracepoint.Text.Lossy

/-!
# External programs

What a world does when a program is asked for is given from outside. A run only sees
whether the program was started, its exit status and what it wrote to its error output; a
status other than zero is a failure of the stage that asked for the program.
-/

namespace Tracepoint

/-- How a program that was asked for ended. -/
inductive ProgramResult where
  | notStarted (cause : FileFault)
  | exited (status : UInt8) (errors : ByteArray)
  deriving DecidableEq

/-- What the world does when a program is asked for with some arguments. -/
abbrev Programs (σ : Type) := String → List String → StateM (World σ) ProgramResult

namespace ProgramResult

/-- What is reported of a program that failed. -/
def failure? : ProgramResult → Option String
  | notStarted cause => some ("failed to execute: " ++ cause.message)
  | exited status errors =>
    if status = 0 then none
    else some ("exited with exit status: " ++ toString status.toNat ++ ": "
      ++ Text.trim (Text.ofBytes errors))

end ProgramResult

namespace Programs

variable {σ : Type}

/-- Asks for a program. No word of a command can hold the character that ends words. -/
def call (programs : Programs σ) (program : String) (args : List String) :
    StateM (World σ) ProgramResult :=
  if (program :: args).any fun word => word.toList.contains '\x00' then
    return .notStarted .invalidArgument
  else programs program args

/-- Runs a program for a stage that works on an artifact. -/
def run (programs : Programs σ) (stage : Stage) (artifact : Path) (program : String)
    (args : List String) : Run σ Unit := fun w =>
  match programs.call program args w with
  | (result, w) =>
    match result.failure? with
    | none => .ok () w
    | some detail => .error (.toolFailure stage (Path.displayName artifact) program detail) w

end Programs

end Tracepoint
