import Tracepoint.CommandLine
import Tracepoint.Run.Pipeline
import Tracepoint.Settings.File
import Tracepoint.Tools.Converter
import Tracepoint.Tools.JarSigner
import Tracepoint.Tools.Packer

/-!
# The program

One call of the program reads its arguments and its settings, runs the pipeline on one
artifact with the external tools that the settings name, and says where the results are. A
failure is reported with what was being done, and below it with its causes.
-/

namespace Tracepoint

/-- What a call of the program ends with. -/
structure Exit where
  status : UInt8
  output : String
  errors : String
  deriving DecidableEq, Repr

/-- A fault, with what was being done when it came. -/
structure Failure where
  context : Option String
  fault : Fault
  deriving DecidableEq, Repr

namespace Failure

/-- What was being done, or else the fault itself, and below it the causes. -/
def chain (f : Failure) : List String :=
  f.context.toList ++ f.fault.message :: f.fault.causeMessage?.toList

/-- Lines of which all but the first are indented. -/
def indented (first other text : String) : String :=
  first ++ String.intercalate ("\n" ++ other)
    ((Text.segments '\n' text.toList).map String.ofList)

/-- The wording of causes. Several are numbered. -/
def causes : List String → String
  | [] => ""
  | [cause] => "\n\nCaused by:\n" ++ indented "    " "    " cause
  | several =>
    "\n\nCaused by:" ++ String.join (several.zipIdx.map fun (cause, n) =>
      "\n" ++ indented ("    " ++ toString n ++ ": ") "       " cause)

/-- The report on a failure. -/
def message (f : Failure) : String :=
  match f.chain with
  | [] => "Error: \n"
  | first :: rest => "Error: " ++ first ++ causes rest ++ "\n"

end Failure

namespace Application

/-- What is shown for help. -/
def usage : String :=
  "Usage: covprobe [OPTIONS] --apk <PATH>\n"

/-- What is shown for arguments that cannot be used. -/
def misuse : UsageFault → String
  | .missingRequired => "error: the option --apk is required\n\n" ++ usage
  | .invalidValue => "error: an option has no usable value\n\n" ++ usage
  | .invalidFlag => "error: a value is neither true nor false\n\n" ++ usage
  | .unknownArgument => "error: unexpected argument\n\n" ++ usage
  | .repeated => "error: an option is given more than once\n\n" ++ usage
  | .unexpectedValue => "error: an option that takes no value is given one\n\n" ++ usage
  | .help | .version => usage

variable {σ : Type}

/-- A piece of work of the program, or its failure. -/
abbrev Work (σ α : Type) := EStateM Failure (World σ) α

/-- Work whose fault is the failure, with what is being done. -/
def doing {α : Type} (context : Option String) (work : Run σ α) : Work σ α :=
  EStateM.adaptExcept (Failure.mk context) work

/-- The settings of a call: those of the file that it names, with its options over them. -/
def settings (a : Arguments) : Work σ Settings := do
  let fromFile ← match a.config with
    | some p => doing (some ("Failed to load config " ++ p)) (Settings.ofFile p : Run σ _)
    | none => pure {}
  let s := a.override fromFile
  match s.fault? with
  | none => return s
  | some e => throw ⟨none, .badInput e⟩

/-- The artifact that a call names. -/
def artifact (a : Arguments) : Work σ Artifact := do
  let p ← doing none (Artifact.select a.package : Run σ _)
  doing (some ("Cannot instrument " ++ p)) (Artifact.openAt p : Run σ _)

/-- The pipeline that a call asks for. -/
def pipeline (programs : Programs σ) (a : Arguments) (s : Settings) : Work σ (Pipeline σ) := do
  match JarSigner.ofSettings s.tools (← get).host.home with
  | .error e => throw ⟨none, e⟩
  | .ok signer =>
    return {
      settings := s.instrumentation
      contentTool := Packer.tool ⟨s.tools.java, s.tools.apktoolJar⟩ programs
      backend := (Converter.ofSettings s.tools).backend programs
      signer := signer.signer programs
      contentDir := a.contentDir
      forceExtract := a.forceExtract }

/-- The run of a pipeline, whatever stages it entered. -/
def runPipeline (p : Pipeline σ) (supply : Nat → BitVec 128) (a : Artifact) (outDir : Path) :
    Run σ Outcome := fun w =>
  match p.run supply a outDir w with
  | .ok outcome s => .ok outcome s.world
  | .error e s => .error e s.world

/-- Does what the arguments ask for. -/
def execute (programs : Programs σ) (supply : Nat → BitVec 128) (args : Arguments) :
    Work σ Outcome := do
  let s ← settings args
  let a ← artifact args
  let outDir := args.out.getD a.parent
  let p ← pipeline programs args s
  doing (some ("Failed to instrument " ++ a.fileName)) (runPipeline p supply a outDir)

/-- What is reported of a run that succeeded. -/
def success (o : Outcome) : Exit :=
  match o.manifest with
  | some manifest => ⟨0, o.apk ++ "\n" ++ manifest ++ "\n", ""⟩
  | none => ⟨0, o.apk ++ "\n", "warning: manifest was not written\n"⟩

/-- One call of the program, with random bits for tokens. -/
def run (programs : Programs σ) (supply : Nat → BitVec 128) (args : List String) :
    StateM (World σ) Exit := fun w =>
  match Arguments.parse args with
  | .error .help => (⟨0, usage, ""⟩, w)
  | .error .version => (⟨0, Arguments.versionText, ""⟩, w)
  | .error e => (⟨2, "", misuse e⟩, w)
  | .ok args =>
    match execute programs supply args w with
    | .ok outcome w => (success outcome, w)
    | .error failure w => (⟨1, "", failure.message⟩, w)

end Application

end Tracepoint
