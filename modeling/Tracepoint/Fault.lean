import Tracepoint.Code.Document
import Tracepoint.Code.Validity

/-!
# Faults of a run

The stages of a run and everything that can end one. A fault carries what is needed to
tell which stage and which artifact it concerns from its message alone.
-/

namespace Tracepoint

/-- The stages of a run. -/
inductive Stage where
  | extracting
  | patchingCapabilities
  | rebuilding
  | loading
  | injecting
  | signing
  | placing
  | done
  | failed
  deriving DecidableEq, Repr, Inhabited

/-- The name of a stage. -/
def Stage.name : Stage → String
  | extracting => "Extracting"
  | patchingCapabilities => "PatchingCapabilities"
  | rebuilding => "Rebuilding"
  | loading => "Loading"
  | injecting => "Injecting"
  | signing => "Signing"
  | placing => "Placing"
  | done => "Done"
  | failed => "Failed"

/-- Why a file operation failed. -/
inductive FileFault where
  | notFound
  | notADirectory
  | isADirectory
  | alreadyExists
  | nameTooLong
  | invalidName
  | invalidArgument
  | notText
  | other (text : String)
  deriving DecidableEq, Repr, Inhabited

/-- The wording of a file fault. -/
def FileFault.message : FileFault → String
  | notFound => "No such file or directory (os error 2)"
  | notADirectory => "Not a directory (os error 20)"
  | isADirectory => "Is a directory (os error 21)"
  | alreadyExists => "File exists (os error 17)"
  | nameTooLong => "File name too long (os error 36)"
  | invalidName => "file name contained an unexpected NUL byte"
  | invalidArgument => "nul byte found in provided data"
  | notText => "stream did not contain valid UTF-8"
  | other text => text

/-- What is wrong with the configuration or with the input of a run. -/
inductive InputFault where
  | malformedToml
  | hookEmpty
  | channelEmpty
  | suffixEmpty
  | excludesEverything (start : String)
  | templateEmpty (template : String)
  | malformedManifest
  | malformedUnit (path : String) (cause : DocumentError)
  | noArchive (dir : String)
  | notAFile (path : String)
  | noFileName (path : String)
  | noClosingTag (path : String)
  | noKeystore
  | other (text : String)
  deriving DecidableEq, Repr, Inhabited

/-- The wording of an input fault. -/
def InputFault.message : InputFault → String
  | malformedToml => "failed to parse TOML"
  | hookEmpty => "hook_class and hook_method must not be empty"
  | channelEmpty => "channel must not be empty"
  | suffixEmpty => "manifest_suffix must not be empty"
  | excludesEverything start =>
    "excluded prefix " ++ Text.quote start ++ " would exclude every unit"
  | templateEmpty template => template ++ " command template is empty"
  | malformedManifest => "invalid manifest JSON"
  | malformedUnit path .malformed => "malformed unit " ++ path
  | malformedUnit path (.labels e) => "malformed unit " ++ path ++ ": " ++ e.message
  | noArchive dir => "no uninstrumented .apk file in " ++ dir
  | notAFile path => "artifact " ++ path ++ " is not a file"
  | noFileName path => "artifact " ++ path ++ " has no file name"
  | noClosingTag path => "descriptor " ++ path ++ " has no closing </manifest> tag"
  | noKeystore => "no keystore configured and HOME is not set"
  | other text => text

/-- What ends a run. -/
inductive Fault where
  /-- An external tool could not be run or reported a failure. -/
  | toolFailure (stage : Stage) (artifact tool detail : String)
  /-- A stage ended without the file that it should have made. -/
  | missingOutput (stage : Stage) (path : String)
  /-- A body breaks a rule after probes were inserted. -/
  | invalidBody (method : String) (cause : BodyFault)
  /-- The manifest could not be written. -/
  | manifestUnwritten (path : String) (cause : FileFault)
  /-- The tracing hook is not among the loaded units. -/
  | hookUnavailable (owner method : String)
  /-- The configuration or the input is not usable. -/
  | badInput (cause : InputFault)
  /-- Any other file operation failed. -/
  | file (context : String) (cause : FileFault)
  deriving DecidableEq, Repr, Inhabited

namespace Fault

/-- The wording of a fault. -/
def message : Fault → String
  | toolFailure stage artifact tool detail =>
    stage.name ++ " failed for " ++ artifact ++ ": " ++ tool ++ " reported: " ++ detail
  | missingOutput stage path => stage.name ++ " produced no output: expected " ++ path
  | invalidBody method cause => "rewritten body of " ++ method ++ " is invalid: " ++ cause.message
  | manifestUnwritten path cause =>
    "failed to write instrumentation manifest " ++ path ++ ": " ++ cause.message
  | hookUnavailable owner method => "tracing hook " ++ owner ++ "." ++ method ++ " is not loaded"
  | badInput cause => "invalid configuration: " ++ cause.message
  | file context cause => context ++ ": " ++ cause.message

/-- The stage that a fault is charged to, when it has one. -/
def stage? : Fault → Option Stage
  | toolFailure stage _ _ _ | missingOutput stage _ => some stage
  | invalidBody _ _ | hookUnavailable _ _ => some .injecting
  | manifestUnwritten _ _ => some .placing
  | badInput _ | file _ _ => none

/-- The wording of what lies behind a fault. -/
def causeMessage? : Fault → Option String
  | invalidBody _ cause => some cause.message
  | manifestUnwritten _ cause | file _ cause => some cause.message
  | _ => none

end Fault

end Tracepoint
