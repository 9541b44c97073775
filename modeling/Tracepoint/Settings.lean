import Tracepoint.Toml.Parser
import Tracepoint.Text.Blank
import Tracepoint.Probe.Hook
import Tracepoint.Probe.Location
import Tracepoint.Policy
import Tracepoint.Tools.Template

/-!
# Settings

The settings of a run: what gets probes and how, and the external tools. Every setting has
a default. Settings are read from a TOML document of two tables; a table may also be
written as an array of its settings in order. They are judged after they have been read.
-/

namespace Tracepoint

/-- What gets probes and how. -/
structure InstrumentationSettings where
  helperUnits : List String := Hook.defaultHelpers
  excludedPrefixes : List String := Policy.defaultExcluded
  hookClass : String := Hook.defaultOwner
  hookMethod : String := Hook.defaultMethod
  channel : String := Hook.defaultChannel
  idStrategy : IdStrategy := .counter
  locationFormat : LocationFormat := .statement
  copiesToLog : Bool := false
  scopedToApp : Bool := false
  strictManifest : Bool := false
  manifestSuffix : String := ".json"
  deriving DecidableEq, Repr, Inhabited

/-- The external tools. The two converters are command templates. -/
structure ToolSettings where
  java : String := "java"
  apktoolJar : Path := "apktool.jar"
  jarsigner : String := "jarsigner"
  keystore : Option Path := none
  keystoreAlias : String := "androiddebugkey"
  keystorePassword : String := "android"
  disassembler : List String := ["covprobe-dex2ir", Template.inputPlace, Template.outputPlace]
  assembler : List String :=
    ["covprobe-ir2dex", Template.inputPlace, Template.archivePlace, Template.outputPlace]
  supportDir : Option Path := none
  deriving DecidableEq, Repr, Inhabited

/-- The settings of a run. -/
structure Settings where
  instrumentation : InstrumentationSettings := {}
  tools : ToolSettings := {}
  deriving DecidableEq, Repr, Inhabited

namespace Settings

/-- The first thing that makes settings unusable. -/
def fault? (s : Settings) : Option InputFault :=
  let i := s.instrumentation
  if Text.isAllBlank i.hookClass || Text.isAllBlank i.hookMethod then some .hookEmpty
  else if i.channel.isEmpty then some .channelEmpty
  else if i.manifestSuffix.isEmpty then some .suffixEmpty
  else if i.excludedPrefixes.contains "" then some (.excludesEverything "")
  else if s.tools.disassembler.isEmpty then some (.templateEmpty "disassembler")
  else if s.tools.assembler.isEmpty then some (.templateEmpty "assembler")
  else none

/-- Accepts usable settings. -/
def validate (s : Settings) : Except Fault Unit :=
  match s.fault? with
  | none => .ok ()
  | some e => .error (.badInput e)

end Settings

/-! ### Reading -/

namespace Toml

/-- The text of a string. -/
def asText? : Toml → Option String
  | .string s => some s
  | _ => none

/-- A truth value. -/
def asBool? : Toml → Option Bool
  | .boolean b => some b
  | _ => none

/-- The texts of an array of strings. -/
def asTexts? : Toml → Option (List String)
  | .array items => items.mapM asText?
  | _ => none

/-- Whether a value is an empty array or table. -/
def isEmpty : Toml → Bool
  | .array [] => true
  | .table _ [] => true
  | _ => false

/-- The name of a choice: a string, or a table of one empty value under that name. -/
def choice? : Toml → Option String
  | .string s => some s
  | .table _ [(name, v)] => if v.isEmpty then some name else none
  | _ => none

/-- Reads the settings of a table, or of an array that holds them in order; what an array
holds beyond them is passed over. -/
def section? {σ : Type} (names : List String) (set : String → Toml → σ → Option σ) (start : σ) :
    Toml → Option σ
  | .table _ entries => entries.foldlM (fun s e => set e.1 e.2 s) start
  | .array items => (names.zip items).foldlM (fun s e => set e.1 e.2 s) start
  | .tables ts =>
    (names.zip (ts.map (Toml.table .header))).foldlM (fun s e => set e.1 e.2 s) start
  | _ => none

end Toml

/-- The strategy of a name. -/
def IdStrategy.ofName? : String → Option IdStrategy
  | "counter" => some .counter
  | "token" => some .token
  | _ => none

/-- The name of a strategy. -/
def IdStrategy.name : IdStrategy → String
  | .counter => "counter"
  | .token => "token"

/-- The format of a name. -/
def LocationFormat.ofName? : String → Option LocationFormat
  | "statement" => some .statement
  | "qualified" => some .qualified
  | _ => none

/-- The name of a format. -/
def LocationFormat.name : LocationFormat → String
  | .statement => "statement"
  | .qualified => "qualified"

namespace InstrumentationSettings

/-- The names of the settings, in order. -/
def names : List String :=
  ["helper_units", "excluded_prefixes", "hook_class", "hook_method", "channel", "id_strategy",
   "location_format", "mirror_to_log", "scope_to_app", "strict_manifest", "manifest_suffix"]

/-- Reads one setting; there are no others than the named ones. -/
def set? (name : String) (v : Toml) (s : InstrumentationSettings) :
    Option InstrumentationSettings :=
  match name with
  | "helper_units" => return { s with helperUnits := ← v.asTexts? }
  | "excluded_prefixes" => return { s with excludedPrefixes := ← v.asTexts? }
  | "hook_class" => return { s with hookClass := ← v.asText? }
  | "hook_method" => return { s with hookMethod := ← v.asText? }
  | "channel" => return { s with channel := ← v.asText? }
  | "id_strategy" => return { s with idStrategy := ← v.choice?.bind IdStrategy.ofName? }
  | "location_format" =>
    return { s with locationFormat := ← v.choice?.bind LocationFormat.ofName? }
  | "mirror_to_log" => return { s with copiesToLog := ← v.asBool? }
  | "scope_to_app" => return { s with scopedToApp := ← v.asBool? }
  | "strict_manifest" => return { s with strictManifest := ← v.asBool? }
  | "manifest_suffix" => return { s with manifestSuffix := ← v.asText? }
  | _ => none

/-- The JSON form of the settings. -/
def toJson (s : InstrumentationSettings) : Json :=
  .record [("helper_units", .list (s.helperUnits.map .text)),
    ("excluded_prefixes", .list (s.excludedPrefixes.map .text)),
    ("hook_class", .text s.hookClass), ("hook_method", .text s.hookMethod),
    ("channel", .text s.channel), ("id_strategy", .text s.idStrategy.name),
    ("location_format", .text s.locationFormat.name), ("mirror_to_log", .bool s.copiesToLog),
    ("scope_to_app", .bool s.scopedToApp), ("strict_manifest", .bool s.strictManifest),
    ("manifest_suffix", .text s.manifestSuffix)]

end InstrumentationSettings

namespace ToolSettings

/-- The names of the settings, in order. -/
def names : List String :=
  ["java", "apktool_jar", "jarsigner", "keystore", "keystore_alias", "keystore_password",
   "disassembler", "assembler", "support_dir"]

/-- Reads one setting; there are no others than the named ones. -/
def set? (name : String) (v : Toml) (s : ToolSettings) : Option ToolSettings :=
  match name with
  | "java" => return { s with java := ← v.asText? }
  | "apktool_jar" => return { s with apktoolJar := ← v.asText? }
  | "jarsigner" => return { s with jarsigner := ← v.asText? }
  | "keystore" => return { s with keystore := some (← v.asText?) }
  | "keystore_alias" => return { s with keystoreAlias := ← v.asText? }
  | "keystore_password" => return { s with keystorePassword := ← v.asText? }
  | "disassembler" => return { s with disassembler := ← v.asTexts? }
  | "assembler" => return { s with assembler := ← v.asTexts? }
  | "support_dir" => return { s with supportDir := some (← v.asText?) }
  | _ => none

/-- The JSON form of the settings. -/
def toJson (s : ToolSettings) : Json :=
  .record [("java", .text s.java), ("apktool_jar", .text s.apktoolJar),
    ("jarsigner", .text s.jarsigner), ("keystore", .optional .text s.keystore),
    ("keystore_alias", .text s.keystoreAlias), ("keystore_password", .text s.keystorePassword),
    ("disassembler", .list (s.disassembler.map .text)),
    ("assembler", .list (s.assembler.map .text)), ("support_dir", .optional .text s.supportDir)]

end ToolSettings

namespace Settings

/-- Reads one table of settings. -/
def set? (name : String) (v : Toml) (s : Settings) : Option Settings :=
  match name with
  | "instrumentation" =>
    return { s with
      instrumentation :=
        ← v.section? InstrumentationSettings.names InstrumentationSettings.set? {} }
  | "tools" => return { s with tools := ← v.section? ToolSettings.names ToolSettings.set? {} }
  | _ => none

/-- Reads the settings of a document. -/
def read? (s : String) : Option Settings := do
  (← Toml.parse? s).foldlM (fun s e => set? e.1 e.2 s) {}

/-- Reads and judges the settings of a document. -/
def ofToml (s : String) : Except Fault Settings :=
  match read? s with
  | none => .error (.badInput .malformedToml)
  | some settings =>
    match settings.fault? with
    | none => .ok settings
    | some e => .error (.badInput e)

/-- The JSON form of the settings. -/
def toJson (s : Settings) : Json :=
  .record [("instrumentation", s.instrumentation.toJson), ("tools", s.tools.toJson)]

end Settings

end Tracepoint
