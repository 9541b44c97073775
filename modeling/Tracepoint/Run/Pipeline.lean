import Tracepoint.Artifact
import Tracepoint.Descriptor.File
import Tracepoint.Manifest.File
import Tracepoint.Probe.Injection
import Tracepoint.Settings
import Tracepoint.Tools.Collaborators

/-!
# The pipeline

A run takes one artifact through its stages: its content is extracted unless kept content
is current, the descriptor is patched, the archive is rebuilt, its code is loaded, probed
and written back, and the result is signed and placed with its manifest. The first fault
ends a run. The stages that were entered are known afterwards, and the work directory is
gone, however a run ends.
-/

namespace Tracepoint

/-- The state of a run: the world, and the stages that were entered, in order. -/
structure Session (σ : Type) where
  world : World σ
  stages : List Stage

/-- A piece of work in a run, or the fault that ended it. -/
abbrev Step (σ α : Type) := EStateM Fault (Session σ) α

instance {σ : Type} : MonadLift (Run σ) (Step σ) where
  monadLift work := zoom Session.world (fun world s => { s with world }) work

/-- What a run made. -/
structure Outcome where
  /-- The published archive. -/
  apk : Path
  /-- The published manifest, unless it could not be written. -/
  manifest : Option Path
  probes : Nat
  report : InjectionReport
  /-- The stages of the run, in order. -/
  stages : List Stage
  deriving DecidableEq, Repr

/-- Whether content has to be extracted from an artifact: kept content is good when it has a
descriptor and its directory is not older than the artifact. -/
def needsExtraction (a : Artifact) (content : Path) (force : Bool) : FileWork Bool := do
  if force || !(← get).isFile (Descriptor.pathIn content) then return true
  else
    let extracted ← (FileAction.ask (·.modified content)).within ("failed to stat " ++ content)
    return extracted < (← a.modified)

/-- What a pipeline works with. -/
structure Pipeline (σ : Type) where
  settings : InstrumentationSettings
  contentTool : ContentTool σ
  backend : Backend σ
  signer : Signer σ
  /-- Where extracted content is kept between runs. -/
  contentDir : Option Path := none
  /-- Whether kept content is never good. -/
  forceExtract : Bool := false

namespace Pipeline

variable {σ : Type}

/-- The policy of a run, with the names of the loaded support units and the package of the
application. -/
def policy (s : InstrumentationSettings) (support : List String) (ns : Option String) : Policy :=
  let p : Policy := ⟨s.helperUnits ++ support ++ [s.hookClass], s.excludedPrefixes, none⟩
  match s.scopedToApp, ns with
  | true, some ns => p.scopedTo ns
  | _, _ => p

/-- The registry with its probes, their records and the report on them. -/
def instrument (s : InstrumentationSettings) (supply : Nat → BitVec 128) (ns : Option String)
    (r : Registry) : Except Fault (Registry × List ProbeRecord × InjectionReport) :=
  match Hook.resolve r s.hookClass s.hookMethod s.channel s.copiesToLog with
  | .error e => .error e
  | .ok (hook, r) =>
    let injector : Injector := ⟨policy s r.support ns, hook, s.locationFormat⟩
    let outcome := injector.inject r (.ofStrategy supply s.idStrategy)
    match outcome.result with
    | .error e => .error e
    | .ok (records, report) => .ok (outcome.registry, records, report)

/-- Writes the manifest into a directory. Unless the settings are strict, a manifest that
could not be written is left out. -/
def publishManifest (s : InstrumentationSettings) (m : Manifest) (dir : Path) :
    FileWork (Option Path) := fun h =>
  match m.writeTo dir s.manifestSuffix h with
  | .ok p h => .ok (some p) h
  | .error e h => if s.strictManifest then .error e h else .ok none h

/-- Moves the staged archive into its place. If that fails the manifest is removed. -/
def publishArchive (staged apk : Path) (manifest : Option Path) : FileWork Unit := fun h =>
  match (FileAction.moveFile staged apk).within ("failed to place " ++ apk) h with
  | .ok () h => .ok () h
  | .error e h =>
    match manifest with
    | none => .error e h
    | some p =>
      match FileAction.removeFile p h with
      | .ok () h | .error _ h => .error e h

/-- Places a signed archive and the manifest of its probes in a directory, and says where
they are. -/
def place (s : InstrumentationSettings) (a : Artifact) (records : List ProbeRecord)
    (signed dir : Path) : FileWork (Path × Option Path) := do
  (FileAction.createDirAll dir).within ("failed to create " ++ dir)
  let apk := Path.join dir a.instrumentedName
  let staged ← (FileAction.stageCopy signed dir).within
    ("failed to stage " ++ signed ++ " in " ++ dir)
  FileAction.orRemove staged do
    let manifest ← publishManifest s ⟨a.fileName, records⟩ dir
    publishArchive staged apk manifest
    return (apk, manifest)

/-- Enters a stage. -/
def enter (stage : Stage) : Step σ Unit :=
  modify fun s => { s with stages := s.stages ++ [stage] }

/-- Works in a temporary directory, which is removed in the end. -/
def withWorkDir {α : Type} (work : Path → Step σ α) : Step σ α := do
  let dir ← (FileAction.makeTempDir.within "failed to create work dir" : Run σ _)
  let discard (s : Session σ) : Session σ :=
    match FileAction.removeDirAll dir s.world.host with
    | .ok _ host | .error _ host => { s with world := { s.world with host } }
  fun s =>
    match work dir s with
    | .ok a s => .ok a (discard s)
    | .error e s => .error e (discard s)

/-- Extracts the content of an artifact, unless kept content is current. -/
def extract (p : Pipeline σ) (a : Artifact) (content : Path) : Step σ Unit := do
  if ← (needsExtraction a content p.forceExtract : Run σ _) then
    enter .extracting
    (p.contentTool.extract a.path content : Run σ _)
    (requireOutput .extracting (Descriptor.pathIn content) : Run σ _)

/-- Gives the descriptor the permission that probes need, and says what package it names. -/
def patch (content : Path) : Step σ (Option String) := do
  enter .patchingCapabilities
  let _ ← (Descriptor.ensure content Descriptor.internetPermission : Run σ _)
  (Descriptor.packageIn? content : Run σ _)

/-- Packs the patched content, and says where the archive is. -/
def rebuild (p : Pipeline σ) (a : Artifact) (content workDir : Path) : Step σ Path := do
  enter .rebuilding
  let dir := Path.join workDir "rebuilt"
  ((FileAction.createDirAll dir).within ("failed to create " ++ dir) : Run σ _)
  let rebuilt := Path.join dir a.fileName
  (p.contentTool.build content rebuilt : Run σ _)
  (requireOutput .rebuilding rebuilt : Run σ _)
  return rebuilt

/-- Loads the code of the rebuilt archive. -/
def load (p : Pipeline σ) (rebuilt workDir : Path) : Step σ Registry := do
  enter .loading
  ((p.backend.load rebuilt workDir).registry : Run σ _)

/-- Injects the probes and writes the code back. Says where the archive is, and what was
injected. -/
def inject (p : Pipeline σ) (supply : Nat → BitVec 128) (ns : Option String) (r : Registry)
    (rebuilt workDir : Path) : Step σ (Path × List ProbeRecord × InjectionReport) := do
  enter .injecting
  match instrument p.settings supply ns r with
  | .error e => throw e
  | .ok (r, records, report) =>
    let instrumented ← (p.backend.write r rebuilt workDir : Run σ _)
    (requireOutput .injecting instrumented : Run σ _)
    return (instrumented, records, report)

/-- Signs the instrumented archive, and says where the signed copy is. -/
def sign (p : Pipeline σ) (instrumented : Path) : Step σ Path := do
  enter .signing
  let signed ← (p.signer.sign instrumented : Run σ _)
  (requireOutput .signing signed : Run σ _)
  return signed

/-- Takes an artifact through the stages, with a directory to work in. -/
def steps (p : Pipeline σ) (supply : Nat → BitVec 128) (a : Artifact) (outDir workDir : Path) :
    Step σ Outcome := do
  let content := p.contentDir.getD (Path.join workDir "content")
  p.extract a content
  let ns ← patch content
  let rebuilt ← p.rebuild a content workDir
  let registry ← p.load rebuilt workDir
  let (instrumented, records, report) ← p.inject supply ns registry rebuilt workDir
  let signed ← p.sign instrumented
  enter .placing
  let (apk, manifest) ← (place p.settings a records signed outDir : Run σ _)
  enter .done
  return ⟨apk, manifest, records.length, report, (← get).stages⟩

/-- Runs the pipeline on an artifact, with random bits for tokens, and publishes the result
in a directory. -/
def run (p : Pipeline σ) (supply : Nat → BitVec 128) (a : Artifact) (outDir : Path)
    (w : World σ) : EStateM.Result Fault (Session σ) Outcome :=
  withWorkDir (p.steps supply a outDir) ⟨w, []⟩

end Pipeline

end Tracepoint
