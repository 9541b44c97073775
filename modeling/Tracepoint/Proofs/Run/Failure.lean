import Tracepoint.Proofs.Probe.Injection
import Tracepoint.Proofs.Run.Sparing

/-!
# Runs that fail

A run that fails leaves the files of the output directory as they were, with one exception: the
file at the place of the manifest is gone when the run failed at the last move, after the
manifest had been replaced (`Pipeline.run_eq_error`). Everything before the last stage spares
the output directory if the collaborators do, and so does the last stage up to that exception;
the work directory is new, so its removal takes nothing away that was there before.
-/

namespace Tracepoint

open Host FileTree
open Hosted (host)

/-! ### Failures -/

/-- A failure of an action spares the places in `keep`, apart from files that were in `edited` and
from files that are lost with the fault. -/
def FailsSparing {τ α : Type} [Hosted τ] (workingDir : Location) (keep edited : Set Location)
    (lost : Fault → Set Location) (x : EStateM Fault τ α) : Prop :=
  ∀ s e s', (host s).Sound → (host s).workingDir = workingDir → x s = .error e s' →
    (host s').workingDir = workingDir ∧
      ∀ l ∈ keep, (host s').files.content? l = (host s).files.content? l ∨
        (l ∈ edited ∧ (host s).files.content? l ≠ none) ∨
        (l ∈ lost e ∧ (host s').files.content? l = none)

section

variable {τ τ' α β : Type} [Hosted τ] [Hosted τ'] {wd : Location} {keep edited : Set Location}
  {lost : Fault → Set Location}

theorem Spares.failsSparing {x : EStateM Fault τ α} (spares : Spares wd keep edited x) :
    FailsSparing wd keep edited lost x := by
  intro s e s' sound here failed
  have spared := spares s sound here
  rw [left_of_error failed] at spared
  exact ⟨spared.workingDir.trans here, fun l kept => (spared.content l kept).imp_right .inl⟩

/-- A failure after an action that spares is a failure of either. -/
theorem Spares.bind_failsSparing {x : EStateM Fault τ α} {f : α → EStateM Fault τ β}
    (first : Spares wd keep edited x)
    (later : ∀ s a s', x s = .ok a s' → FailsSparing wd keep edited lost (f a)) :
    FailsSparing wd keep edited lost (x >>= f) := by
  intro s e s' sound here failed
  rcases bind_eq_error_iff.mp failed with refused | ⟨a, mid, done, rest⟩
  · exact first.failsSparing s e s' sound here refused
  · have spared := first s sound here
    rw [left_of_ok done] at spared
    obtain ⟨here', contents⟩ :=
      later s a mid done mid e s' spared.sound (spared.workingDir.trans here) rest
    refine ⟨here', fun l kept => ?_⟩
    rcases spared.content l kept with same | before
    · rw [← same]
      exact contents l kept
    · exact .inr (.inl before)

/-- What never fails adds no failure. -/
theorem FailsSparing.bind_total {x : EStateM Fault τ α} {f : α → EStateM Fault τ β}
    (first : FailsSparing wd keep edited lost x) (total : ∀ a s, ∃ b s', f a s = .ok b s') :
    FailsSparing wd keep edited lost (x >>= f) := by
  intro s e s' sound here failed
  rcases bind_eq_error_iff.mp failed with refused | ⟨a, mid, done, rest⟩
  · exact first s e s' sound here refused
  · obtain ⟨b, s'', ok⟩ := total a mid
    rw [ok] at rest
    cases rest

theorem FailsSparing.zoom {part : τ → τ'} {replace : τ' → τ → τ} {x : EStateM Fault τ' α}
    (fails : FailsSparing wd keep edited lost x) (from' : ∀ s, host (part s) = host s)
    (into : ∀ t s, host (replace t s) = host t) :
    FailsSparing wd keep edited lost (zoom part replace x) := by
  intro s e s' sound here failed
  obtain ⟨t, refused, rfl⟩ := zoom_eq_error_iff.mp failed
  rw [← from' s] at sound here ⊢
  rw [into]
  exact fails (part s) e t sound here refused

theorem FailsSparing.onSession {σ : Type} {x : FileWork α}
    (fails : FailsSparing wd keep edited lost x) :
    FailsSparing wd keep edited lost ((x : Run σ α) : Step σ α) := by
  have onWorld : FailsSparing wd keep edited lost (x : Run σ α) :=
    fails.zoom (fun _ => rfl) fun _ _ => rfl
  exact onWorld.zoom (fun _ => rfl) fun _ _ => rfl

end

namespace Pipeline

variable {σ : Type} {p : Pipeline σ} {a : Artifact} {work outDir : Path} {wd : Location}
  {keep : Set Location} {e : Fault}

/-! ### The stages of a run -/

/-- The place that a run puts the manifest of an artifact in. -/
def manifestPlace (s : InstrumentationSettings) (a : Artifact) (outDir : Path) (wd : Location) :
    Location :=
  (Path.join outDir (a.fileName ++ s.manifestSuffix)).place wd

/-- What is lost with the fault of the last move: the file at the place of the manifest. -/
def lost (s : InstrumentationSettings) (a : Artifact) (outDir : Path) (wd : Location) (e : Fault) :
    Set Location :=
  {l | l = manifestPlace s a outDir wd ∧ IsMisplacement (Path.join outDir a.instrumentedName) e}

theorem place_failsSparing {s : InstrumentationSettings} {records : List ProbeRecord}
    {signed : Path} {edited : Set Location} :
    FailsSparing wd keep edited (lost s a outDir wd) (place s a records signed outDir) := by
  intro h e h' sound here failed
  obtain ⟨edits, manifest⟩ := place_eq_error sound failed
  refine ⟨edits.workingDir.trans here, fun l _ => ?_⟩
  have place : manifestPlace s a outDir wd =
      (Path.join outDir (a.fileName ++ s.manifestSuffix)).place (Host.workingDir h) := by
    rw [manifestPlace, ← here]
    rfl
  by_cases same : l = manifestPlace s a outDir wd
  · rw [place] at same
    subst same
    refine manifest.imp_right fun ⟨gone, misplaced⟩ => .inr ⟨⟨place.symm, misplaced⟩, gone⟩
  · rw [place] at same
    exact .inl (edits.content l same)

/-- A failure of the stages spares what the collaborators spare, apart from the descriptor of the
content and from the manifest that is lost with the fault of the last move. -/
theorem CollaboratorsSpare.steps_failsSparing (spare : p.CollaboratorsSpare a work wd keep)
    {supply : Nat → BitVec 128} :
    FailsSparing wd keep {(Descriptor.pathIn (p.contentIn work)).place wd}
      (lost p.settings a outDir wd) (p.steps supply a outDir work) := by
  rw [steps_eq]
  refine (spare.spares_produce supply).bind_failsSparing fun _ x _ _ => ?_
  refine (spares_enter _).bind_failsSparing fun _ _ _ _ => ?_
  refine place_failsSparing.onSession.bind_total fun published s => ?_
  exact ⟨_, _, rfl⟩

end Pipeline

/-! ### Whole runs -/

namespace Pipeline

variable {σ : Type} {p : Pipeline σ} {supply : Nat → BitVec 128} {a : Artifact} {outDir : Path}
  {w : World σ} {e : Fault} {s : Session σ}

/-- The content that a run does not keep has its descriptor in the work directory. -/
theorem prefix_place_descriptor (work : Path) (wd : Location) :
    work.place wd <+: (Descriptor.pathIn (Path.join work "content")).place wd := by
  rw [Descriptor.pathIn, Path.place_join, Path.place_join, List.append_assoc]
  · exact List.prefix_append _ _
  · constructor <;> decide
  · constructor <;> decide

/-- The descriptor of kept content is the only one that can hold a file before a run: other content
is put in the work directory, which is new. -/
theorem exists_contentDir {h : Host} {l : Location} (sound : h.Sound)
    (there : h.files.content? l ≠ none)
    (descriptor : l =
      (Descriptor.pathIn (p.contentIn (FileAction.nextTemp h h.tempDir))).place h.workingDir) :
    ∃ dir ∈ p.contentDir, l = (Descriptor.pathIn dir).place h.workingDir := by
  rw [contentIn] at descriptor
  cases kept : p.contentDir with
  | some dir => exact ⟨dir, rfl, by rwa [kept, Option.getD_some] at descriptor⟩
  | none =>
    rw [kept, Option.getD_none] at descriptor
    have below := prefix_place_descriptor (FileAction.nextTemp h h.tempDir) h.workingDir
    rw [← descriptor] at below
    have free := FileAction.get?_nextTemp h h.tempDir
    exact absurd (sound.rooted.content?_eq_none_of_prefix free below) there

/-- A run that fails leaves what its collaborators spare as it was, up to a manifest that is lost
and the descriptor of kept content: the work directory is new, so no file that is removed with it
was there before. -/
theorem run_eq_error_of_spare {keep : Set Location} (sound : w.host.Sound)
    (spare : p.CollaboratorsSpare a (FileAction.nextTemp w.host w.host.tempDir)
      w.host.workingDir keep)
    (failed : p.run supply a outDir w = .error e s) {l : Location} (kept : l ∈ keep) :
    s.world.host.files.content? l = w.host.files.content? l ∨
      (l ∈ lost p.settings a outDir w.host.workingDir e ∧
        s.world.host.files.content? l = none) ∨
      (w.host.files.content? l ≠ none ∧
        ∃ content ∈ p.contentDir, l = (Descriptor.pathIn content).place w.host.workingDir) := by
  rw [run_eq] at failed
  split at failed
  · rename_i unmade
    cases failed
    exact .inl (by rw [FileAction.makeTempDir_eq_error unmade])
  rename_i work h₁ made
  obtain ⟨mid, worked, rfl⟩ := onState_eq_error_iff.mp failed
  obtain ⟨rfl, edits⟩ := FileAction.makeTempDir_eq_ok sound made
  obtain ⟨here, contents⟩ :=
    spare.steps_failsSparing _ e mid (edits.sound sound) edits.workingDir worked
  have before : h₁.files.content? l = w.host.files.content? l := edits.content l (by simp)
  rw [discard]
  change mid.world.host.workingDir = _ at here
  rcases FileAction.content?_left_removeDirAll_nextTemp sound here w.host.tempDir l
    with same | restored
  · dsimp only
    rw [same, ← before]
    rcases contents l kept with unchanged | ⟨edited, there⟩ | misplaced
    · exact .inl unchanged
    · exact .inr (.inr ⟨there, exists_contentDir sound (before ▸ there) edited⟩)
    · exact .inr (.inl misplaced)
  · exact .inl restored

/-- The places below a directory. -/
def inside (dir : Location) : Set Location :=
  {l | dir <+: l ∧ l ≠ dir}

end Pipeline

/-! ### A sample -/

/-- A host with one archive, and an output directory that holds a manifest and something in the
place of the instrumented archive. -/
def Host.sample (published : Node) : Host where
  files :=
    { entries :=
        [([], .dir 0), (["tmp"], .dir 0), (["app.apk"], .file .empty 1), (["out"], .dir 2),
          (["out", "app-instrumented.apk"], published),
          (["out", "app.apk.json"], .file .empty 3)]
      distinct := by simp }
  workingDir := []
  tempDir := "/tmp"
  home := none
  now := 4

/-- Collaborators that make what they are asked for, with a signer of one's own. -/
def Pipeline.sample (signer : Signer Unit) : Pipeline Unit where
  settings := {}
  contentTool.extract _ content := do
    ((FileAction.createDirAll content).within "failed to unpack" : FileWork Unit)
    ((FileAction.write (Descriptor.pathIn content) "<manifest></manifest>".toUTF8).within
      "failed to unpack" : FileWork Unit)
  contentTool.build _ archive :=
    ((FileAction.write archive .empty).within "failed to pack" : FileWork Unit)
  backend.load _ _ := modify fun l => { l with registry := .mixed }
  backend.write _ archive _ := return archive
  signer := signer

/-- A signer that takes an archive for its signed copy. -/
def Signer.lax : Signer Unit :=
  ⟨fun archive => return archive⟩

/-- A signer that has no key. -/
def Signer.keyless : Signer Unit :=
  ⟨fun _ => throw (.badInput .noKeystore)⟩

/-- The archive of the sample host. -/
def Artifact.sample : Artifact :=
  ⟨"/app.apk", "app.apk"⟩

namespace Pipeline

theorem sound_sample (published : Node) : (Host.sample published).Sound where
  rooted := by
    refine rooted_of_entries fun l member _ => ?_
    simp only [Host.sample, List.map_cons, List.map_nil, List.mem_cons, List.not_mem_nil,
      or_false] at member
    rcases member with rfl | rfl | rfl | rfl | rfl | rfl
    iterate 4 exact ⟨0, rfl⟩
    iterate 2 exact ⟨2, rfl⟩
  working := ⟨0, rfl⟩

/-- What a run of the sample makes in its work directory is made below the place for temporary
files. -/
theorem tmp_prefix_place {h : Host} {name file : String} (dirNamed : Path.IsName name)
    (fileNamed : Path.IsName file) :
    ["tmp"] <+: (Path.join (Path.join (FileAction.nextTemp h "/tmp") name) file).place [] := by
  have tmp : Path.place [] "/tmp" = ["tmp"] := by decide
  rw [Path.place_join fileNamed, Path.place_join dirNamed, FileAction.nextTemp,
    Path.place_join (FileAction.isName_freeName _ _), tmp]
  exact List.prefix_append _ _

/-- Collaborators that make what they are asked for spare everything outside of the place for
temporary files. -/
theorem collaboratorsSpare_of_apart (signer : Signer Unit) (h : Host) {a : Artifact}
    (named : Path.IsName a.fileName) {keep : Set Location} (apart : ∀ l ∈ keep, ¬ ["tmp"] <+: l)
    (sign : ∀ archive, Spares [] keep ∅ (signer.sign archive)) :
    (sample signer).CollaboratorsSpare a (FileAction.nextTemp h "/tmp") [] keep := by
  have content : Path.IsName "content" := by constructor <;> decide
  have descriptor : Path.IsName Descriptor.fileName := by constructor <;> decide
  have rebuilt : Path.IsName "rebuilt" := by constructor <;> decide
  constructor
  case extract =>
    have outside := fun kept => apart _ kept (tmp_prefix_place (h := h) content descriptor)
    rw [sample, contentIn, Option.getD_none]
    apply Spares.bind
    · exact (spares_createDirAll _).adaptExcept.onWorld
    · exact fun _ _ _ _ => (spares_write outside).adaptExcept.onWorld
  case build =>
    have outside := fun kept => apart _ kept (tmp_prefix_place (h := h) rebuilt named)
    exact (spares_write outside).adaptExcept.onWorld
  case load => exact spares_of_still fun _ => rfl
  case write => exact fun _ => spares_pure _
  case sign => exact fun _ _ _ _ _ => sign _

theorem collaboratorsSpare_sample (signer : Signer Unit) (published : Node)
    (sign : ∀ archive, Spares [] (inside (Path.place [] "/out")) ∅ (signer.sign archive)) :
    (sample signer).CollaboratorsSpare .sample (FileAction.nextTemp (.sample published) "/tmp") []
      (inside (Path.place [] "/out")) := by
  have named : Path.IsName Artifact.sample.fileName := by constructor <;> decide
  have out : Path.place [] "/out" = ["out"] := by decide
  refine collaboratorsSpare_of_apart signer _ named ?_ sign
  rintro l ⟨⟨rest, rfl⟩, -⟩
  rw [out]
  simp

/-! ### What a failure keeps -/

section

variable {σ : Type} {p : Pipeline σ} {supply : Nat → BitVec 128} {a : Artifact} {outDir : Path}
  {w : World σ} {e : Fault} {s : Session σ}

/-- **A run that fails leaves the output directory as it was**, if its collaborators do: every file
in it has the content that it had, and there is no new one. A file at the place of the manifest
is gone if the last move is what failed. A descriptor in it that belongs to kept content may have
been patched. -/
theorem run_eq_error (sound : w.host.Sound)
    (spare : p.CollaboratorsSpare a (FileAction.nextTemp w.host w.host.tempDir)
      w.host.workingDir (inside (outDir.place w.host.workingDir)))
    (failed : p.run supply a outDir w = .error e s) {l : Location}
    (within : l ∈ inside (outDir.place w.host.workingDir)) :
    s.world.host.files.content? l = w.host.files.content? l ∨
      (l = manifestPlace p.settings a outDir w.host.workingDir ∧
        IsMisplacement (Path.join outDir a.instrumentedName) e ∧
        s.world.host.files.content? l = none) ∨
      (w.host.files.content? l ≠ none ∧
        ∃ content ∈ p.contentDir, l = (Descriptor.pathIn content).place w.host.workingDir) := by
  rcases run_eq_error_of_spare sound spare failed within with same | ⟨⟨place, cause⟩, gone⟩ | edited
  · exact .inl same
  · exact .inr (.inl ⟨place, cause, gone⟩)
  · exact .inr (.inr edited)

end

/-- An earlier archive and its manifest are kept when a run fails to sign. -/
theorem run_eq_error_unsigned : ∃ e s,
    (sample .keyless).run (fun _ => 0) .sample "/out" ⟨.sample (.file .empty 3), ()⟩ =
      .error e s ∧
    ∀ l ∈ inside (Path.place [] "/out"), s.world.host.files.content? l =
      (Host.sample (.file .empty 3)).files.content? l := by
  have refused : (match
      (sample .keyless).run (fun _ => 0) .sample "/out" ⟨.sample (.file .empty 3), ()⟩ with
      | .error (.badInput .noKeystore) _ => true
      | _ => false) = true := by
    decide +kernel
  split at refused
  · rename_i s ran
    refine ⟨_, s, ran, fun l within => ?_⟩
    have spare := collaboratorsSpare_sample .keyless (.file .empty 3) fun _ => spares_throw _
    rcases run_eq_error (p := sample .keyless) (w := ⟨.sample (.file .empty 3), ()⟩)
      (sound_sample _) spare ran within with same | ⟨-, ⟨_, misplaced⟩, -⟩ | ⟨-, _, kept, -⟩
    · exact same
    · cases misplaced
    · cases kept
  · cases refused

/-- What fails to replace an archive may lose its manifest: here a directory stands where the
archive belongs. -/
theorem exists_lost_manifest : ¬ ∀ (p : Pipeline Unit) (supply : Nat → BitVec 128) (a : Artifact)
    (outDir : Path) (w : World Unit) (e : Fault) (s : Session Unit), w.host.Sound →
    p.CollaboratorsSpare a (FileAction.nextTemp w.host w.host.tempDir) w.host.workingDir
      (inside (outDir.place w.host.workingDir)) →
    p.run supply a outDir w = .error e s → ∀ l ∈ inside (outDir.place w.host.workingDir),
      s.world.host.files.content? l = w.host.files.content? l := by
  intro kept
  have lost : (match (sample .lax).run (fun _ => 0) .sample "/out" ⟨.sample (.dir 3), ()⟩ with
      | .error _ s => (s.world.host.files.content? ["out", "app.apk.json"]).isNone
      | .ok _ _ => false) = true := by
    decide +kernel
  split at lost
  · rename_i e s ran
    have spare := collaboratorsSpare_sample .lax (.dir 3) fun _ => spares_pure _
    have same := kept (sample .lax) (fun _ => 0) .sample "/out" ⟨.sample (.dir 3), ()⟩ e s
      (sound_sample _) spare ran ["out", "app.apk.json"] ⟨by decide, by decide⟩
    rw [same] at lost
    cases lost
  · cases lost

end Pipeline

end Tracepoint
