import Tracepoint.Application
import Tracepoint.Proofs.Files.Actions
import Tracepoint.Proofs.Probe.Faults
import Tracepoint.Proofs.Registry
import Tracepoint.Proofs.Run.Work

/-!
# The stage that a fault is charged to

A fault names the stage that it is charged to, or none. Work charges a stage when no other one
is named by its faults (`Charges`). The work of a run on files charges the stage that it is
done in, and so do the tools of the pipeline that the program runs
(`Application.chargesOwnStages`).
-/

namespace Tracepoint

/-- A fault is charged to a stage if it names no other one. -/
def Fault.ChargedTo (e : Fault) (stage : Stage) : Prop :=
  ∀ named ∈ e.stage?, named = stage

/-- All faults of some work are charged to a stage. -/
def Charges {τ α : Type} (stage : Stage) (x : EStateM Fault τ α) : Prop :=
  ∀ s e s', x s = .error e s' → e.ChargedTo stage

section

variable {τ τ' α β : Type} {stage : Stage} {e : Fault}

theorem Fault.chargedTo_of_none (unnamed : e.stage? = none) : e.ChargedTo stage := by
  simp [ChargedTo, unnamed]

theorem Fault.chargedTo_of_some (named : e.stage? = some stage) : e.ChargedTo stage := by
  simp [ChargedTo, named]

theorem charges_of_total {x : EStateM Fault τ α} (total : ∀ s, ∃ a s', x s = .ok a s') :
    Charges stage x := by
  intro s e s' failed
  obtain ⟨a, s'', done⟩ := total s
  rw [done] at failed
  cases failed

theorem charges_pure (a : α) : Charges stage (pure a : EStateM Fault τ α) :=
  charges_of_total fun s => ⟨a, s, rfl⟩

theorem charges_get : Charges stage (get : EStateM Fault τ τ) :=
  charges_of_total fun s => ⟨s, s, rfl⟩

theorem charges_modify (f : τ → τ) : Charges stage (modify f : EStateM Fault τ Unit) :=
  charges_of_total fun s => ⟨(), f s, rfl⟩

theorem charges_throw (charged : e.ChargedTo stage) :
    Charges stage (throw e : EStateM Fault τ α) := by
  rintro s e s' ⟨⟩
  exact charged

theorem Charges.bind {x : EStateM Fault τ α} {f : α → EStateM Fault τ β} (first : Charges stage x)
    (later : ∀ a, Charges stage (f a)) : Charges stage (x >>= f) := by
  intro s e s' failed
  rcases bind_eq_error_iff.mp failed with refused | ⟨a, mid, -, rest⟩
  · exact first s e s' refused
  · exact later a mid e s' rest

theorem charges_adaptExcept {ε : Type} {f : ε → Fault} {x : EStateM ε τ α}
    (charged : ∀ cause, (f cause).ChargedTo stage) : Charges stage (EStateM.adaptExcept f x) := by
  intro s e s' failed
  obtain ⟨cause, -, rfl⟩ := adaptExcept_eq_error_iff.mp failed
  exact charged cause

/-- A failed file action names no stage. -/
theorem charges_within (x : FileAction α) (context : String) : Charges stage (x.within context) :=
  charges_adaptExcept fun _ => Fault.chargedTo_of_none rfl

theorem Charges.zoom {part : τ → τ'} {replace : τ' → τ → τ} {x : EStateM Fault τ' α}
    (charges : Charges stage x) : Charges stage (zoom part replace x) := by
  intro s e s' failed
  obtain ⟨t, refused, -⟩ := zoom_eq_error_iff.mp failed
  exact charges _ _ _ refused

theorem charges_requireOutput (stage : Stage) (p : Path) :
    Charges stage (requireOutput stage p) := by
  refine charges_get.bind fun h => ?_
  split
  · exact charges_pure _
  · exact charges_throw (Fault.chargedTo_of_some rfl)

theorem Charges.registry {σ : Type} {work : Load σ Unit} (charges : Charges stage work) :
    Charges stage work.registry := by
  intro w e w' failed
  rw [Load.registry] at failed
  split at failed
  · cases failed
  · rename_i refused
    cases failed
    exact charges _ _ _ refused

theorem Charges.orRemove {temp : Path} {work : FileWork α} (charges : Charges stage work) :
    Charges stage (FileAction.orRemove temp work) := by
  intro h e h' failed
  obtain ⟨mid, refused, -⟩ := FileAction.orRemove_eq_error_iff.mp failed
  exact charges h e mid refused

end

/-! ### The work of a run -/

section

variable {stage : Stage}

theorem charges_needsExtraction (a : Artifact) (content : Path) (force : Bool) :
    Charges stage (needsExtraction a content force) := by
  refine charges_get.bind fun h => ?_
  split
  · exact charges_pure _
  · exact (charges_within _ _).bind fun _ => (charges_within _ _).bind fun _ => charges_pure _

namespace Descriptor

theorem charges_openAt (p : Path) : Charges stage (Editor.openAt p) :=
  (charges_within _ _).bind fun _ => charges_pure _

theorem charges_writeOut (e : Editor) : Charges stage e.writeOut := by
  rw [Editor.writeOut]
  split
  · exact charges_pure _
  split
  · rename_i fault rendered
    rw [Editor.render] at rendered
    split at rendered
    · cases rendered
    · split at rendered <;> cases rendered
      exact charges_throw (Fault.chargedTo_of_none rfl)
  · exact (charges_within _ _).bind fun _ => charges_pure _

theorem charges_ensure (content : Path) (permission : String) :
    Charges stage (ensure content permission) := by
  refine (charges_openAt _).bind fun e => ?_
  split
  · exact charges_pure _
  · exact (charges_writeOut _).bind fun _ => charges_pure _

theorem charges_packageIn? (content : Path) : Charges stage (packageIn? content) :=
  (charges_openAt _).bind fun _ => charges_pure _

end Descriptor

namespace UnitDirectory

theorem charges_readUnit (p : Path) : Charges stage (readUnit p) := by
  refine (charges_within _ _).bind fun text => ?_
  split
  · exact charges_pure _
  · exact charges_throw (Fault.chargedTo_of_none rfl)

theorem charges_read (dir : Path) : Charges stage (read dir) := by
  refine (charges_within _ _).bind fun names => ?_
  generalize Text.sort (names.filter isDocument) = sorted
  induction sorted with
  | nil => exact charges_pure _
  | cons name rest ih =>
    rw [List.mapM_cons]
    exact (charges_readUnit _).bind fun _ => ih.bind fun _ => charges_pure _

theorem charges_write (dir : Path) (units : List CodeUnit) : Charges stage (write dir units) := by
  refine (charges_within _ _).bind fun _ => ?_
  induction units with
  | nil => exact charges_pure _
  | cons u rest ih =>
    rw [List.forM_eq_forM, List.forM_cons]
    exact (charges_within _ _).bind fun _ => ih

end UnitDirectory

namespace Pipeline

theorem charges_publishManifest (s : InstrumentationSettings) (m : Manifest) (dir : Path) :
    Charges .placing (publishManifest s m dir) := by
  have charges : Charges .placing (m.writeTo dir s.manifestSuffix) :=
    (charges_adaptExcept fun _ => Fault.chargedTo_of_some rfl).bind fun _ => charges_pure _
  intro h e h' failed
  rw [publishManifest] at failed
  split at failed
  · cases failed
  · rename_i refused
    split at failed <;> cases failed
    exact charges _ _ _ refused

theorem charges_publishArchive (staged apk : Path) (manifest : Option Path) :
    Charges stage (publishArchive staged apk manifest) := by
  intro h e h' failed
  have charges : Charges stage
      ((FileAction.moveFile staged apk).within ("failed to place " ++ apk)) := charges_within _ _
  rw [publishArchive] at failed
  split at failed
  · cases failed
  · rename_i refused
    have charged := charges _ _ _ refused
    split at failed
    · cases failed
      exact charged
    · split at failed <;> cases failed <;> exact charged

theorem charges_place (s : InstrumentationSettings) (a : Artifact) (records : List ProbeRecord)
    (signed dir : Path) : Charges .placing (place s a records signed dir) := by
  refine (charges_within _ _).bind fun _ => (charges_within _ _).bind fun staged => ?_
  refine Charges.orRemove ((charges_publishManifest _ _ _).bind fun manifest => ?_)
  exact (charges_publishArchive _ _ _).bind fun _ => charges_pure _

/-- Whether there is no hook or a body breaks a rule, the fault is charged to the stage that
injects. -/
theorem stage?_instrument {s : InstrumentationSettings} {supply : Nat → BitVec 128}
    {ns : Option String} {r : Registry} {e : Fault} (failed : instrument s supply ns r = .error e) :
    e.stage? = some .injecting := by
  rw [instrument] at failed
  split at failed
  · rename_i e' unresolved
    cases failed
    rw [Hook.resolve, Registry.resolveHook] at unresolved
    grind [Fault.stage?]
  · dsimp only at failed
    split at failed
    · rename_i injected
      cases failed
      exact Injector.stage?_inject injected
    · cases failed

/-- What a run writes of the code that it loaded was judged. -/
theorem rewrites_instrument {s : InstrumentationSettings} {supply : Nat → BitVec 128}
    {ns : Option String} {r r' : Registry} {x : List ProbeRecord × InjectionReport}
    (done : instrument s supply ns r = .ok (r', x)) : r.Rewrites r' := by
  rw [instrument] at done
  split at done
  · cases done
  · rename_i hook r₀ resolved
    obtain ⟨units, -⟩ := Hook.frame_resolve resolved
    dsimp only at done
    split at done <;> cases done
    rename_i injected
    obtain ⟨outline, bodies⟩ := Injector.rewrites_inject injected
    rw [units] at outline
    simp only [Registry.bodyAt?, units] at bodies
    exact ⟨outline, bodies⟩

end Pipeline

end

/-! ### Collaborators -/

/-- Every collaborator charges its faults to the stage that it is called in. -/
structure Pipeline.ChargesOwnStages {σ : Type} (p : Pipeline σ) : Prop where
  extract : ∀ archive content, Charges .extracting (p.contentTool.extract archive content)
  build : ∀ content archive, Charges .rebuilding (p.contentTool.build content archive)
  load : ∀ archive workDir, Charges .loading (p.backend.load archive workDir)
  write : ∀ registry archive workDir,
    Charges .injecting (p.backend.write registry archive workDir)
  sign : ∀ archive, Charges .signing (p.signer.sign archive)

section

variable {σ : Type} (programs : Programs σ) {stage : Stage}

theorem charges_programs (artifact : Path) (program : String) (args : List String) :
    Charges stage (programs.run stage artifact program args) := by
  intro w e w' failed
  rw [Programs.run] at failed
  split at failed
  split at failed <;> cases failed
  exact Fault.chargedTo_of_some rfl

theorem Converter.charges_command (artifact : Path) (template : List String) :
    Charges stage (Converter.command programs stage artifact template) := by
  cases template with
  | nil => exact charges_throw (Fault.chargedTo_of_none rfl)
  | cons program args => exact charges_programs programs _ _ _

theorem Converter.charges_load (c : Converter) (archive workDir : Path) :
    Charges .loading (c.load programs archive workDir) := by
  have disassemble : Charges .loading (c.disassemble programs archive workDir) := by
    refine Charges.bind (charges_within _ _).zoom fun _ => ?_
    refine (charges_command programs _ _).bind fun _ => ?_
    refine (UnitDirectory.charges_read _).zoom.bind fun units => ?_
    split
    · exact charges_throw (Fault.chargedTo_of_some rfl)
    · exact charges_pure _
  have supportUnits : Charges .loading c.supportUnits := by
    rw [Converter.supportUnits]
    split
    · exact UnitDirectory.charges_read _
    · exact charges_pure _
  exact disassemble.zoom.bind fun _ => (charges_modify _).bind fun _ =>
    supportUnits.zoom.zoom.bind fun _ => charges_modify _

theorem Converter.charges_assemble (c : Converter) (r : Registry) (archive workDir : Path) :
    Charges .injecting (c.assemble programs r archive workDir) :=
  (UnitDirectory.charges_write _ _).zoom.bind fun _ =>
    (charges_within _ _).zoom.bind fun _ => (charges_command programs _ _).bind fun _ =>
      (charges_requireOutput _ _).zoom.bind fun _ => charges_pure _

/-- The tools that come with the program charge their own stages. -/
theorem Pipeline.chargesOwnStages_of_tools {p : Pipeline σ} {packer : Packer} {c : Converter}
    {signer : JarSigner} (contentTool : p.contentTool = packer.tool programs)
    (backend : p.backend = c.backend programs) (signs : p.signer = signer.signer programs) :
    p.ChargesOwnStages where
  extract _ _ := by
    rw [contentTool]
    exact (charges_programs programs _ _ _).bind fun _ => (charges_requireOutput _ _).zoom
  build _ _ := by
    rw [contentTool]
    exact (charges_programs programs _ _ _).bind fun _ => (charges_requireOutput _ _).zoom
  load _ _ := by
    rw [backend]
    exact c.charges_load programs _ _
  write _ _ _ := by
    rw [backend]
    exact c.charges_assemble programs _ _ _
  sign _ := by
    rw [signs]
    exact (charges_programs programs _ _ _).bind fun _ =>
      (charges_requireOutput _ _).zoom.bind fun _ => charges_pure _

/-- The pipeline that a call of the program asks for has collaborators that charge their own
stages. -/
theorem Application.chargesOwnStages {args : Arguments} {s : Settings} {w w' : World σ}
    {p : Pipeline σ} (done : Application.pipeline programs args s w = .ok p w') :
    p.ChargesOwnStages := by
  obtain ⟨_, _, asked, rest⟩ := bind_eq_ok_iff.mp done
  cases asked
  generalize JarSigner.ofSettings s.tools w.host.home = signer at rest
  cases signer with
  | error e => cases rest
  | ok signer =>
    cases rest
    exact Pipeline.chargesOwnStages_of_tools programs rfl rfl rfl

end

end Tracepoint
