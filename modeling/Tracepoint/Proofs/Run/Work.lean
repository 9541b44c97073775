import Tracepoint.Proofs.Files.Actions
import Tracepoint.Run.Pipeline

/-!
# The work of a run

Work of a run on the host, on the world or on what is loaded is work on a part of a larger
state, and a file action is work with another fault. Each ends as the work itself does, and
leaves the rest of the state as it was. A run is the work of its stages in a directory that is
removed in the end, however they end (`Pipeline.run_eq`).
-/

namespace Tracepoint

section Results

variable {ε σ τ α : Type}

/-- The state that a result holds. -/
def stateOf : EStateM.Result ε σ α → σ
  | .ok _ s | .error _ s => s

/-- The fault of a result. -/
def faultOf? : EStateM.Result ε σ α → Option ε
  | .ok _ _ => none
  | .error e _ => some e

/-- The result with another state. -/
def onState (f : σ → τ) : EStateM.Result ε σ α → EStateM.Result ε τ α
  | .ok a s => .ok a (f s)
  | .error e s => .error e (f s)

/-- Whether a result is a success that passes a check. -/
def succeeds (check : α → σ → Bool) : EStateM.Result ε σ α → Bool
  | .ok a s => check a s
  | .error _ _ => false

theorem exists_of_succeeds {check : α → σ → Bool} {r : EStateM.Result ε σ α}
    (passes : succeeds check r) : ∃ a s, r = .ok a s ∧ check a s := by
  cases r with
  | ok a s => exact ⟨a, s, rfl, passes⟩
  | error e s => cases passes

theorem stateOf_apply (x : EStateM ε σ α) (s : σ) : stateOf (x s) = left x s :=
  rfl

@[simp] theorem faultOf?_onState (f : σ → τ) (r : EStateM.Result ε σ α) :
    faultOf? (onState f r) = faultOf? r := by
  cases r <;> rfl

@[simp] theorem stateOf_onState (f : σ → τ) (r : EStateM.Result ε σ α) :
    stateOf (onState f r) = f (stateOf r) := by
  cases r <;> rfl

theorem onState_eq_ok_iff {f : σ → τ} {r : EStateM.Result ε σ α} {a : α} {t : τ} :
    onState f r = .ok a t ↔ ∃ s, r = .ok a s ∧ t = f s := by
  cases r <;> simp [onState, eq_comm]

theorem onState_eq_error_iff {f : σ → τ} {r : EStateM.Result ε σ α} {e : ε} {t : τ} :
    onState f r = .error e t ↔ ∃ s, r = .error e s ∧ t = f s := by
  cases r <;> simp [onState, eq_comm]

end Results

section Contexts

variable {α ε ε' σ : Type} {x : EStateM ε σ α} {f : ε → ε'} {s s' : σ}

theorem adaptExcept_eq_ok_iff {a : α} :
    EStateM.adaptExcept f x s = .ok a s' ↔ x s = .ok a s' := by
  rw [EStateM.adaptExcept]
  cases x s <;> simp

theorem adaptExcept_eq_error_iff {e : ε'} :
    EStateM.adaptExcept f x s = .error e s' ↔ ∃ cause, x s = .error cause s' ∧ f cause = e := by
  rw [EStateM.adaptExcept]
  cases x s <;> simp [and_comm]

/-- Work that asks about the files leaves them, whatever the context of its failure. -/
theorem within_ask_eq_ok_iff {question : Host → Except FileFault α} {context : String}
    {h h' : Host} {a : α} :
    (FileAction.ask question).within context h = .ok a h' ↔ question h = .ok a ∧ h' = h :=
  adaptExcept_eq_ok_iff.trans FileAction.ask_eq_ok_iff

end Contexts

section Parts

variable {ε σ τ α : Type} {part : σ → τ} {replace : τ → σ → σ} {x : EStateM ε τ α} {s s' : σ}

theorem zoom_eq_ok_iff {a : α} :
    zoom part replace x s = .ok a s' ↔ ∃ t, x (part s) = .ok a t ∧ s' = replace t s := by
  rw [zoom]
  cases x (part s) <;> simp [eq_comm]

theorem zoom_eq_error_iff {e : ε} :
    zoom part replace x s = .error e s' ↔ ∃ t, x (part s) = .error e t ∧ s' = replace t s := by
  rw [zoom]
  cases x (part s) <;> simp [eq_comm]

end Parts

section Lifts

variable {σ α : Type} {a : α} {e : Fault}

theorem onWorld_eq_ok_iff {x : FileWork α} {w w' : World σ} :
    (x : Run σ α) w = .ok a w' ↔ ∃ h, x w.host = .ok a h ∧ w' = { w with host := h } :=
  zoom_eq_ok_iff

theorem onWorld_eq_error_iff {x : FileWork α} {w w' : World σ} :
    (x : Run σ α) w = .error e w' ↔ ∃ h, x w.host = .error e h ∧ w' = { w with host := h } :=
  zoom_eq_error_iff

theorem onLoading_eq_ok_iff {x : Run σ α} {l l' : Loading σ} :
    (x : Load σ α) l = .ok a l' ↔ ∃ w, x l.world = .ok a w ∧ l' = { l with world := w } :=
  zoom_eq_ok_iff

theorem onSession_eq_ok_iff {x : Run σ α} {s s' : Session σ} :
    (x : Step σ α) s = .ok a s' ↔ ∃ w, x s.world = .ok a w ∧ s' = { s with world := w } :=
  zoom_eq_ok_iff

theorem onSession_eq_error_iff {x : Run σ α} {s s' : Session σ} :
    (x : Step σ α) s = .error e s' ↔ ∃ w, x s.world = .error e w ∧ s' = { s with world := w } :=
  zoom_eq_error_iff

theorem lift_eq_ok_iff {x : FileWork α} {s s' : Session σ} :
    ((x : Run σ α) : Step σ α) s = .ok a s' ↔
      ∃ h, x s.world.host = .ok a h ∧ s' = { s with world := { s.world with host := h } } := by
  rw [onSession_eq_ok_iff]
  simp only [onWorld_eq_ok_iff]
  grind

theorem lift_eq_error_iff {x : FileWork α} {s s' : Session σ} :
    ((x : Run σ α) : Step σ α) s = .error e s' ↔
      ∃ h, x s.world.host = .error e h ∧ s' = { s with world := { s.world with host := h } } := by
  rw [onSession_eq_error_iff]
  simp only [onWorld_eq_error_iff]
  grind

end Lifts

theorem requireOutput_eq_ok {stage : Stage} {p : Path} {h h' : Host}
    (done : requireOutput stage p h = .ok () h') : h.has p ∧ h' = h := by
  obtain ⟨_, _, asked, rest⟩ := bind_eq_ok_iff.mp done
  cases asked
  split at rest <;> cases rest
  exact ⟨‹_›, rfl⟩

/-! ### Runs -/

namespace Pipeline

variable {σ : Type}

/-- A session without its work directory. -/
def discard (work : Path) (s : Session σ) : Session σ :=
  { s with world := { s.world with host := left (FileAction.removeDirAll work) s.world.host } }

theorem host_discard (work : Path) (s : Session σ) :
    (discard work s).world.host = left (FileAction.removeDirAll work) s.world.host :=
  rfl

theorem withWorkDir_eq {α : Type} (x : Path → Step σ α) (s : Session σ) :
    withWorkDir x s =
      match FileAction.makeTempDir s.world.host with
      | .error cause h =>
        .error (.file "failed to create work dir" cause)
          { s with world := { s.world with host := h } }
      | .ok work h =>
        onState (discard work) (x work { s with world := { s.world with host := h } }) := by
  cases made : FileAction.makeTempDir s.world.host with
  | error cause h =>
    exact bind_of_error (lift_eq_error_iff.mpr
      ⟨h, adaptExcept_eq_error_iff.mpr ⟨cause, made, rfl⟩, rfl⟩)
  | ok work h =>
    refine (bind_of_ok (lift_eq_ok_iff.mpr ⟨h, adaptExcept_eq_ok_iff.mpr made, rfl⟩)).trans ?_
    dsimp only
    cases x work { s with world := { s.world with host := h } } with
    | ok a s' =>
      simp only [onState, discard, left]
      cases FileAction.removeDirAll work s'.world.host <;> rfl
    | error e s' =>
      simp only [onState, discard, left]
      cases FileAction.removeDirAll work s'.world.host <;> rfl

/-- A run ends before its work directory is made, or as the work in it does. -/
theorem run_eq (p : Pipeline σ) (supply : Nat → BitVec 128) (a : Artifact) (outDir : Path)
    (w : World σ) :
    p.run supply a outDir w =
      match FileAction.makeTempDir w.host with
      | .error cause h =>
        .error (.file "failed to create work dir" cause) ⟨{ w with host := h }, []⟩
      | .ok work h =>
        onState (discard work) (p.steps supply a outDir work ⟨{ w with host := h }, []⟩) :=
  withWorkDir_eq _ _

/-- Where a run keeps the content of an artifact. -/
def contentIn (p : Pipeline σ) (work : Path) : Path :=
  p.contentDir.getD (Path.join work "content")

/-- The stages that make a signed archive of patched content, with its records and the report on
them. -/
def prepare (p : Pipeline σ) (supply : Nat → BitVec 128) (a : Artifact) (work : Path)
    (ns : Option String) : Step σ (Path × List ProbeRecord × InjectionReport) := do
  let rebuilt ← p.rebuild a (p.contentIn work) work
  let registry ← p.load rebuilt work
  let (instrumented, records, report) ← p.inject supply ns registry rebuilt work
  let signed ← p.sign instrumented
  return (signed, records, report)

/-- All stages but the last. -/
def produce (p : Pipeline σ) (supply : Nat → BitVec 128) (a : Artifact) (work : Path) :
    Step σ (Path × List ProbeRecord × InjectionReport) := do
  p.extract a (p.contentIn work)
  let ns ← patch (p.contentIn work)
  p.prepare supply a work ns

/-- The last stage, with the outcome of a run. -/
def publish (p : Pipeline σ) (a : Artifact) (outDir : Path) :
    Path × List ProbeRecord × InjectionReport → Step σ Outcome
  | (signed, records, report) => do
    enter .placing
    let (apk, manifest) ← (place p.settings a records signed outDir : Run σ _)
    enter .done
    return ⟨apk, manifest, records.length, report, (← get).stages⟩

/-- Publishing that is done has placed the archive, and its outcome lists the stages up to there. -/
theorem publish_eq_ok {p : Pipeline σ} {a : Artifact} {outDir signed : Path}
    {records : List ProbeRecord} {report : InjectionReport} {o : Outcome} {s s' : Session σ}
    (done : p.publish a outDir (signed, records, report) s = .ok o s') :
    ∃ apk manifest h, place p.settings a records signed outDir s.world.host =
        .ok (apk, manifest) h ∧
      s' = ⟨{ s.world with host := h }, s.stages ++ [.placing, .done]⟩ ∧
      o = ⟨apk, manifest, records.length, report, s'.stages⟩ := by
  obtain ⟨_, s₁, entered, rest⟩ := bind_eq_ok_iff.mp done
  cases entered
  obtain ⟨⟨apk, manifest⟩, s₂, lifted, rest⟩ := bind_eq_ok_iff.mp rest
  obtain ⟨h, placed, rfl⟩ := lift_eq_ok_iff.mp lifted
  obtain ⟨_, s₃, entered, rest⟩ := bind_eq_ok_iff.mp rest
  cases entered
  cases rest
  exact ⟨apk, manifest, h, placed, by simp, by simp⟩

/-- All stages but the first. -/
def finish (p : Pipeline σ) (supply : Nat → BitVec 128) (a : Artifact) (outDir work : Path) :
    Step σ Outcome := do
  let ns ← patch (p.contentIn work)
  p.prepare supply a work ns >>= p.publish a outDir

/-- The steps of a run make a signed archive and publish it. -/
theorem steps_eq (p : Pipeline σ) (supply : Nat → BitVec 128) (a : Artifact)
    (outDir work : Path) :
    p.steps supply a outDir work = p.produce supply a work >>= p.publish a outDir := by
  simp only [steps, produce, prepare, bind_assoc, pure_bind]
  rfl

/-- The steps of a run extract content and go on with it. -/
theorem steps_eq_extract (p : Pipeline σ) (supply : Nat → BitVec 128) (a : Artifact)
    (outDir work : Path) : p.steps supply a outDir work =
      p.extract a (p.contentIn work) >>= fun _ => p.finish supply a outDir work := by
  rw [steps_eq, produce, bind_assoc]
  simp only [bind_assoc]
  rfl

end Pipeline

end Tracepoint
