import Tracepoint.Proofs.Run.Work

/-!
# The calls of a run

A logged pipeline has collaborators that note every call of them, with the host that it was
made on, how it ended and what host it left, and do the same otherwise. Its runs are those of
the plain pipeline (`Pipeline.run_logged`), so what it notes are the calls that a run makes
(`Pipeline.calls`).
-/

namespace Tracepoint

/-- What a collaborator is asked for. -/
inductive Request where
  | extract (archive content : Path)
  | build (content archive : Path)
  | load (archive workDir : Path)
  | write (registry : Registry) (archive workDir : Path)
  | sign (archive : Path)

/-- The stage that asks for it. -/
def Request.stage : Request → Stage
  | extract _ _ => .extracting
  | build _ _ => .rebuilding
  | load _ _ => .loading
  | write _ _ _ => .injecting
  | sign _ => .signing

/-- A call of a collaborator. -/
structure Call where
  request : Request
  /-- The host that it was made on. -/
  host : Host
  /-- The path that was given, where one is asked for, or the fault. -/
  result : Except Fault (Option Path)
  /-- The host that it left. -/
  after : Host

/-- A state of the programs outside, with the calls that were made. -/
abbrev Logged (σ : Type) := σ × List Call

variable {σ : Type}

/-- The world without the calls. -/
def World.plain (w : World (Logged σ)) : World σ :=
  ⟨w.host, w.outside.1⟩

/-- The world without the calls, and the registry. -/
def Loading.plain (l : Loading (Logged σ)) : Loading σ :=
  ⟨l.world.plain, l.registry⟩

/-- The session without the calls. -/
def Session.plain (s : Session (Logged σ)) : Session σ :=
  ⟨s.world.plain, s.stages⟩

/-- The calls that were made in a session. -/
def Session.calls (s : Session (Logged σ)) : List Call :=
  s.world.outside.2

/-- The world after a call that was made on another one. -/
def World.note (before : World (Logged σ)) (request : Request)
    (result : Except Fault (Option Path)) (after : World σ) : World (Logged σ) :=
  ⟨after.host, after.outside, before.outside.2 ++ [⟨request, before.host, result, after.host⟩]⟩

/-- Work that notes its calls. -/
def Run.noted {α : Type} (work : Run σ α) (request : Request) (given : α → Option Path) :
    Run (Logged σ) α := fun w =>
  match work w.plain with
  | .ok a after => .ok a (w.note request (.ok (given a)) after)
  | .error e after => .error e (w.note request (.error e) after)

/-- Loading that notes its calls. -/
def Load.noted (work : Load σ Unit) (request : Request) : Load (Logged σ) Unit := fun l =>
  match work l.plain with
  | .ok () after => .ok () ⟨l.world.note request (.ok none) after.world, after.registry⟩
  | .error e after => .error e ⟨l.world.note request (.error e) after.world, after.registry⟩

namespace Pipeline

/-- The pipeline with collaborators that note their calls. -/
def logged (p : Pipeline σ) : Pipeline (Logged σ) where
  settings := p.settings
  contentTool.extract archive content :=
    Run.noted (p.contentTool.extract archive content) (.extract archive content) fun _ => none
  contentTool.build content archive :=
    Run.noted (p.contentTool.build content archive) (.build content archive) fun _ => none
  backend.load archive workDir :=
    Load.noted (p.backend.load archive workDir) (.load archive workDir)
  backend.write registry archive workDir :=
    Run.noted (p.backend.write registry archive workDir) (.write registry archive workDir) some
  signer.sign archive := Run.noted (p.signer.sign archive) (.sign archive) some
  contentDir := p.contentDir
  forceExtract := p.forceExtract

theorem calls_discard (work : Path) (s : Session (Logged σ)) :
    (discard work s).calls = s.calls :=
  rfl

/-- The calls of collaborators that a run makes, in order. -/
def calls (p : Pipeline σ) (supply : Nat → BitVec 128) (a : Artifact) (outDir : Path)
    (w : World σ) : List Call :=
  (stateOf (p.logged.run supply a outDir ⟨w.host, w.outside, []⟩)).calls

end Pipeline

/-! ### Logged runs -/

section

variable {ε α β τ τ' υ υ' : Type}

/-- An action does what another one does, on states that have more to them. -/
def Mirrors (plain : τ → τ') (x : EStateM ε τ α) (y : EStateM ε τ' α) : Prop :=
  ∀ s, y (plain s) = onState plain (x s)

variable {plain : τ → τ'}

theorem mirrors_pure (a : α) : Mirrors plain (pure a : EStateM ε τ α) (pure a) :=
  fun _ => rfl

theorem mirrors_throw (e : ε) : Mirrors plain (throw e : EStateM ε τ α) (throw e) :=
  fun _ => rfl

theorem Mirrors.bind {x : EStateM ε τ α} {y : EStateM ε τ' α} {f : α → EStateM ε τ β}
    {g : α → EStateM ε τ' β} (first : Mirrors plain x y) (later : ∀ a, Mirrors plain (f a) (g a)) :
    Mirrors plain (x >>= f) (y >>= g) := by
  intro s
  show EStateM.bind y g (plain s) = onState plain (EStateM.bind x f s)
  rw [EStateM.bind, EStateM.bind, first s]
  cases x s with
  | ok a s' => exact later a s'
  | error e s' => rfl

/-- Work on parts that correspond has results that correspond. -/
theorem Mirrors.zoom {plain' : υ → υ'} {x : EStateM ε υ α} {y : EStateM ε υ' α}
    {part : τ → υ} {part' : τ' → υ'} {replace : υ → τ → τ} {replace' : υ' → τ' → τ'}
    (mirrors : Mirrors plain' x y) (parts : ∀ s, part' (plain s) = plain' (part s))
    (replaced : ∀ t s, replace' (plain' t) (plain s) = plain (replace t s)) :
    Mirrors plain (zoom part replace x) (zoom part' replace' y) := by
  intro s
  rw [Tracepoint.zoom, Tracepoint.zoom, parts, mirrors]
  cases x (part s) <;> exact congrArg _ (replaced _ _)

theorem mirrors_onWorld (x : FileWork α) :
    Mirrors World.plain (x : Run (Logged σ) α) (x : Run σ α) := by
  have same : Mirrors id x x := fun h => by
    show x h = onState id (x h)
    cases x h <;> rfl
  exact same.zoom (fun _ => rfl) fun _ _ => rfl

theorem Mirrors.onSession {x : Run (Logged σ) α} {y : Run σ α} (mirrors : Mirrors World.plain x y) :
    Mirrors Session.plain (x : Step (Logged σ) α) (y : Step σ α) :=
  mirrors.zoom (fun _ => rfl) fun _ _ => rfl

theorem mirrors_noted (work : Run σ α) (request : Request) (given : α → Option Path) :
    Mirrors World.plain (Run.noted work request given) work := by
  intro w
  rw [Run.noted]
  cases work w.plain <;> rfl

/-- What is noted of a call is the host that it was made on and the one that it left. -/
theorem calls_left_noted (work : Run σ α) (request : Request) (given : α → Option Path)
    (s : Session (Logged σ)) : ∃ result,
      (left (Run.noted work request given : Step (Logged σ) α) s).calls = s.calls ++
        [⟨request, s.world.host, result,
          (left (Run.noted work request given : Step (Logged σ) α) s).world.host⟩] := by
  cases done : work s.world.plain with
  | ok a after =>
    have noted : (Run.noted work request given : Step (Logged σ) α) s =
        .ok a { s with world := s.world.note request (.ok (given a)) after } :=
      onSession_eq_ok_iff.mpr ⟨_, by rw [Run.noted, done], rfl⟩
    rw [left_of_ok noted]
    exact ⟨_, rfl⟩
  | error e after =>
    have noted : (Run.noted work request given : Step (Logged σ) α) s =
        .error e { s with world := s.world.note request (.error e) after } :=
      onSession_eq_error_iff.mpr ⟨_, by rw [Run.noted, done], rfl⟩
    rw [left_of_error noted]
    exact ⟨_, rfl⟩

/-- To load into an empty registry and to note that is to note the call that loads. -/
theorem registry_noted (work : Load σ Unit) (request : Request) :
    (Load.noted work request).registry = Run.noted work.registry request fun _ => none := by
  funext w
  have plain : Loading.plain ⟨w, .empty⟩ = ⟨w.plain, .empty⟩ := rfl
  rw [Run.noted, Load.registry, Load.registry, Load.noted, plain]
  cases work ⟨w.plain, .empty⟩ <;> rfl

end

namespace Pipeline

variable {p : Pipeline σ} {supply : Nat → BitVec 128} {a : Artifact}

theorem mirrors_file {α : Type} (x : FileWork α) :
    Mirrors Session.plain ((x : Run (Logged σ) α) : Step (Logged σ) α)
      ((x : Run σ α) : Step σ α) :=
  (mirrors_onWorld x).onSession

theorem mirrors_enter (stage : Stage) :
    Mirrors Session.plain (enter stage : Step (Logged σ) Unit) (enter stage : Step σ Unit) :=
  fun _ => rfl

theorem mirrors_extract (content : Path) :
    Mirrors Session.plain (p.logged.extract a content) (p.extract a content) := by
  refine (mirrors_file _).bind fun needed => ?_
  split
  · exact (mirrors_enter _).bind fun _ =>
      (mirrors_noted _ _ _).onSession.bind fun _ => mirrors_file _
  · exact mirrors_pure _

theorem mirrors_patch (content : Path) :
    Mirrors Session.plain (patch content : Step (Logged σ) _) (patch content : Step σ _) :=
  (mirrors_enter _).bind fun _ => (mirrors_file _).bind fun _ => mirrors_file _

theorem mirrors_rebuild (content work : Path) :
    Mirrors Session.plain (p.logged.rebuild a content work) (p.rebuild a content work) :=
  (mirrors_enter _).bind fun _ => (mirrors_file _).bind fun _ =>
    (mirrors_noted _ _ _).onSession.bind fun _ => (mirrors_file _).bind fun _ => mirrors_pure _

theorem mirrors_load (rebuilt work : Path) :
    Mirrors Session.plain (p.logged.load rebuilt work) (p.load rebuilt work) := by
  refine (mirrors_enter _).bind fun _ => Mirrors.onSession ?_
  rw [show (p.logged.backend.load rebuilt work).registry = _ from registry_noted _ _]
  exact mirrors_noted _ _ _

theorem mirrors_inject (ns : Option String) (r : Registry) (rebuilt work : Path) :
    Mirrors Session.plain (p.logged.inject supply ns r rebuilt work)
      (p.inject supply ns r rebuilt work) := by
  refine (mirrors_enter _).bind fun _ => ?_
  rw [show p.logged.settings = p.settings from rfl]
  cases instrument p.settings supply ns r with
  | error e => exact mirrors_throw e
  | ok x =>
    exact (mirrors_noted _ _ _).onSession.bind fun _ =>
      (mirrors_file _).bind fun _ => mirrors_pure _

theorem mirrors_sign (archive : Path) :
    Mirrors Session.plain (p.logged.sign archive) (p.sign archive) :=
  (mirrors_enter _).bind fun _ => (mirrors_noted _ _ _).onSession.bind fun _ =>
    (mirrors_file _).bind fun _ => mirrors_pure _

theorem mirrors_steps (outDir work : Path) :
    Mirrors Session.plain (p.logged.steps supply a outDir work) (p.steps supply a outDir work) := by
  refine (mirrors_extract _).bind fun _ => ?_
  refine (mirrors_patch _).bind fun ns => ?_
  refine (mirrors_rebuild _ _).bind fun rebuilt => ?_
  refine (mirrors_load _ _).bind fun r => ?_
  refine (mirrors_inject _ _ _ _).bind fun injected => ?_
  refine (mirrors_sign _).bind fun signed => ?_
  refine (mirrors_enter _).bind fun _ => ?_
  refine (mirrors_file _).bind fun placed => ?_
  exact (mirrors_enter _).bind fun _ s => rfl

theorem mirrors_withWorkDir {α : Type} {x : Path → Step (Logged σ) α} {y : Path → Step σ α}
    (mirrors : ∀ work, Mirrors Session.plain (x work) (y work)) :
    Mirrors Session.plain (withWorkDir x) (withWorkDir y) := by
  intro s
  have same : s.plain.world.host = s.world.host := rfl
  rw [withWorkDir_eq, withWorkDir_eq, same]
  cases FileAction.makeTempDir s.world.host with
  | error cause h => rfl
  | ok work h =>
    dsimp only
    have worked := mirrors work { s with world := { s.world with host := h } }
    refine (congrArg (onState (discard work)) worked).trans ?_
    cases x work { s with world := { s.world with host := h } } <;> rfl

/-- A logged run is the run, with its calls. -/
theorem run_logged (p : Pipeline σ) (supply : Nat → BitVec 128) (a : Artifact) (outDir : Path)
    (w : World (Logged σ)) :
    p.run supply a outDir w.plain = onState Session.plain (p.logged.run supply a outDir w) :=
  mirrors_withWorkDir (mirrors_steps outDir) ⟨w, []⟩

end Pipeline

end Tracepoint
