import Tracepoint.Files.Action

/-!
# What a run acts on

A world is a host together with whatever state the programs outside of it have. A run
acts on a world and ends with a result or a fault; the world that it leaves is there in
both cases.
-/

namespace Tracepoint

/-- A host and the state of the programs outside. -/
structure World (σ : Type) where
  host : Host
  outside : σ

/-- A piece of work on a world, or the fault that ended it. -/
abbrev Run (σ α : Type) := EStateM Fault (World σ) α

/-- Does work on a part of a state. -/
def zoom {ε σ τ α : Type} (part : σ → τ) (replace : τ → σ → σ) (work : EStateM ε τ α) :
    EStateM ε σ α := fun s =>
  match work (part s) with
  | .ok a t => .ok a (replace t s)
  | .error e t => .error e (replace t s)

instance {σ : Type} : MonadLift FileWork (Run σ) where
  monadLift work := zoom World.host (fun host w => { w with host }) work

namespace FileAction

/-- The action as part of some work, with a context for its failure. -/
def within {α : Type} (a : FileAction α) (context : String) : FileWork α :=
  EStateM.adaptExcept (Fault.file context) a

end FileAction

/-- Fails unless there is something where a stage should have left its output. -/
def requireOutput (stage : Stage) (p : Path) : FileWork Unit := do
  if (← get).has p then pure () else throw (.missingOutput stage p)

end Tracepoint
