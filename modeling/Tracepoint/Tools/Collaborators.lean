import Tracepoint.Registry
import Tracepoint.Run.World

/-!
# Collaborators of a run

A run needs three things from outside: something that unpacks archives and packs them
again, something that loads the code of an archive and writes it back, and something that
signs. Nothing is assumed about them but their types.
-/

namespace Tracepoint

/-- A world together with the registry that code is loaded into. -/
structure Loading (σ : Type) where
  world : World σ
  registry : Registry

/-- A piece of work that loads code. What it loaded before a fault is there afterwards. -/
abbrev Load (σ α : Type) := EStateM Fault (Loading σ) α

instance {σ : Type} : MonadLift (Run σ) (Load σ) where
  monadLift work := zoom Loading.world (fun world l => { l with world }) work

/-- The registry that loading into an empty one leaves. -/
def Load.registry {σ : Type} (work : Load σ Unit) : Run σ Registry := fun w =>
  match work ⟨w, .empty⟩ with
  | .ok () l => .ok l.registry l.world
  | .error e l => .error e l.world

/-- Unpacks archives and packs them again. -/
structure ContentTool (σ : Type) where
  /-- Unpacks an archive into a directory. -/
  extract (archive content : Path) : Run σ Unit
  /-- Packs a directory into an archive. -/
  build (content archive : Path) : Run σ Unit

/-- Signs archives. -/
structure Signer (σ : Type) where
  /-- Signs an archive, and says where the signed copy is. -/
  sign (archive : Path) : Run σ Path

/-- Reads and writes the code of archives. -/
structure Backend (σ : Type) where
  /-- Loads the units of an archive and of the tracing support, with a directory to work
  in. -/
  load (archive workDir : Path) : Load σ Unit
  /-- Makes an archive from another with the units replaced, and says where it is. -/
  write (registry : Registry) (archive workDir : Path) : Run σ Path

end Tracepoint
