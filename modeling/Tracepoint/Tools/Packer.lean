import Tracepoint.Tools.Collaborators
import Tracepoint.Tools.Program

/-!
# The packing tool

Archives are unpacked and packed by a tool in a jar. Code and resources stay packed, since
only the descriptor is edited.
-/

namespace Tracepoint

/-- The packing tool: the program that runs jars, and the jar. -/
structure Packer where
  program : String
  jar : Path
  deriving DecidableEq, Repr

namespace Packer

/-- The arguments that unpack an archive. -/
def extractArgs (p : Packer) (archive content : Path) : List String :=
  ["-jar", p.jar, "-s", "-f", "-r", "d", "-o", content, archive]

/-- The arguments that pack a directory. -/
def buildArgs (p : Packer) (content archive : Path) : List String :=
  ["-jar", p.jar, "b", content, "-o", archive]

/-- The packing tool among the programs of a world. -/
def tool {σ : Type} (p : Packer) (programs : Programs σ) : ContentTool σ where
  extract archive content := do
    programs.run .extracting archive p.program (p.extractArgs archive content)
    requireOutput .extracting content
  build content archive := do
    programs.run .rebuilding archive p.program (p.buildArgs content archive)
    requireOutput .rebuilding archive

end Packer

end Tracepoint
