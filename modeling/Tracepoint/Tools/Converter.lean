import Tracepoint.Code.UnitDirectory
import Tracepoint.Settings
import Tracepoint.Tools.Collaborators
import Tracepoint.Tools.Program
import Tracepoint.Tools.Template

/-!
# Converters of code

A disassembler turns the code of an archive into a directory of unit documents, and an
assembler turns such a directory into a copy of the archive with that code. Both are
commands that are given as templates. The units of the tracing support come from a
directory of their own and are loaded after those of the archive.
-/

namespace Tracepoint

/-- The commands that convert code, and the directory of the tracing support. -/
structure Converter where
  disassembler : List String
  assembler : List String
  supportDir : Option Path
  deriving DecidableEq, Repr

namespace Converter

/-- The converters that settings ask for. -/
def ofSettings (tools : ToolSettings) : Converter :=
  ⟨tools.disassembler, tools.assembler, tools.supportDir⟩

variable {σ : Type}

/-- Runs a command for a stage that works on an artifact. -/
def command (programs : Programs σ) (stage : Stage) (artifact : Path) :
    List String → Run σ Unit
  | [] => throw (.badInput (.templateEmpty stage.name))
  | program :: args => programs.run stage artifact program args

/-- Makes a directory and all that are missing above it. -/
def makeDir (dir : Path) : FileWork Unit :=
  (FileAction.createDirAll dir).within ("failed to create " ++ dir)

/-- The documents of the code of an archive. -/
def disassemble (c : Converter) (programs : Programs σ) (archive workDir : Path) :
    Run σ (List CodeUnit) := do
  let dir := Path.join workDir "ir"
  makeDir dir
  command programs .loading archive (Template.expand c.disassembler archive dir archive)
  match ← UnitDirectory.read dir with
  | [] => throw (.missingOutput .loading dir)
  | units => return units

/-- The documents of the tracing support. -/
def supportUnits (c : Converter) : FileWork (List CodeUnit) :=
  match c.supportDir with
  | some dir => UnitDirectory.read dir
  | none => return []

/-- Loads the code of an archive and then the tracing support. -/
def load (c : Converter) (programs : Programs σ) (archive workDir : Path) : Load σ Unit := do
  let units ← c.disassemble programs archive workDir
  modify fun l => { l with registry := units.foldl .add l.registry }
  let support ← (c.supportUnits : Run σ _)
  modify fun l => { l with registry := support.foldl .addSupport l.registry }

/-- Assembles the units of a registry into a copy of an archive. -/
def assemble (c : Converter) (programs : Programs σ) (registry : Registry)
    (archive workDir : Path) : Run σ Path := do
  let dir := Path.join workDir "ir-instrumented"
  UnitDirectory.write dir registry.units
  let outDir := Path.join workDir "assembled"
  makeDir outDir
  let output := Path.join outDir (Path.displayName archive)
  command programs .injecting archive (Template.expand c.assembler dir output archive)
  requireOutput .injecting output
  return output

/-- The converters among the programs of a world. -/
def backend (c : Converter) (programs : Programs σ) : Backend σ where
  load := c.load programs
  write := c.assemble programs

end Converter

end Tracepoint
