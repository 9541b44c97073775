import Tracepoint.Files.Path

/-!
# Command templates

The words of a command with places for paths. The places are filled one kind after the
other, so a path that spells a later place is filled in its turn.
-/

namespace Tracepoint.Template

/-- The place of the path that a command reads. -/
def inputPlace : String := "\x7binput\x7d"

/-- The place of the path that a command makes. -/
def outputPlace : String := "\x7boutput\x7d"

/-- The place of the archive that a command works from. -/
def archivePlace : String := "\x7boriginal\x7d"

/-- Fills the places of one word. -/
def expandWord (input output archive : Path) (word : String) : String :=
  Text.replace (Text.replace (Text.replace word inputPlace input) outputPlace output)
    archivePlace archive

/-- Fills the places of a template. -/
def expand (template : List String) (input output archive : Path) : List String :=
  template.map (expandWord input output archive)

end Tracepoint.Template
