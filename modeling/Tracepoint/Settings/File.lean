import Tracepoint.Settings
import Tracepoint.Run.World

/-!
# Settings files
-/

namespace Tracepoint

/-- The settings in a file. -/
def Settings.ofFile (p : Path) : FileWork Settings := do
  let text ← (FileAction.ask (·.readText p)).within ("failed to read " ++ p)
  match Settings.ofToml text with
  | .ok s => return s
  | .error e => throw e

end Tracepoint
