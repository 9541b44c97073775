import Tracepoint.Archive
import Tracepoint.Settings
import Tracepoint.Tools.Collaborators
import Tracepoint.Tools.Program

/-!
# The signing tool

Archives are signed with a key from a keystore. Without one in the settings the debug
keystore in the home directory is used.
-/

namespace Tracepoint

/-- The signing tool. -/
structure JarSigner where
  program : String
  keystore : Path
  keyAlias : String
  password : String
  deriving DecidableEq, Repr

namespace JarSigner

/-- The debug keystore of a user. -/
def debugKeystore (home : Path) : Path :=
  Path.join (Path.join home ".android") "debug.keystore"

/-- The signing tool that settings ask for. -/
def ofSettings (tools : ToolSettings) (home : Option Path) : Except Fault JarSigner :=
  match tools.keystore, home with
  | some keystore, _ => .ok ⟨tools.jarsigner, keystore, tools.keystoreAlias, tools.keystorePassword⟩
  | none, some home =>
    .ok ⟨tools.jarsigner, debugKeystore home, tools.keystoreAlias, tools.keystorePassword⟩
  | none, none => .error (.badInput .noKeystore)

/-- The arguments that sign an archive. -/
def args (s : JarSigner) (archive : Path) : List String :=
  ["-sigalg", "SHA1withRSA", "-digestalg", "SHA1", "-keystore", s.keystore,
    "-storepass", s.password, "-signedjar", Archive.signedPath archive, archive, s.keyAlias]

/-- The signing tool among the programs of a world. -/
def signer {σ : Type} (s : JarSigner) (programs : Programs σ) : Signer σ where
  sign archive := do
    programs.run .signing archive s.program (s.args archive)
    requireOutput .signing (Archive.signedPath archive)
    return Archive.signedPath archive

end JarSigner

end Tracepoint
