import Tracepoint.Probe.Id
import Tracepoint.Registry

/-!
# The tracing hook

Every probe is a static call of the hook with the identifier of the probe, the channel it
reports on and whether the hit is copied to the log. The hook is part of the tracing
support that is bundled with an application.
-/

namespace Tracepoint

/-- The method that probes call, and what every call passes to it. -/
structure Hook where
  method : MethodRef
  channel : String
  copiesToLog : Bool
  deriving DecidableEq, Repr

namespace Hook

/-- The package of the tracing support. -/
def supportPackage : String := "org.covprobe.runtime"

/-- The class that declares the hook. -/
def defaultOwner : String := "org.covprobe.runtime.Runtime"

/-- The name of the hook. -/
def defaultMethod : String := "statementPoint"

/-- The file that probes report on. -/
def defaultChannel : String := "/data/local/tmp/coverage_port.tmp"

/-- The classes of the tracing support. -/
def supportClasses : List String :=
  ["MonitorTcpServer", "Runtime", "SerializationHelper", "TcpServerBase$1",
   "TcpServerBase$MonitorServerRunnable", "TcpServerBase"]

/-- The units that are never instrumented because they are the tracing support. -/
def defaultHelpers : List String :=
  supportClasses.map fun name => supportPackage ++ "." ++ name

/-- The hook of a name among the loaded units. -/
def resolve (r : Registry) (owner method channel : String) (copiesToLog : Bool) :
    Except Fault (Hook × Registry) :=
  match r.resolveHook owner method with
  | .ok (m, r) => .ok (⟨m, channel, copiesToLog⟩, r)
  | .error e => .error e

/-- The operands of the call for a probe. -/
def arguments (h : Hook) (id : ProbeId) : List Operand :=
  [.stringConst id.render, .stringConst h.channel, .intConst (if h.copiesToLog then 1 else 0)]

/-- The call for a probe. -/
def call (h : Hook) (id : ProbeId) : Instruction :=
  .invoke h.method (h.arguments id)

/-- Whether an instruction calls the hook. -/
def isCall (h : Hook) : Instruction → Bool
  | .invoke callee _ => callee = h.method
  | _ => false

/-- A unit that declares a hook whose body only returns. -/
def declaration (owner method : String) : CodeUnit :=
  ⟨owner, [⟨method, [.string, .string, .int], .void, some (Body.empty.push (.ret none)).1⟩]⟩

end Hook

end Tracepoint
