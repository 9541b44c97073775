import Tracepoint.Fault

/-!
# The registry of code units

The units that have been loaded for one run, in the order in which their names first came,
an index of their positions, the names of those that belong to the tracing support, and the
hook that was found last.
-/

namespace Tracepoint

/-- The loaded units of a run. -/
structure Registry where
  units : List CodeUnit
  /-- The position of each unit, under its name. -/
  index : List (String × Nat) := units.mapIdx fun i u => (u.name, i)
  /-- The names of the units that were ever added as support. -/
  support : List String
  /-- The hook that was found last. -/
  hook : Option MethodRef
  deriving DecidableEq, Repr, Inhabited

namespace Registry

/-- The registry without units. -/
def empty : Registry :=
  ⟨[], [], [], none⟩

/-- Adds a unit; it takes the place of an earlier one of its name. -/
def add (r : Registry) (u : CodeUnit) : Registry :=
  match r.index.lookup u.name with
  | some i => { r with units := r.units.set i u }
  | none =>
    { r with
      index := r.index ++ [(u.name, r.units.length)]
      units := r.units ++ [u] }

/-- Adds a unit of the tracing support. -/
def addSupport (r : Registry) (u : CodeUnit) : Registry :=
  { r with
    support := if u.name ∈ r.support then r.support else r.support ++ [u.name] }.add u

/-- Whether a name was ever added as support. -/
def isSupport (r : Registry) (name : String) : Bool :=
  r.support.contains name

/-- The unit of a name. -/
def unit? (r : Registry) (name : String) : Option CodeUnit :=
  (r.index.lookup name).bind fun i => r.units[i]?

/-- Finds the hook, first as the one that was found last, then among the units. -/
def resolveHook (r : Registry) (owner method : String) : Except Fault (MethodRef × Registry) :=
  match r.hook.filter fun h => h.owner = owner && h.name = method with
  | some h => .ok (h, r)
  | none =>
    match (r.unit? owner).bind fun u => u.methodNamed? method with
    | some m => .ok (m.reference owner, { r with hook := some (m.reference owner) })
    | none => .error (.hookUnavailable owner method)

/-- Drops the units and the hook. -/
def reset (r : Registry) : Registry :=
  { r with units := [], index := [], support := [], hook := none }

end Registry

end Tracepoint
