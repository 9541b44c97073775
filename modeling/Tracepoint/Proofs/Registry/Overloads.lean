import Tracepoint.Proofs.Probe.Verdict
import Tracepoint.Proofs.Registry.History

/-!
# The hook among overloads

A hook is looked up by its class and its name alone: of several methods of the name the first one
is it, and a hook that was found before is found again. So the calls of probes pass the check of
arguments when that one method takes the operands of a probe, and none of them does when it does
not (`Hook.resolve_of_first`). A later method of the name, or one that has been loaded since, does
not count (`Hook.not_anyOverloadServes`).
-/

namespace Tracepoint

/-- Whether the parameters of a method take a text, a text and a number. -/
def Method.TakesProbe (m : Method) : Prop :=
  ∃ first second third, m.params = [first, second, third] ∧
    (∀ s, (Operand.stringConst s).fits first = true) ∧
    (∀ s, (Operand.stringConst s).fits second = true) ∧
    ∀ k, (Operand.intConst k).fits third = true

namespace Hook

variable {r r' : Registry} {owner method : String} {u : CodeUnit} {m : Method} {h : Hook}

theorem accepts_iff_takesProbe (same : h.method = m.reference owner) :
    h.Accepts ↔ m.TakesProbe := by
  rw [Accepts, same]
  exact Iff.rfl

/-- Whether a call passes depends on neither the identifier nor the position. -/
theorem callFault?_call_eq_none_iff (p : Nat) (id : ProbeId) :
    Body.callFault? p (h.call id) = none ↔ h.Accepts := by
  constructor
  · intro passes
    by_contra refuses
    obtain ⟨e, fault, -⟩ := Body.exists_callFault?_call refuses p id
    rw [passes] at fault
    cases fault
  · exact fun accepts => Body.callFault?_call accepts p id

/-- The first method of the name is found when no other hook of the class and the name is
remembered. -/
theorem resolveHook_of_first (loaded : r.unit? owner = some u)
    (first : u.methodNamed? method = some m)
    (remembered : ∀ h, r.hook = some h → h.owner = owner → h.name = method →
      h = m.reference owner) :
    ∃ r', r.resolveHook owner method = .ok (m.reference owner, r') := by
  rw [Registry.resolveHook]
  split
  · rename_i h found
    obtain ⟨there, same⟩ := Option.filter_eq_some_iff.mp found
    simp only [Bool.and_eq_true, decide_eq_true_eq] at same
    exact ⟨r, by rw [remembered h there same.1 same.2]⟩
  · rw [loaded, Option.bind_some, first]
    exact ⟨_, rfl⟩

/-- **The first method of the name decides for the calls of all probes**, on every channel and
whether hits are copied or not. -/
theorem resolve_of_first (loaded : r.unit? owner = some u)
    (first : u.methods.find? (fun m => m.name = method) = some m)
    (remembered : ∀ h, r.hook = some h → h.owner = owner → h.name = method →
      h = m.reference owner)
    (channel : String) (copiesToLog : Bool) :
    ∃ hook r', resolve r owner method channel copiesToLog = .ok (hook, r') ∧
      (m.TakesProbe → ∀ p id, Body.callFault? p (hook.call id) = none) ∧
      (¬ m.TakesProbe → ∀ p id, Body.callFault? p (hook.call id) ≠ none) := by
  obtain ⟨r', found⟩ := resolveHook_of_first loaded first remembered
  have decided : (⟨m.reference owner, channel, copiesToLog⟩ : Hook).Accepts ↔ m.TakesProbe :=
    accepts_iff_takesProbe rfl
  refine ⟨⟨m.reference owner, channel, copiesToLog⟩, r', by rw [resolve, found], ?_, ?_⟩
  · exact fun takes p id => (callFault?_call_eq_none_iff p id).mpr (decided.mpr takes)
  · exact fun refuses p id passes =>
      refuses (decided.mp ((callFault?_call_eq_none_iff p id).mp passes))

/-- Whether the calls of probes pass as soon as some method of the name takes their operands. -/
def AnyOverloadServes (r : Registry) (owner method : String) : Prop :=
  ∀ u, r.unit? owner = some u → (∃ m ∈ u.methods, m.name = method ∧ m.TakesProbe) →
    ∀ channel copiesToLog, ∃ hook r', resolve r owner method channel copiesToLog = .ok (hook, r') ∧
      ∀ p id, Body.callFault? p (hook.call id) = none

/-- A class that declares a hook with each of some parameters. -/
def overloads (params : List (List ValueType)) : CodeUnit :=
  ⟨"a.Hook", params.map fun params => ⟨"hook", params, .void, none⟩⟩

theorem takesProbe_overload :
    (⟨"hook", [.string, .string, .int], .void, none⟩ : Method).TakesProbe :=
  ⟨.string, .string, .int, rfl, fun _ => rfl, fun _ => rfl, fun _ => rfl⟩

theorem resolve_of_first_overloads :
    ∃ hook r', resolve (.run [.add (overloads [[.string, .string, .int], [.int]])])
        "a.Hook" "hook" "c" true = .ok (hook, r') ∧
      ∀ p id, Body.callFault? p (hook.call id) = none := by
  obtain ⟨hook, r', done, passes, -⟩ := @resolve_of_first
    (.run [.add (overloads [[.string, .string, .int], [.int]])]) "a.Hook" "hook" _ _ rfl rfl
    (by rintro h ⟨⟩) "c" true
  exact ⟨hook, r', done, passes takesProbe_overload⟩

/-- **That some method of the name takes the operands of a probe is not enough**: not when an
overload stands in front of it, and not when the hook was found in a class that it has taken the
place of. -/
theorem not_anyOverloadServes :
    ¬ AnyOverloadServes (.run [.add (overloads [[.int], [.string, .string, .int]])])
        "a.Hook" "hook" ∧
      ¬ AnyOverloadServes (.run [.add (overloads [[.int]]), .resolve "a.Hook" "hook",
        .add (overloads [[.string, .string, .int]])]) "a.Hook" "hook" := by
  constructor
  · intro serves
    obtain ⟨hook, r', done, passes⟩ := serves _ rfl
      ⟨_, List.mem_cons_of_mem _ (List.mem_singleton.mpr rfl), rfl, takesProbe_overload⟩ "c" true
    cases done
    cases passes 0 (.counter 0)
  · intro serves
    obtain ⟨hook, r', done, passes⟩ := serves _ rfl
      ⟨_, List.mem_singleton.mpr rfl, rfl, takesProbe_overload⟩ "c" true
    cases done
    cases passes 0 (.counter 0)

end Hook

end Tracepoint
