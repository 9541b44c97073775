import Tracepoint.Probe.Injection

/-!
# Sweeps

Injection goes through methods and through units alike: front to back, handing its progress
on, up to the first fault (`sweep`). A sweep that meets no fault has made every one of its
steps (`Sweeps`), so it maps the list front to back (`Sweeps.thread_eq`) and what holds of
each step holds of each place (`Sweeps.exists_step`). What a step can do to a method and to a unit
is said once (`Injector.MethodStep`, `Injector.UnitStep`).
-/

namespace Tracepoint

/-- Maps a list front to back, handing a state on. -/
def thread {α σ : Type} (f : α → σ → α × σ) : List α → σ → List α × σ
  | [], s => ([], s)
  | x :: rest, s =>
    let (y, s) := f x s
    let (rest, s) := thread f rest s
    (y :: rest, s)

/-- The items behind are mapped from the state that those in front leave. -/
theorem thread_append {α σ : Type} (f : α → σ → α × σ) (front rest : List α) (s : σ) :
    thread f (front ++ rest) s =
      ((thread f front s).1 ++ (thread f rest (thread f front s).2).1,
        (thread f rest (thread f front s).2).2) := by
  induction front generalizing s with
  | nil => rfl
  | cons x front ih => simp only [List.cons_append, thread, ih]

/-- Maps a list front to back, handing progress on, up to the first fault. -/
def sweep {α : Type} (f : α → Progress → α × Progress × Option Fault) :
    List α → Progress → List α × Progress × Option Fault
  | [], p => ([], p, none)
  | x :: rest, p =>
    match f x p with
    | (y, p, some e) => (y :: rest, p, some e)
    | (y, p, none) =>
      let (rest, p, fault) := sweep f rest p
      (y :: rest, p, fault)

theorem Injector.probeMethods_eq_sweep (i : Injector) (unit : String) :
    i.probeMethods unit = sweep (i.probeMethod unit) := by
  funext methods p
  induction methods generalizing p with
  | nil => rfl
  | cons m rest ih =>
    simp only [probeMethods, sweep, ih]
    rcases i.probeMethod unit m p with ⟨m, p, _ | e⟩ <;> rfl

theorem Injector.probeUnits_eq_sweep (i : Injector) : i.probeUnits = sweep i.probeUnit := by
  funext units p
  induction units generalizing p with
  | nil => rfl
  | cons u rest ih =>
    simp only [probeUnits, sweep, ih]
    rcases i.probeUnit u p with ⟨u, p, _ | e⟩ <;> rfl

/-- The steps of a sweep that meets no fault. -/
inductive Sweeps {α : Type} (f : α → Progress → α × Progress × Option Fault) :
    List α → Progress → List α → Progress → Prop where
  | nil (p : Progress) : Sweeps f [] p [] p
  | cons {x y : α} {rest ys : List α} {p p' q : Progress} (step : f x p = (y, p', none))
      (later : Sweeps f rest p' ys q) : Sweeps f (x :: rest) p (y :: ys) q

variable {α : Type} {f : α → Progress → α × Progress × Option Fault} {xs ys : List α}
  {p q : Progress}

theorem sweeps_of_sweep (h : sweep f xs p = (ys, q, none)) : Sweeps f xs p ys q := by
  induction xs generalizing p ys with
  | nil =>
    cases h
    exact .nil _
  | cons x rest ih =>
    rcases step : f x p with ⟨y, p', _ | e⟩
    · rcases later : sweep f rest p' with ⟨zs, q', fault⟩
      simp only [sweep, step, later, Prod.mk.injEq] at h
      obtain ⟨rfl, rfl, rfl⟩ := h
      exact .cons step (ih later)
    · simp [sweep, step] at h

/-- A sweep that meets a fault has made the steps before it, and leaves the list behind it alone. -/
theorem exists_split_of_sweep {e : Fault} (failed : sweep f xs p = (ys, q, some e)) :
    ∃ before x rest before' y p', xs = before ++ x :: rest ∧ ys = before' ++ y :: rest ∧
      Sweeps f before p before' p' ∧ f x p' = (y, q, some e) := by
  induction xs generalizing p ys with
  | nil => cases failed
  | cons x rest ih =>
    rcases step : f x p with ⟨y, p', _ | e'⟩
    · rcases later : sweep f rest p' with ⟨zs, q', fault⟩
      simp only [sweep, step, later, Prod.mk.injEq] at failed
      obtain ⟨rfl, rfl, rfl⟩ := failed
      obtain ⟨before, z, behind, before', z', p'', rfl, rfl, sweeps, met⟩ := ih later
      exact ⟨x :: before, z, behind, y :: before', z', p'', rfl, rfl, .cons step sweeps, met⟩
    · simp only [sweep, step, Prod.mk.injEq, Option.some.injEq] at failed
      obtain ⟨rfl, rfl, rfl⟩ := failed
      exact ⟨[], x, rest, [], y, p, rfl, rfl, .nil p, step⟩

theorem Sweeps.length_eq (h : Sweeps f xs p ys q) : ys.length = xs.length := by
  induction h with
  | nil p => rfl
  | cons step later ih => rw [List.length_cons, List.length_cons, ih]

/-- A sweep whose steps act as a function does maps the list by that function. -/
theorem Sweeps.thread_eq {g : α → Allocator → α × Allocator} (h : Sweeps f xs p ys q)
    (steps : ∀ x ∈ xs, ∀ p y q, f x p = (y, q, none) → g x p.allocator = (y, q.allocator)) :
    thread g xs p.allocator = (ys, q.allocator) := by
  induction h with
  | nil p => rfl
  | cons step later ih =>
    rw [thread, steps _ List.mem_cons_self _ _ _ step]
    simp only [ih fun x member => steps x (List.mem_cons_of_mem _ member)]

/-- Every place of a sweep has its step. -/
theorem Sweeps.exists_step (h : Sweeps f xs p ys q) {k : Nat} {x : α} (place : xs[k]? = some x) :
    ∃ p' y q', f x p' = (y, q', none) ∧ ys[k]? = some y := by
  induction h generalizing k with
  | nil p => simp at place
  | @cons _ y _ _ p p' _ step later ih =>
    cases k with
    | zero =>
      rw [List.getElem?_cons_zero] at place
      cases place
      exact ⟨p, y, p', step, rfl⟩
    | succ k =>
      rw [List.getElem?_cons_succ] at place ⊢
      exact ih place

namespace Injector

/-- What an injection makes of a method when it meets no fault there. -/
inductive MethodStep (i : Injector) (unit : String) (m : Method) (p : Progress) :
    Method → Progress → Prop where
  | bodiless (body : m.body = none) : MethodStep i unit m p m p
  | outside {b : Body} (body : m.body = some b)
      (outside : i.policy.inScope (m.signature unit) = false) :
      MethodStep i unit m p m (p.skip .outOfScope b.length)
  | through {b b' : Body} {q : Progress} (body : m.body = some b)
      (inside : i.policy.inScope (m.signature unit) = true)
      (step : i.probeBody unit (m.signature unit) b p = (b', q, none)) :
      MethodStep i unit m p { m with body := some b' } q

/-- What an injection makes of a unit when it meets no fault there. -/
inductive UnitStep (i : Injector) (u : CodeUnit) (p : Progress) : CodeUnit → Progress → Prop where
  | alone {d : Decision} (decided : i.policy.unitDecision? u.name = some d) :
      UnitStep i u p u (p.skipUnit d u.statementCount)
  | through {methods : List Method} {q : Progress} (free : i.policy.unitDecision? u.name = none)
      (sweeps : Sweeps (i.probeMethod u.name) u.methods p methods q) :
      UnitStep i u p { u with methods } q

variable {i : Injector} {unit : String}

theorem methodStep_of_probeMethod {m m' : Method} (done : i.probeMethod unit m p = (m', q, none)) :
    i.MethodStep unit m p m' q := by
  rw [probeMethod] at done
  split at done
  · rename_i body
    cases done
    exact .bodiless body
  · rename_i b body
    split at done
    · rename_i inside
      rcases step : i.probeBody unit (m.signature unit) b p with ⟨b', q', fault⟩
      simp only [step, Prod.mk.injEq] at done
      obtain ⟨rfl, rfl, rfl⟩ := done
      exact .through body inside step
    · rename_i outside
      cases done
      exact .outside body (eq_false_of_ne_true outside)

theorem unitStep_of_probeUnit {u u' : CodeUnit} (done : i.probeUnit u p = (u', q, none)) :
    i.UnitStep u p u' q := by
  rw [probeUnit] at done
  split at done
  · rename_i d decided
    cases done
    exact .alone decided
  · rename_i free
    rw [probeMethods_eq_sweep] at done
    rcases swept : sweep (i.probeMethod u.name) u.methods p with ⟨methods, q', fault⟩
    simp only [swept, Prod.mk.injEq] at done
    obtain ⟨rfl, rfl, rfl⟩ := done
    exact .through free (sweeps_of_sweep swept)

end Injector

end Tracepoint
