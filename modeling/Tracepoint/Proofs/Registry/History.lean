import Mathlib.Data.List.DropRight
import Tracepoint.Proofs.Probe.Insertions
import Tracepoint.Proofs.Registry

/-!
# The history of a registry

A registry is read off the operations that led to it (`Registry.history`): since the last reset it
has the added names in the order of their first addition, under each name the unit that was added
last with the probes that injections have put into it since, the names that were added as
support, and the hook of the last resolution that succeeded. Each part follows from what one
operation does to it, by induction from the end of the history.
-/

namespace Tracepoint

namespace Registry

/-- What can be done to a registry. -/
inductive Operation where
  | add (u : CodeUnit)
  | addSupport (u : CodeUnit)
  | resolve (owner method : String)
  | inject (i : Injector) (a : Allocator)
  | reset

namespace Operation

/-- The unit that an operation adds. -/
def unit? : Operation → Option CodeUnit
  | add u | addSupport u => some u
  | _ => none

/-- The unit that an operation adds as support. -/
def supportUnit? : Operation → Option CodeUnit
  | addSupport u => some u
  | _ => none

/-- Whether an operation drops all units. -/
def isReset : Operation → Bool
  | reset => true
  | _ => false

/-- What an operation leaves, also when it fails. -/
def apply (r : Registry) : Operation → Registry
  | add u => r.add u
  | addSupport u => r.addSupport u
  | resolve owner method =>
    match r.resolveHook owner method with
    | .ok (_, r') => r'
    | .error _ => r
  | inject i a => (i.inject r a).registry
  | reset => r.reset

end Operation

/-- What some operations leave of a registry. -/
def replay (r : Registry) (ops : List Operation) : Registry :=
  ops.foldl Operation.apply r

/-- What some operations leave of a new registry. -/
def run (ops : List Operation) : Registry :=
  empty.replay ops

/-- The operations since the last reset. -/
def sinceReset (ops : List Operation) : List Operation :=
  ops.rtakeWhile fun o => !o.isReset

/-- A history has an operation of a kind, which may depend on what was before it, and the same
history has neither another one nor a reset behind it. -/
structure Latest (kind : List Operation → Operation → Prop) (ops before : List Operation)
    (op : Operation) (after : List Operation) : Prop where
  split : ops = before ++ op :: after
  fits : kind before op
  kept : ∀ o ∈ after, o.isReset = false
  last : ∀ front o back, after = front ++ o :: back → ¬ kind (before ++ op :: front) o

/-- Additions under a name. -/
def Adds (name : String) (_ : List Operation) (op : Operation) : Prop :=
  ∃ u, op.unit? = some u ∧ u.name = name

/-- Resolutions that succeed. -/
def Resolves (before : List Operation) (op : Operation) : Prop :=
  ∃ owner method x, op = .resolve owner method ∧ (run before).resolveHook owner method = .ok x

/-- The injections among some operations on a registry make one unit of another. -/
inductive Becomes (r : Registry) : List Operation → CodeUnit → CodeUnit → Prop where
  | refl (u : CodeUnit) : Becomes r [] u u
  | inject {ops : List Operation} {i : Injector} {a : Allocator} {u v w : CodeUnit}
      (earlier : Becomes r ops u v) (treated : i.Treats (r.replay ops) a v w) :
      Becomes r (ops ++ [.inject i a]) u w
  | other {ops : List Operation} {op : Operation} {u v : CodeUnit}
      (earlier : Becomes r ops u v) (other : ∀ i a, op ≠ .inject i a) :
      Becomes r (ops ++ [op]) u v

variable {r : Registry} {ops before after : List Operation} {o op : Operation}
  {kind : List Operation → Operation → Prop} {name owner method : String} {h : MethodRef}

/-! ### One more operation -/

@[simp] theorem run_concat : run (ops ++ [o]) = o.apply (run ops) := by
  rw [run, replay, List.foldl_concat]
  rfl

theorem replay_append : (r.replay before).replay after = r.replay (before ++ after) := by
  rw [replay, replay, replay, List.foldl_append]

theorem sinceReset_concat :
    sinceReset (ops ++ [o]) = if o.isReset then [] else sinceReset ops ++ [o] := by
  rw [sinceReset, List.rtakeWhile_concat]
  cases o.isReset <;> rfl

/-- The latest operation of a kind is the one at the end, or is one before it if that is neither
of the kind nor a reset. -/
theorem latest_concat_iff : Latest kind (ops ++ [o]) before op after ↔
    (kind ops o ∧ before = ops ∧ op = o ∧ after = []) ∨
      (¬ kind ops o ∧ o.isReset = false ∧ ∃ after', after = after' ++ [o] ∧
        Latest kind ops before op after') := by
  constructor
  · rintro ⟨split, fits, kept, last⟩
    rcases List.eq_nil_or_concat after with rfl | ⟨after', o', rfl⟩
    · obtain ⟨rfl, same⟩ := List.append_inj' split rfl
      cases same
      exact .inl ⟨fits, rfl, rfl, rfl⟩
    · rw [List.concat_eq_append] at *
      have split : ops ++ [o] = (before ++ op :: after') ++ [o'] := by simpa using split
      obtain ⟨rfl, same⟩ := List.append_inj' split rfl
      cases same
      refine .inr ⟨last after' o [] rfl, kept o (by simp), after', rfl, rfl, fits, ?_, ?_⟩
      · exact fun o' member => kept o' (by simp [member])
      · rintro front o' back rfl
        exact last front o' (back ++ [o]) (by simp)
  · rintro (⟨fits, rfl, rfl, rfl⟩ | ⟨unfit, kept, after', rfl, latest⟩)
    · exact ⟨rfl, fits, by simp, by simp⟩
    · refine ⟨by simp [latest.split], latest.fits, ?_, ?_⟩
      · intro o' member
        rcases List.mem_append.mp member with there | here
        · exact latest.kept o' there
        · rwa [List.mem_singleton.mp here]
      · intro front o' back split
        rcases List.eq_nil_or_concat back with rfl | ⟨back', o'', rfl⟩
        · obtain ⟨rfl, same⟩ := List.append_inj' split rfl
          cases same
          rwa [← latest.split]
        · rw [List.concat_eq_append] at *
          have split : after' ++ [o] = (front ++ o' :: back') ++ [o''] := by simpa using split
          obtain ⟨rfl, -⟩ := List.append_inj' split rfl
          exact latest.last front o' back' rfl

theorem not_latest_nil : ¬ Latest kind [] before op after := fun latest =>
  absurd latest.split (by simp)

/-! ### What an operation does -/

/-- A resolution that succeeds remembers its result and changes nothing else. -/
theorem resolveHook_eq_ok {r' : Registry} (done : r.resolveHook owner method = .ok (h, r')) :
    r' = { r with hook := some h } ∧ h.owner = owner ∧ h.name = method := by
  rw [resolveHook] at done
  split at done
  · rename_i found
    cases done
    obtain ⟨remembered, same⟩ := Option.filter_eq_some_iff.mp found
    simp only [Bool.and_eq_true, decide_eq_true_eq] at same
    exact ⟨by rw [← remembered], same⟩
  · split at done
    · rename_i m found
      cases done
      obtain ⟨u, -, declared⟩ := Option.bind_eq_some_iff.mp found
      have named := List.find?_some declared
      exact ⟨rfl, rfl, of_decide_eq_true named⟩
    · cases done

theorem apply_resolve (r : Registry) (owner method : String) :
    Operation.apply r (.resolve owner method) = r ∨
    ∃ h, r.resolveHook owner method = .ok (h, { r with hook := some h }) ∧
      Operation.apply r (.resolve owner method) = { r with hook := some h } := by
  rw [Operation.apply]
  rcases done : r.resolveHook owner method with _ | ⟨h, r'⟩
  · exact .inl rfl
  · obtain ⟨rfl, -, -⟩ := resolveHook_eq_ok done
    exact .inr ⟨h, rfl, rfl⟩

@[simp] theorem names_inject (i : Injector) (r : Registry) (a : Allocator) :
    (i.inject r a).registry.names = r.names := by
  have same : List.Forall₂ (fun u v : CodeUnit => u.name = v.name) r.units
      (i.inject r a).registry.units := by
    refine (i.forall₂_inject r a).imp fun u v treated => ?_
    obtain ⟨methods, -, rfl⟩ := treated.probes
    rfl
  refine Eq.symm ?_
  rw [names, names, ← List.forall₂_eq_eq_eq, List.forall₂_map_left_iff, List.forall₂_map_right_iff]
  exact same

/-- Under a name, an injection leaves what it made of the unit that was there. -/
theorem exists_treats_of_unit?_inject {i : Injector} {a : Allocator} {v : CodeUnit}
    (found : (i.inject r a).registry.unit? name = some v) :
    ∃ u, r.unit? name = some u ∧ i.Treats r a u v := by
  obtain ⟨k, indexed, here⟩ := Option.bind_eq_some_iff.mp found
  obtain ⟨inside, there⟩ := List.getElem?_eq_some_iff.mp here
  have inside' : k < r.units.length := by rwa [(i.forall₂_inject r a).length_eq]
  have treated := (i.forall₂_inject r a).get inside' inside
  simp only [List.get_eq_getElem, there] at treated
  exact ⟨r.units[k], Option.bind_eq_some_iff.mpr ⟨k, indexed, List.getElem?_eq_getElem inside'⟩,
    treated⟩

theorem Indexed.apply (h : r.Indexed) : (o.apply r).Indexed := by
  cases o with
  | add u => exact h.add
  | addSupport u => exact h.addSupport
  | resolve owner method =>
    rcases apply_resolve r owner method with same | ⟨_, -, done⟩
    · rwa [same]
    · rw [done]
      exact h.of_eq rfl rfl
  | inject i a => exact h.of_eq (names_inject i r a) rfl
  | reset => exact indexed_empty.of_eq rfl rfl

theorem names_apply (h : r.Indexed) : (o.apply r).names =
    if o.isReset then [] else
      o.unit?.elim r.names fun u => if u.name ∈ r.names then r.names else r.names ++ [u.name] := by
  cases o with
  | add u => exact names_add h
  | addSupport u => exact names_addSupport.trans (names_add h)
  | resolve owner method =>
    rcases apply_resolve r owner method with same | ⟨_, -, done⟩
    · rw [same]
      rfl
    · rw [done]
      rfl
  | inject i a => exact names_inject i r a
  | reset => rfl

theorem support_apply : name ∈ (o.apply r).support ↔
    o.isReset = false ∧ (name ∈ r.support ∨ ∃ u, o.supportUnit? = some u ∧ u.name = name) := by
  cases o with
  | add u => simp [Operation.apply, Operation.isReset, Operation.supportUnit?]
  | addSupport u => simp [Operation.apply, Operation.isReset, Operation.supportUnit?, eq_comm]
  | resolve owner method =>
    rcases apply_resolve r owner method with same | ⟨_, -, done⟩
    · simp [same, Operation.isReset, Operation.supportUnit?]
    · simp [done, Operation.isReset, Operation.supportUnit?]
  | inject i a => simp [Operation.apply, Injector.inject, Operation.isReset, Operation.supportUnit?]
  | reset => simp [Operation.apply, Registry.reset, Operation.isReset]

theorem unit?_apply_of_adds {u : CodeUnit} (h : r.Indexed) (adds : o.unit? = some u) :
    (o.apply r).unit? u.name = some u := by
  cases o with
  | add v =>
    cases adds
    rw [Operation.apply, unit?_add h, if_pos rfl]
  | addSupport v =>
    cases adds
    rw [Operation.apply, unit?_addSupport, unit?_add h, if_pos rfl]
  | resolve | inject | reset => cases adds

/-- What is found under a name after an operation that neither adds under it nor drops all. -/
theorem unit?_apply {v : CodeUnit} (h : r.Indexed) (unadded : ¬ Adds name ops o)
    (found : (o.apply r).unit? name = some v) :
    o.isReset = false ∧ ∃ u, r.unit? name = some u ∧
      ((∀ i a, o ≠ .inject i a) ∧ v = u ∨ ∃ i a, o = .inject i a ∧ i.Treats r a u v) := by
  cases o with
  | add u =>
    have other : u.name ≠ name := fun same => unadded ⟨u, rfl, same⟩
    rw [Operation.apply, unit?_add h, if_neg other] at found
    exact ⟨rfl, v, found, .inl ⟨by simp, rfl⟩⟩
  | addSupport u =>
    have other : u.name ≠ name := fun same => unadded ⟨u, rfl, same⟩
    rw [Operation.apply, unit?_addSupport, unit?_add h, if_neg other] at found
    exact ⟨rfl, v, found, .inl ⟨by simp, rfl⟩⟩
  | resolve owner method =>
    refine ⟨rfl, v, ?_, .inl ⟨by simp, rfl⟩⟩
    rcases apply_resolve r owner method with same | ⟨_, -, done⟩
    · rwa [same] at found
    · rwa [done] at found
  | inject i a =>
    obtain ⟨u, there, treated⟩ := exists_treats_of_unit?_inject found
    exact ⟨rfl, u, there, .inr ⟨i, a, rfl, treated⟩⟩
  | reset => simp [Operation.apply, Registry.reset, unit?] at found

/-- An operation that is neither a resolution that succeeds nor a reset leaves the hook. -/
theorem hook_apply (kept : o.isReset = false)
    (unresolved : ∀ owner method x, o = .resolve owner method →
      r.resolveHook owner method ≠ .ok x) : (o.apply r).hook = r.hook := by
  cases o with
  | add u => exact hook_add
  | addSupport u => exact hook_addSupport
  | resolve owner method =>
    rcases apply_resolve r owner method with same | ⟨h, done, -⟩
    · rw [same]
    · exact absurd done (unresolved owner method _ rfl)
  | inject i a => rfl
  | reset => cases kept

/-! ### What a history leaves -/

theorem indexed_run (ops : List Operation) : (run ops).Indexed := by
  induction ops using List.reverseRecOn with
  | nil => exact indexed_empty
  | append_singleton ops o ih =>
    rw [run_concat]
    exact ih.apply

theorem names_run (ops : List Operation) :
    (run ops).names =
      (((sinceReset ops).filterMap Operation.unit?).map CodeUnit.name).eraseDups := by
  induction ops using List.reverseRecOn with
  | nil => rfl
  | append_singleton ops o ih =>
    rw [run_concat, names_apply (indexed_run ops), sinceReset_concat]
    split
    · rfl
    · rw [List.filterMap_append, List.map_append, List.eraseDups_append]
      cases added : o.unit? with
      | none => simp [added, ih]
      | some u =>
        simp only [Option.elim_some, ih, List.mem_eraseDups, List.filterMap_cons, added,
          List.filterMap_nil, List.map_cons, List.map_nil]
        split
        · rename_i there
          simp [List.removeAll, there]
        · rename_i there
          simp [List.removeAll, there, List.eraseDups_cons]

theorem mem_support_run (ops : List Operation) :
    name ∈ (run ops).support ↔
      ∃ u ∈ (sinceReset ops).filterMap Operation.supportUnit?, u.name = name := by
  induction ops using List.reverseRecOn with
  | nil => simp [run, replay, empty, sinceReset]
  | append_singleton ops o ih =>
    rw [run_concat, support_apply, ih, sinceReset_concat]
    cases o.isReset <;> simp [List.filterMap_append, or_and_right, exists_or]

theorem exists_latest_of_unit?_run {w : CodeUnit} (found : (run ops).unit? name = some w) :
    ∃ before op after u, Latest (Adds name) ops before op after ∧ op.unit? = some u ∧
      u.name = name ∧ (run (before ++ [op])).Becomes after u w := by
  induction ops using List.reverseRecOn generalizing w with
  | nil => cases found
  | append_singleton ops o ih =>
    by_cases added : Adds name ops o
    · have latest : Latest (Adds name) (ops ++ [o]) ops o [] :=
        latest_concat_iff.mpr (.inl ⟨added, rfl, rfl, rfl⟩)
      obtain ⟨u, adds, named⟩ := added
      have here := unit?_apply_of_adds (indexed_run ops) adds
      rw [← run_concat, named, found] at here
      cases here
      exact ⟨ops, o, [], w, latest, adds, named, .refl w⟩
    · rw [run_concat] at found
      obtain ⟨kept, v, there, left⟩ := unit?_apply (indexed_run ops) added found
      obtain ⟨before, op, after, u, latest, adds, named, becomes⟩ := ih there
      refine ⟨before, op, after ++ [o], u,
        latest_concat_iff.mpr (.inr ⟨added, kept, after, rfl, latest⟩), adds, named, ?_⟩
      rcases left with ⟨other, rfl⟩ | ⟨i, a, rfl, treated⟩
      · exact .other becomes other
      · have state : (run (before ++ [op])).replay after = run ops := by
          rw [run, replay_append, latest.split, run]
          simp
        exact .inject becomes (state ▸ treated)

/-- The hook that is remembered is that of the last resolution that succeeded. -/
theorem hook_run_eq_some_iff : (run ops).hook = some h ↔
    ∃ before owner method after r, Latest Resolves ops before (.resolve owner method) after ∧
      (run before).resolveHook owner method = .ok (h, r) := by
  induction ops using List.reverseRecOn with
  | nil =>
    constructor
    · simp [run, replay, empty]
    · rintro ⟨_, _, _, _, _, latest, -⟩
      exact absurd latest not_latest_nil
  | append_singleton ops o ih =>
    simp only [run_concat, latest_concat_iff]
    by_cases resolves : Resolves ops o
    · obtain ⟨owner, method, ⟨h', r'⟩, rfl, done⟩ := resolves
      have left : (Operation.apply (run ops) (.resolve owner method)).hook = some h' := by
        rw [Operation.apply, done]
        rw [(resolveHook_eq_ok done).1]
      have resolves : Resolves ops (.resolve owner method) := ⟨owner, method, _, rfl, done⟩
      rw [left]
      constructor
      · rintro ⟨⟩
        exact ⟨ops, owner, method, [], r', .inl ⟨resolves, rfl, rfl, rfl⟩, done⟩
      · rintro ⟨_, _, _, _, _, ⟨-, rfl, same, -⟩ | ⟨unresolved, -⟩, done'⟩
        · cases same
          cases done.symm.trans done'
          rfl
        · exact absurd resolves unresolved
    · cases kind : o.isReset with
      | true =>
        constructor
        · cases o <;> cases kind
          simp [Operation.apply, Registry.reset]
        · rintro ⟨_, _, _, _, _, ⟨fits, -⟩ | ⟨-, kept, -⟩, -⟩
          · exact absurd fits resolves
          · cases kept
      | false =>
        rw [hook_apply kind fun owner method x same done => resolves ⟨owner, method, x, same, done⟩,
          ih]
        constructor
        · rintro ⟨before, owner, method, after, r, latest, done⟩
          exact ⟨before, owner, method, after ++ [o], r,
            .inr ⟨resolves, rfl, after, rfl, latest⟩, done⟩
        · rintro ⟨before, owner, method, _, r, ⟨fits, -⟩ | ⟨-, -, after, -, latest⟩, done⟩
          · exact absurd fits resolves
          · exact ⟨before, owner, method, after, r, latest, done⟩

/-- What a new registry has come to by a history. -/
structure Recounts (ops : List Operation) : Prop where
  /-- The added names, in the order of their first addition. -/
  names : (run ops).units.map CodeUnit.name =
    (((sinceReset ops).filterMap Operation.unit?).map CodeUnit.name).eraseDups
  distinct : ((run ops).units.map CodeUnit.name).Nodup
  /-- The index leads to the unit of a name, and to no other. -/
  index : ∀ name i, (run ops).index.lookup name = some i ↔
    ∃ u, (run ops).units[i]? = some u ∧ u.name = name
  absent : ∀ name, (run ops).unit? name = none ↔
    ∀ u ∈ (sinceReset ops).filterMap Operation.unit?, u.name ≠ name
  /-- The last unit that was added, with the probes that were put into it since. -/
  present : ∀ name w, (run ops).unit? name = some w →
    ∃ before op after u, Latest (Adds name) ops before op after ∧ op.unit? = some u ∧
      u.name = name ∧ (run (before ++ [op])).Becomes after u w
  support : ∀ name, (run ops).isSupport name = true ↔
    ∃ u ∈ (sinceReset ops).filterMap Operation.supportUnit?, u.name = name
  /-- What was resolved last is resolved to the same hook again. -/
  remembered : ∀ before owner method after h r,
    Latest Resolves ops before (.resolve owner method) after →
      (run before).resolveHook owner method = .ok (h, r) →
        (run ops).resolveHook owner method = .ok (h, run ops)
  /-- Anything else is looked up: the hook is the first method of the name. -/
  lookedUp : ∀ owner method,
    (∀ before after, ¬ Latest Resolves ops before (.resolve owner method) after) →
      (run ops).resolveHook owner method =
        match ((run ops).unit? owner).bind fun u => u.methods.find? fun m => m.name = method with
        | some m => .ok (m.reference owner, { run ops with hook := some (m.reference owner) })
        | none => .error (.hookUnavailable owner method)
  failed : ∀ owner method e, (run ops).resolveHook owner method = .error e →
    run (ops ++ [.resolve owner method]) = run ops

/-- **Every registry is what its history says.** Adding, adding as support, resolving, injecting
and resetting in any order keep the units, their index, the support and the hook in step. -/
theorem recounts_run (ops : List Operation) : Recounts ops where
  names := names_run ops
  distinct := (indexed_run ops).nodup_names
  index name i := (indexed_run ops name i).trans getElem?_names
  absent name := by
    rw [← Option.not_isSome_iff_eq_none, (indexed_run ops).isSome_unit?_iff, names_run,
      List.mem_eraseDups, List.mem_map]
    simp
  present name w := exists_latest_of_unit?_run
  support name := by rw [isSupport, List.contains_iff_mem, mem_support_run]
  remembered before owner method after h r latest done := by
    have remembered := hook_run_eq_some_iff.mpr ⟨before, owner, method, after, r, latest, done⟩
    obtain ⟨-, owned, named⟩ := resolveHook_eq_ok done
    have found :
        ((run ops).hook.filter fun h => h.owner = owner && h.name = method) = some h := by
      rw [remembered, Option.filter_some, owned, named]
      simp
    rw [resolveHook, found]
  lookedUp owner method unresolved := by
    have forgotten :
        ((run ops).hook.filter fun h => h.owner = owner && h.name = method) = none := by
      rw [Option.filter_eq_none_iff]
      intro h remembered same
      obtain ⟨before, owner', method', after, r, latest, done⟩ :=
        hook_run_eq_some_iff.mp remembered
      obtain ⟨-, rfl, rfl⟩ := resolveHook_eq_ok done
      simp only [Bool.and_eq_true, decide_eq_true_eq] at same
      obtain ⟨rfl, rfl⟩ := same
      exact unresolved before after latest
    rw [resolveHook, forgotten]
    rfl
  failed owner method e failed := by rw [run_concat, Operation.apply, failed]

end Registry

end Tracepoint
