import Tracepoint.Proofs.Code.Flow
import Tracepoint.Proofs.Probe.Injection
import Tracepoint.Proofs.Probe.Positions

/-!
# Control flow of the woven form

A step of the woven form goes from the site of a statement to the front of one that the body
has a step to (`Labelled.step_of_site`), or from a probe to its statement or, if probes may
raise an exception, to the front of a handler (`Labelled.step_of_front`). So the paths of the
woven form are those of the body with a probe gone through before each ordinary statement
(`Labelled.flowKept_woven`).
-/

namespace Tracepoint

namespace Body

variable {h : Hook} {a : Allocator} {b : Body} {raises : Statement → Prop} {s : Statement}
  {t : Trap} {l : Label} {p q : Nat} {path : List Nat}

/-- The statements that stand in a body already, and not as probes in its woven form. -/
def IsOld (b : Body) (s : Statement) : Prop :=
  s.label ∈ b.labels

/-- The path of a body along which a path of another one goes, by the labels that both have. -/
def erase (b b' : Body) (path : List Nat) : List Nat :=
  path.filterMap fun q => (b'.statements[q]?).bind fun s => b.position? s.label

/-- Whether what stands at a position of another body is a call of the hook that is no statement of
the body and stands right in front of one. -/
def Guards (h : Hook) (b b' : Body) (q : Nat) (s : Statement) : Prop :=
  ∃ l id, b'.statements[q]? = some ⟨l, h.call id⟩ ∧ l ∉ b.labels ∧
    b'.position? s.label = some (q + 1)

/-! ### Traps -/

/-- The positions that a trap covers, when its range is between two statements. -/
theorem covers_iff {first stop : Nat} (firstHere : b.position? t.first = some first)
    (stopHere : b.position? t.stop = some stop) : b.Covers t p ↔ first ≤ p ∧ p < stop := by
  simp [Covers, firstHere, stopHere]

/-- The range of a trap in the woven form goes from a front up to a front. -/
theorem Labelled.covers_woven_iff (labelled : b.Labelled) (room : b.HasRoom) {first stop : Nat}
    (firstHere : b.position? t.first = some first) (stopHere : b.position? t.stop = some stop) :
    (b.woven h a).Covers (t.retarget b.lead) q ↔
      front b.statements first ≤ q ∧ q < front b.statements stop :=
  covers_iff (labelled.position?_lead room firstHere) (labelled.position?_lead room stopHere)

/-- **Ranges stay.** A trap of the woven form covers a statement when it covered it before. -/
theorem Labelled.covers_site (labelled : b.Labelled) (room : b.HasRoom)
    (resolved : ∀ l ∈ t.references, l ∈ b.labels) :
    (b.woven h a).Covers (t.retarget b.lead) (site b.statements p) ↔ b.Covers t p := by
  obtain ⟨first, firstHere⟩ := exists_position (resolved t.first (by simp [Trap.references]))
  obtain ⟨stop, stopHere⟩ := exists_position (resolved t.stop (by simp [Trap.references]))
  rw [covers_iff firstHere stopHere, labelled.covers_woven_iff room firstHere stopHere,
    front_le_site_iff, site_lt_front_iff]

/-- A trap of the woven form covers the front of a statement when it covered the statement. -/
theorem Labelled.covers_front (labelled : b.Labelled) (room : b.HasRoom)
    (resolved : ∀ l ∈ t.references, l ∈ b.labels) :
    (b.woven h a).Covers (t.retarget b.lead) (front b.statements p) ↔ b.Covers t p := by
  obtain ⟨first, firstHere⟩ := exists_position (resolved t.first (by simp [Trap.references]))
  obtain ⟨stop, stopHere⟩ := exists_position (resolved t.stop (by simp [Trap.references]))
  rw [covers_iff firstHere stopHere, labelled.covers_woven_iff room firstHere stopHere,
    front_le_front_iff, front_lt_front_iff]

/-! ### Steps -/

/-- A trap of the woven form leads to the front of its handler. -/
theorem Labelled.exists_handler (labelled : b.Labelled) (room : b.HasRoom) (resolved : b.Resolved)
    {r : Nat} (trap : t ∈ (b.woven h a).traps)
    (there : (b.woven h a).position? t.handler = some r) :
    ∃ t₀ p, t₀ ∈ b.traps ∧ t = t₀.retarget b.lead ∧ b.position? t₀.handler = some p ∧
      r = front b.statements p := by
  obtain ⟨t₀, member, rfl⟩ := List.mem_map.mp trap
  obtain ⟨p, place⟩ :=
    exists_position (resolved.of_trap member (by simp [Trap.references] : t₀.handler ∈ _))
  rw [Trap.retarget, labelled.position?_lead room place, Option.some_inj] at there
  exact ⟨t₀, p, member, rfl, place, there.symm⟩

/-- A step from the site of a statement goes to the front of one that it had a step to. -/
theorem Labelled.step_of_site (labelled : b.Labelled) (room : b.HasRoom) (resolved : b.Resolved)
    {r : Nat} (here : b.statements[p]? = some s)
    (step : (b.woven h a).Step raises (site b.statements p) r) :
    ∃ q, r = front b.statements q ∧ b.Step (fun _ => True) p q := by
  have there : (b.woven h a).statements[site b.statements p]? = some (s.retarget b.lead) :=
    getElem?_site here
  cases step with
  | @next s' here' falls =>
    obtain rfl : s.retarget b.lead = s' := Option.some_inj.mp (there.symm.trans here')
    rw [Statement.retarget, Instruction.fallsThrough_retarget] at falls
    exact ⟨p + 1, (front_succ _ _).symm, .next here falls⟩
  | @jump _ s' l here' target found =>
    obtain rfl : s.retarget b.lead = s' := Option.some_inj.mp (there.symm.trans here')
    rw [Statement.retarget, Instruction.branchTarget?_retarget, Option.map_eq_some_iff] at target
    obtain ⟨l, target, rfl⟩ := target
    obtain ⟨q, place⟩ := exists_position (resolved.of_jump (List.mem_of_getElem? here) target)
    rw [labelled.position?_lead room place, Option.some_inj] at found
    exact ⟨q, found.symm, .jump here target place⟩
  | raise here' may trap covered found =>
    obtain ⟨t, q, member, rfl, place, rfl⟩ := labelled.exists_handler room resolved trap found
    rw [labelled.covers_site room fun l => resolved.of_trap member] at covered
    exact ⟨q, rfl, .raise here trivial member covered place⟩

/-- A step from a probe goes to its statement, unless the probe raises an exception: then it goes
to the front of a handler. -/
theorem Labelled.step_of_front (labelled : b.Labelled) (room : b.HasRoom) (resolved : b.Resolved)
    {r : Nat} (here : b.statements[p]? = some s) (ordinary : s.isIdentity = false)
    (step : (b.woven h a).Step raises (front b.statements p) r) :
    r = site b.statements p ∨
      ∃ q s', r = front b.statements q ∧ s'.label ∉ b.labels ∧ raises s' := by
  obtain ⟨l, id, there, fresh⟩ := exists_probe (h := h) (a := a) room here ordinary
  cases step with
  | next here' falls => exact .inl (site_of_ordinary here ordinary).symm
  | @jump _ s' _ here' target found =>
    obtain rfl : ⟨l, h.call id⟩ = s' := Option.some_inj.mp (there.symm.trans here')
    cases target
  | @raise _ s' _ here' may trap covered found =>
    obtain rfl : ⟨l, h.call id⟩ = s' := Option.some_inj.mp (there.symm.trans here')
    obtain ⟨t, q, -, -, -, rfl⟩ := labelled.exists_handler room resolved trap found
    exact .inr ⟨q, _, rfl, fresh, may⟩

/-- **Only the probe of an ordinary statement has a step to it.** -/
theorem Labelled.eq_front_of_step (labelled : b.Labelled) (room : b.HasRoom)
    (resolved : b.Resolved) (here : b.statements[p]? = some s) (ordinary : s.isIdentity = false)
    (step : (b.woven h a).Step raises q (site b.statements p)) : q = front b.statements p := by
  obtain ⟨p', s', here', rfl | ⟨rfl, ordinary'⟩⟩ := front_or_site step.start_lt_length
  · obtain ⟨r, same, -⟩ := labelled.step_of_site room resolved here' step
    exact absurd same (site_ne_front here ordinary r)
  · rcases labelled.step_of_front room resolved here' ordinary' step with same | ⟨r, _, same, -⟩
    · rw [site_inj same]
    · exact absurd same (site_ne_front here ordinary r)

/-- Each step has its counterpart, from the site of the statement to the front of the next. -/
theorem Labelled.step_site (labelled : b.Labelled) (room : b.HasRoom) (resolved : b.Resolved)
    (step : b.Step (fun _ => True) p q) :
    (b.woven h a).Step b.IsOld (site b.statements p) (front b.statements q) := by
  cases step with
  | next here falls =>
    rw [front_succ]
    refine .next (getElem?_site here) ?_
    rwa [Statement.retarget, Instruction.fallsThrough_retarget]
  | @jump _ s l here target there =>
    refine .jump (getElem?_site here) (l := b.lead l) ?_ (labelled.position?_lead room there)
    rw [Statement.retarget, Instruction.branchTarget?_retarget, target, Option.map_some]
  | @raise _ s t here may trap covered there =>
    refine .raise (getElem?_site here) ?_ (List.mem_map.mpr ⟨t, trap, rfl⟩)
      ((labelled.covers_site room fun l => resolved.of_trap trap).mpr covered)
      (labelled.position?_lead room there)
    exact List.mem_map.mpr ⟨s, List.mem_of_getElem? here, rfl⟩

/-- With labels left for all of them, a probe stands in front of each ordinary statement. -/
theorem Labelled.guards_front (labelled : b.Labelled) (room : b.HasRoom)
    (here : b.statements[p]? = some s) (ordinary : s.isIdentity = false) :
    Guards h b (b.woven h a) (front b.statements p) s := by
  obtain ⟨l, id, there, fresh⟩ := exists_probe (h := h) (a := a) room here ordinary
  refine ⟨l, id, there, fresh, ?_⟩
  rw [← site_of_ordinary here ordinary]
  exact labelled.position?_site room (labelled.position?_label here)

/-! ### Paths -/

theorem erase_cons_site (labelled : b.Labelled) (here : b.statements[p]? = some s) :
    erase b (b.woven h a) (site b.statements p :: path) = p :: erase b (b.woven h a) path := by
  have there : (b.woven h a).statements[site b.statements p]? = some (s.retarget b.lead) :=
    getElem?_site here
  rw [erase, List.filterMap_cons, there, Option.bind_some, Statement.label_retarget,
    labelled.position?_label here]
  rfl

theorem erase_cons_front (room : b.HasRoom) (here : b.statements[p]? = some s)
    (ordinary : s.isIdentity = false) :
    erase b (b.woven h a) (front b.statements p :: path) = erase b (b.woven h a) path := by
  obtain ⟨l, id, there, fresh⟩ := exists_probe (h := h) (a := a) room here ordinary
  rw [erase, List.filterMap_cons, there, Option.bind_some, position?_eq_none_iff.mpr fresh]
  rfl

/-- A path from the site of a statement is continued backwards to its front. -/
theorem exists_path_front (room : b.HasRoom) (here : b.statements[p]? = some s)
    (along : (b.woven h a).PathFrom b.IsOld (site b.statements p) path) :
    ∃ path', (b.woven h a).PathFrom b.IsOld (front b.statements p) path' ∧
      erase b (b.woven h a) path' = erase b (b.woven h a) path := by
  cases kind : s.isIdentity with
  | true => exact ⟨path, site_of_isIdentity here kind ▸ along, rfl⟩
  | false =>
    obtain ⟨l, id, there, -⟩ := exists_probe (h := h) (a := a) room here kind
    rw [site_of_ordinary here kind] at along
    exact ⟨_, .step (.next there rfl) along, erase_cons_front room here kind⟩

/-- **Every path of the body is the erasure of one of the woven form.** -/
theorem Labelled.exists_path_woven (labelled : b.Labelled) (room : b.HasRoom)
    (valid : b.fault? = none) (along : b.PathFrom (fun _ => True) p path)
    (inside : p < b.statements.length) :
    ∃ path', (b.woven h a).PathFrom b.IsOld (front b.statements p) path' ∧
      erase b (b.woven h a) path' = path := by
  induction along with
  | stop p =>
    have here := List.getElem?_eq_getElem inside
    have atSite : (b.woven h a).PathFrom b.IsOld (site b.statements p) [site b.statements p] :=
      .stop _
    obtain ⟨path', along, same⟩ := exists_path_front room here atSite
    rw [erase_cons_site labelled here] at same
    exact ⟨path', along, same⟩
  | @step p q path step later ih =>
    have here := List.getElem?_eq_getElem inside
    obtain ⟨path', along, same⟩ := ih (step.lt_length valid)
    obtain ⟨path'', along', same'⟩ := exists_path_front room here
      (.step (labelled.step_site room (resolved_of_valid valid) step) along)
    rw [erase_cons_site labelled here, same] at same'
    exact ⟨path'', along', same'⟩

/-- **Every path of the woven form is erased to one of the body**: from the site of a statement to
one from the statement, and from its front to such a one or, if control stays at the probe,
to none. -/
theorem Labelled.pathFrom_erase (labelled : b.Labelled) (room : b.HasRoom)
    (valid : b.fault? = none) (along : (b.woven h a).PathFrom b.IsOld q path)
    (inside : p < b.statements.length) :
    (q = site b.statements p →
      b.PathFrom (fun _ => True) p (erase b (b.woven h a) path)) ∧
    (q = front b.statements p → erase b (b.woven h a) path = [] ∨
      b.PathFrom (fun _ => True) p (erase b (b.woven h a) path)) := by
  have resolved := resolved_of_valid valid
  induction along generalizing p with
  | stop q =>
    have here := List.getElem?_eq_getElem inside
    have single : q = site b.statements p →
        b.PathFrom (fun _ => True) p (erase b (b.woven h a) [q]) := by
      rintro rfl
      rw [erase_cons_site labelled here]
      exact .stop p
    refine ⟨single, ?_⟩
    intro start
    cases kind : (b.statements[p]).isIdentity with
    | true => exact .inr (single (start.trans (site_of_isIdentity here kind).symm))
    | false =>
      subst start
      exact .inl (erase_cons_front room here kind)
  | @step q r path step later ih =>
    have here := List.getElem?_eq_getElem inside
    have longer : q = site b.statements p →
        b.PathFrom (fun _ => True) p (erase b (b.woven h a) (q :: path)) := by
      rintro rfl
      obtain ⟨p', rfl, step'⟩ := labelled.step_of_site room resolved here step
      rw [erase_cons_site labelled here]
      rcases (ih (step'.lt_length valid)).2 rfl with ended | along
      · rw [ended]
        exact .stop p
      · exact .step step' along
    refine ⟨longer, ?_⟩
    intro start
    cases kind : (b.statements[p]).isIdentity with
    | true => exact .inr (longer (start.trans (site_of_isIdentity here kind).symm))
    | false =>
      subst start
      rw [erase_cons_front room here kind]
      rcases labelled.step_of_front room resolved here kind step with rfl | ⟨_, s, -, fresh, old⟩
      · exact .inr ((ih inside).1 rfl)
      · exact absurd old fresh

/-- On a path of the woven form every ordinary statement comes right behind its probe, unless the
path starts there. -/
theorem Labelled.guarded (labelled : b.Labelled) (room : b.HasRoom) (resolved : b.Resolved)
    (here : b.statements[p]? = some s) (ordinary : s.isIdentity = false)
    (along : (b.woven h a).PathFrom raises q path) {k : Nat}
    (reached : path[k]? = some (site b.statements p)) :
    k = 0 ∧ q = site b.statements p ∨
      ∃ j, k = j + 1 ∧ path[j]? = some (front b.statements p) := by
  induction along generalizing k with
  | stop q =>
    cases k with
    | zero => exact .inl ⟨rfl, Option.some_inj.mp reached⟩
    | succ k => cases reached
  | @step q r path step later ih =>
    cases k with
    | zero => exact .inl ⟨rfl, Option.some_inj.mp reached⟩
    | succ k =>
      refine .inr ⟨k, rfl, ?_⟩
      rcases ih reached with ⟨rfl, rfl⟩ | ⟨j, rfl, before⟩
      · rw [labelled.eq_front_of_step room resolved here ordinary step]
        rfl
      · exact before

/-! ### What is kept -/

/-- What a body with probes keeps of the control flow of a body. -/
structure FlowKept (h : Hook) (b b' : Body) : Prop where
  /-- Every path of the body is the erasure of one through its probes, -/
  expands : ∀ path, b.IsPath (fun _ => True) path →
    ∃ path', b'.IsPath b.IsOld path' ∧ erase b b' path' = path
  /-- and the erasure of every such path is one of the body. -/
  erases : ∀ path, b'.IsPath b.IsOld path → b.IsPath (fun _ => True) (erase b b' path)
  /-- Every ordinary statement has a probe, -/
  probed : ∀ s ∈ b.statements, s.isIdentity = false → ∃ q, Guards h b b' q s
  /-- and control goes through it right before the statement, whatever may raise an exception. -/
  guarded : ∀ raises path, b'.IsPath raises path → ∀ s ∈ b.statements, s.isIdentity = false →
    ∀ (k q : Nat), path[k]? = some q → b'.position? s.label = some q →
      ∃ j r, k = j + 1 ∧ path[j]? = some r ∧ Guards h b b' r s
  /-- A probe is covered by the traps that cover its statement, -/
  covered : ∀ t ∈ b'.traps, ∀ s ∈ b.statements, ∀ q, Guards h b b' q s →
    (b'.Covers t q ↔ b'.Covers t (q + 1))
  /-- and these are the ones that covered it in the body. -/
  ranges : ∀ (k : Nat) (t : Trap), b.traps[k]? = some t → ∃ t', b'.traps[k]? = some t' ∧
    ∀ l p q, b.position? l = some p → b'.position? l = some q → (b'.Covers t' q ↔ b.Covers t p)

/-- What guards a statement in the woven form stands at the front of it. -/
theorem Labelled.eq_front_of_guards (labelled : b.Labelled) (room : b.HasRoom)
    (here : b.statements[p]? = some s) (guards : Guards h b (b.woven h a) q s) :
    q = front b.statements p := by
  obtain ⟨l, id, there, fresh, next⟩ := guards
  rw [labelled.position?_site room (labelled.position?_label here), Option.some_inj] at next
  have inside := (List.getElem?_eq_some_iff.mp there).1
  obtain ⟨p', s', here', rfl | ⟨rfl, ordinary⟩⟩ := front_or_site inside
  · have old : (b.woven h a).labels[site b.statements p']? = some s'.label :=
      getElem?_labels_site here'
    simp only [labels, List.getElem?_map, there, Option.map_some, Option.some_inj] at old
    exact absurd (old ▸ List.mem_map_of_mem (List.mem_of_getElem? here')) fresh
  · rw [← site_of_ordinary here' ordinary] at next
    rw [site_inj next]

/-- **The woven form of a valid body keeps its control flow.** -/
theorem Labelled.flowKept_woven (labelled : b.Labelled) (room : b.HasRoom)
    (valid : b.fault? = none) : FlowKept h b (b.woven h a) := by
  have resolved := resolved_of_valid valid
  have inside : 0 < b.statements.length :=
    List.length_pos_iff.mpr (fault?_eq_none_iff.mp valid).1
  have entry : front b.statements 0 = 0 := rfl
  constructor
  case expands =>
    rintro path (rfl | along)
    · exact ⟨[], .inl rfl, rfl⟩
    · obtain ⟨path', along', same⟩ := labelled.exists_path_woven room valid along inside
      exact ⟨path', .inr along', same⟩
  case erases =>
    rintro path (rfl | along)
    · exact .inl rfl
    · exact (labelled.pathFrom_erase room valid along inside).2 entry.symm
  case probed =>
    intro s member ordinary
    obtain ⟨p, here⟩ := List.mem_iff_getElem?.mp member
    exact ⟨_, labelled.guards_front room here ordinary⟩
  case guarded =>
    intro raises path along s member ordinary k q reached there
    obtain ⟨p, here⟩ := List.mem_iff_getElem?.mp member
    rw [labelled.position?_site room (labelled.position?_label here), Option.some_inj] at there
    subst there
    rcases along with rfl | along
    · cases reached
    · rcases labelled.guarded room resolved here ordinary along reached with ⟨-, start⟩ | before
      · exact absurd (start.symm.trans entry.symm) (site_ne_front here ordinary 0)
      · obtain ⟨j, rfl, before⟩ := before
        exact ⟨j, _, rfl, before, labelled.guards_front room here ordinary⟩
  case covered =>
    intro t trap s member q guards
    obtain ⟨p, here⟩ := List.mem_iff_getElem?.mp member
    obtain ⟨t₀, old, rfl⟩ := List.mem_map.mp trap
    obtain rfl := labelled.eq_front_of_guards room here guards
    obtain ⟨-, -, -, -, next⟩ := guards
    rw [labelled.position?_site room (labelled.position?_label here), Option.some_inj] at next
    rw [← next, labelled.covers_front room fun l => resolved.of_trap old,
      labelled.covers_site room fun l => resolved.of_trap old]
  case ranges =>
    intro k t here
    refine ⟨t.retarget b.lead, by simp [woven, here], ?_⟩
    intro l p q place there
    rw [labelled.position?_site room place, Option.some_inj] at there
    rw [← there, labelled.covers_site room
      fun l => resolved.of_trap (List.mem_of_getElem? here)]

end Body

namespace Injector

variable {i : Injector}

/-- **An injection without a fault keeps control flow.** What it leaves at the place of a valid
body keeps the paths of the body, goes through a probe before each ordinary statement and covers
it by the traps that cover the statement. -/
theorem inject_flowKept {r : Registry} {a : Allocator} {x : List ProbeRecord × InjectionReport}
    (built : r.Built) (done : (i.inject r a).result = .ok x) {place : Nat × Nat} {b : Body}
    (reached : i.Reaches r place b) (valid : b.fault? = none) :
    ∃ b', (i.inject r a).registry.bodyAt? place = some b' ∧ Body.FlowKept i.hook b b' := by
  obtain ⟨occurs, room, a', -, left⟩ := reached.exists_woven built done
  exact ⟨_, left, occurs.labelled.flowKept_woven room valid⟩

theorem inject_flowKept_sample :
    ∃ b', (Injector.sample.inject (.single .sample) (.counter 0)).registry.bodyAt? (0, 0) =
        some b' ∧ Body.FlowKept Injector.sample.hook .sample b' :=
  inject_flowKept (Registry.built_single Body.built_sample) rfl (reaches_single _) (by decide)

end Injector

end Tracepoint
