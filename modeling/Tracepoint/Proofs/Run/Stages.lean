import Tracepoint.Proofs.Run.Calls
import Tracepoint.Proofs.Run.Charges

/-!
# The stages of a run

A run enters its stages in order, and the fault that ends it is the last thing to happen: no
stage is entered after it and no collaborator is called. An account (`Pipeline.Account`) says
what happened from some stage on; every run has one, and the three logs of a run, its stages,
its calls and its fault, agree with each other (`Pipeline.run_inOrder`).
-/

namespace Tracepoint

namespace Stage

/-- The stages of a run that does everything, in order. -/
def order : List Stage :=
  [.extracting, .patchingCapabilities, .rebuilding, .loading, .injecting, .signing, .placing, .done]

/-- Whether a stage calls a collaborator. -/
def isConducted (stage : Stage) : Bool :=
  match stage with
  | extracting | rebuilding | loading | injecting | signing => true
  | patchingCapabilities | placing | done | failed => false

end Stage

namespace Pipeline

variable {σ α β : Type} (p : Pipeline σ) (supply : Nat → BitVec 128)

/-! ### Accounts -/

/-- What is known of a call when it is made, after some others: code is written only after probes
were put into it and its bodies were judged, and an archive is signed only if it is what the
writing of code gave, and is there. -/
def Warranted (before : List Call) (call : Call) : Prop :=
  match call.request with
  | .write registry _ _ => ∃ loaded ns x,
      instrument p.settings supply ns loaded = .ok (registry, x) ∧ loaded.Rewrites registry
  | .sign archive => call.host.has archive ∧ ∃ earlier ∈ before,
      earlier.result = .ok (some archive) ∧ earlier.request.stage = .injecting
  | _ => True

/-- The calls of a stage that was passed. -/
inductive Passes (stage : Stage) : List Call → Prop where
  | alone (unconducted : stage.isConducted = false) : Passes stage []
  | called {call : Call} {given : Option Path} (conducted : stage.isConducted = true)
      (own : call.request.stage = stage) (done : call.result = .ok given) : Passes stage [call]

/-- The calls of a stage that ended with a fault: one at most, and if that failed the fault is its
own. -/
structure Fails (stage : Stage) (e : Fault) (calls : List Call) : Prop where
  calls : calls = [] ∨ ∃ call, calls = [call] ∧ stage.isConducted = true ∧
    call.request.stage = stage ∧ ∀ cause, call.result = .error cause → cause = e
  charged : p.ChargesOwnStages → e.ChargedTo stage

/-- What happens from some stages on, after some calls: the stages that are entered, the calls that
are made, and the fault if there is one. -/
inductive Account :
    List Stage → List Call → List Stage → List Call → Option Fault → Prop where
  | finished (before : List Call) : Account [.done] before [.done] [] none
  | failed {stage : Stage} {rest : List Stage} {before calls : List Call} {e : Fault}
      (working : stage ≠ .done) (fails : p.Fails stage e calls)
      (warranted : ∀ call ∈ calls, p.Warranted supply before call) :
      Account (stage :: rest) before [stage] calls (some e)
  | passed {stage : Stage} {rest stages : List Stage} {before calls more : List Call}
      {fault : Option Fault} (working : stage ≠ .done) (passes : Passes stage calls)
      (warranted : ∀ call ∈ calls, p.Warranted supply before call)
      (later : Account rest (before ++ calls) stages more fault) :
      Account (stage :: rest) before (stage :: stages) (calls ++ more) fault

namespace Account

variable {p supply} {path stages : List Stage} {before calls : List Call} {fault : Option Fault}

theorem prefix_path (account : p.Account supply path before stages calls fault) :
    stages <+: path := by
  induction account with
  | finished => exact List.prefix_rfl
  | failed => exact ⟨_, rfl⟩
  | passed _ _ _ _ ih => exact List.cons_prefix_cons.mpr ⟨rfl, ih⟩

theorem ne_nil (account : p.Account supply path before stages calls fault) : stages ≠ [] := by
  cases account <;> simp

theorem done_mem_iff (account : p.Account supply path before stages calls fault) :
    .done ∈ stages ↔ fault = none := by
  induction account with
  | finished => simp
  | failed working => simpa using Ne.symm working
  | passed working _ _ _ ih => simpa [Ne.symm working] using ih

/-- The calls follow the stages that call a collaborator. -/
theorem calls_prefix (account : p.Account supply path before stages calls fault) :
    calls.map (·.request.stage) <+: stages.filter Stage.isConducted := by
  induction account with
  | finished => exact List.nil_prefix
  | failed _ fails =>
    obtain rfl | ⟨call, rfl, conducted, own, -⟩ := fails.calls
    · exact List.nil_prefix
    · simp [conducted, own]
  | passed _ passes _ _ ih =>
    cases passes with
    | alone unconducted => simpa [unconducted] using ih
    | called conducted own => simpa [conducted, own] using ih

/-- Every stage that was passed has called its collaborator. -/
theorem prefix_calls (account : p.Account supply path before stages calls fault) :
    stages.dropLast.filter Stage.isConducted <+: calls.map (·.request.stage) := by
  induction account with
  | finished => exact List.nil_prefix
  | failed => exact List.nil_prefix
  | passed _ passes _ later ih =>
    rw [List.dropLast_cons_of_ne_nil later.ne_nil]
    cases passes with
    | alone unconducted => simpa [unconducted] using ih
    | called conducted own => simpa [conducted, own] using ih

/-- A call that failed is the last one, and its fault is the one that is returned. -/
theorem last_of_error (account : p.Account supply path before stages calls fault)
    {earlier later : List Call} {call : Call} {e : Fault}
    (split : calls = earlier ++ call :: later) (failed : call.result = .error e) :
    later = [] ∧ fault = some e := by
  induction account generalizing earlier with
  | finished => simp at split
  | failed _ fails =>
    obtain rfl | ⟨only, rfl, -, -, cause⟩ := fails.calls
    · simp at split
    · obtain ⟨rfl, rfl, rfl⟩ : earlier = [] ∧ call = only ∧ later = [] := by
        simpa [List.singleton_eq_append_iff] using split
      exact ⟨rfl, by rw [cause e failed]⟩
  | passed _ passes _ _ ih =>
    cases passes with
    | alone => exact ih split
    | called _ _ done =>
      cases earlier with
      | nil =>
        cases split
        rw [failed] at done
        cases done
      | cons _ earlier =>
        cases split
        exact ih rfl

/-- Every call is warranted by those before it. -/
theorem warranted (account : p.Account supply path before stages calls fault)
    {earlier later : List Call} {call : Call} (split : calls = earlier ++ call :: later) :
    p.Warranted supply (before ++ earlier) call := by
  induction account generalizing earlier with
  | finished => simp at split
  | failed _ fails warranted =>
    obtain rfl | ⟨only, rfl, -⟩ := fails.calls
    · simp at split
    · obtain ⟨rfl, rfl, rfl⟩ : earlier = [] ∧ call = only ∧ later = [] := by
        simpa [List.singleton_eq_append_iff] using split
      simpa using warranted call
  | passed _ passes warranted _ ih =>
    cases passes with
    | alone => simpa using ih split
    | called _ _ _ =>
      cases earlier with
      | nil =>
        cases split
        simpa using warranted call
      | cons _ earlier =>
        cases split
        simpa using ih rfl

/-- A fault is charged to the last stage, if the collaborators charge their own. -/
theorem charged (account : p.Account supply path before stages calls fault)
    (own : p.ChargesOwnStages) {e : Fault} (failed : fault = some e) :
    ∃ last, stages.getLast? = some last ∧ e.ChargedTo last := by
  induction account with
  | finished => cases failed
  | failed _ fails =>
    cases failed
    exact ⟨_, rfl, fails.charged own⟩
  | passed _ _ _ later ih =>
    obtain ⟨last, final, charged⟩ := ih failed
    exact ⟨last, by rw [List.getLast?_cons, final, Option.getD_some], charged⟩

end Account

/-! ### Work of a stage -/

/-- What a session has more of in its logs than another one. -/
structure Adds (s s' : Session (Logged σ)) (stages : List Stage) (calls : List Call) : Prop where
  stages : s'.stages = s.stages ++ stages
  calls : s'.calls = s.calls ++ calls

theorem adds_nothing (s : Session (Logged σ)) : Adds s s [] [] :=
  ⟨(List.append_nil _).symm, (List.append_nil _).symm⟩

theorem Adds.trans {s s' s'' : Session (Logged σ)} {stages stages' : List Stage}
    {calls calls' : List Call} (first : Adds s s' stages calls)
    (later : Adds s' s'' stages' calls') :
    Adds s s'' (stages ++ stages') (calls ++ calls') where
  stages := by rw [later.stages, first.stages, List.append_assoc]
  calls := by rw [later.calls, first.calls, List.append_assoc]

/-- Work of a stage that adds nothing to the logs. -/
structure Quiet (stage : Stage) (x : Step (Logged σ) α) : Prop where
  adds : ∀ s, Adds s (left x s) [] []
  charges : Charges stage x

/-- Work of a stage, once some stages are entered. -/
structure Conducts (stage : Stage) (entered : List Stage) (x : Step (Logged σ) α)
    (s : Session (Logged σ)) : Prop where
  ok : ∀ a s', x s = .ok a s' → ∃ calls, Adds s s' entered calls ∧ Passes stage calls ∧
    ∀ call ∈ calls, p.Warranted supply s.calls call
  error : ∀ e s', x s = .error e s' → ∃ calls, Adds s s' entered calls ∧ p.Fails stage e calls ∧
    ∀ call ∈ calls, p.Warranted supply s.calls call

section

variable {p supply} {stage : Stage} {entered : List Stage} {x : Step (Logged σ) α}
  {f : α → Step (Logged σ) β} {s : Session (Logged σ)}

theorem quiet_file {y : FileWork α} (charges : Charges stage y) :
    Quiet stage ((y : Run (Logged σ) α) : Step (Logged σ) α) where
  adds s := by
    cases done : ((y : Run (Logged σ) α) : Step (Logged σ) α) s with
    | ok a s' =>
      obtain ⟨h, -, rfl⟩ := lift_eq_ok_iff.mp done
      rw [left_of_ok done]
      exact ⟨(List.append_nil _).symm, (List.append_nil _).symm⟩
    | error e s' =>
      obtain ⟨h, -, rfl⟩ := lift_eq_error_iff.mp done
      rw [left_of_error done]
      exact ⟨(List.append_nil _).symm, (List.append_nil _).symm⟩
  charges := charges.zoom.zoom

theorem quiet_pure (a : α) : Quiet stage (pure a : Step (Logged σ) α) :=
  ⟨adds_nothing, charges_pure a⟩

theorem Quiet.bind (first : Quiet stage x) (later : ∀ a, Quiet stage (f a)) :
    Quiet stage (x >>= f) where
  adds s := by
    have adds := first.adds s
    rw [left_bind]
    rw [left] at adds
    cases done : x s with
    | ok a mid =>
      rw [done] at adds
      exact adds.trans ((later a).adds mid)
    | error e mid =>
      rw [done] at adds
      exact adds
  charges := first.charges.bind fun a => (later a).charges

/-- A stage of its own. -/
theorem Quiet.conducts (quiet : Quiet stage x) (unconducted : stage.isConducted = false) :
    p.Conducts supply stage [] x s where
  ok a s' done := ⟨[], left_of_ok done ▸ quiet.adds s, .alone unconducted, by simp⟩
  error e s' failed := ⟨[], left_of_error failed ▸ quiet.adds s,
    ⟨.inl rfl, fun _ => quiet.charges s e s' failed⟩, by simp⟩

theorem conducts_throw {e : Fault} (charged : e.ChargedTo stage) :
    p.Conducts supply stage [] (throw e : Step (Logged σ) α) s where
  ok _ _ done := by cases done
  error e' s' failed := by
    cases failed
    exact ⟨[], adds_nothing s, ⟨.inl rfl, fun _ => charged⟩, by simp⟩

/-- What is done before the call of a stage. -/
theorem Quiet.bind_conducts (first : Quiet stage x)
    (later : ∀ a s', x s = .ok a s' → p.Conducts supply stage [] (f a) s') :
    p.Conducts supply stage [] (x >>= f) s where
  ok b s' done := by
    obtain ⟨a, mid, first', rest⟩ := bind_eq_ok_iff.mp done
    have nothing := left_of_ok first' ▸ first.adds s
    obtain ⟨calls, adds, passes, warranted⟩ := (later a mid first').ok b s' rest
    rw [nothing.calls, List.append_nil] at warranted
    exact ⟨calls, nothing.trans adds, passes, warranted⟩
  error e s' failed := by
    rcases bind_eq_error_iff.mp failed with refused | ⟨a, mid, first', rest⟩
    · exact ⟨[], left_of_error refused ▸ first.adds s,
        ⟨.inl rfl, fun _ => first.charges s e s' refused⟩, by simp⟩
    · have nothing := left_of_ok first' ▸ first.adds s
      obtain ⟨calls, adds, fails, warranted⟩ := (later a mid first').error e s' rest
      rw [nothing.calls, List.append_nil] at warranted
      exact ⟨calls, nothing.trans adds, fails, warranted⟩

/-- What is done after the call of a stage. -/
theorem Conducts.bind (first : p.Conducts supply stage entered x s)
    (later : ∀ a, Quiet stage (f a)) : p.Conducts supply stage entered (x >>= f) s where
  ok b s' done := by
    obtain ⟨a, mid, first', rest⟩ := bind_eq_ok_iff.mp done
    obtain ⟨calls, adds, passes, warranted⟩ := first.ok a mid first'
    have nothing := left_of_ok rest ▸ (later a).adds mid
    refine ⟨calls, ?_, passes, warranted⟩
    simpa using adds.trans nothing
  error e s' failed := by
    rcases bind_eq_error_iff.mp failed with refused | ⟨a, mid, first', rest⟩
    · exact first.error e s' refused
    · obtain ⟨calls, adds, passes, warranted⟩ := first.ok a mid first'
      have nothing := left_of_error rest ▸ (later a).adds mid
      refine ⟨calls, by simpa using adds.trans nothing,
        ⟨?_, fun _ => (later a).charges mid e s' rest⟩, warranted⟩
      cases passes with
      | alone => exact .inl rfl
      | called conducted own done => exact .inr ⟨_, rfl, conducted, own, by simp [done]⟩

theorem Conducts.enter
    (inside : p.Conducts supply stage [] x { s with stages := s.stages ++ [stage] }) :
    p.Conducts supply stage [stage] (enter stage >>= fun _ => x) s where
  ok b s' done := by
    obtain ⟨calls, adds, passes, warranted⟩ := inside.ok b s' done
    exact ⟨calls, ⟨by simpa using adds.stages, adds.calls⟩, passes, warranted⟩
  error e s' failed := by
    obtain ⟨calls, adds, fails, warranted⟩ := inside.error e s' failed
    exact ⟨calls, ⟨by simpa using adds.stages, adds.calls⟩, fails, warranted⟩

/-- The call of a stage. -/
theorem conducts_noted (work : Run σ α) (request : Request) (given : α → Option Path)
    (charges : p.ChargesOwnStages → Charges request.stage work)
    (warranted : ∀ result after,
      p.Warranted supply s.calls ⟨request, s.world.host, result, after⟩) :
    p.Conducts supply request.stage [] (Run.noted work request given : Step (Logged σ) α) s where
  ok a s' done := by
    obtain ⟨w, called, rfl⟩ := onSession_eq_ok_iff.mp done
    rw [Run.noted] at called
    split at called <;> cases called
    exact ⟨[⟨request, s.world.host, .ok (given a), _⟩], ⟨(List.append_nil _).symm, rfl⟩,
      .called (by cases request <;> rfl) rfl rfl, by simpa using warranted _ _⟩
  error e s' failed := by
    obtain ⟨w, called, rfl⟩ := onSession_eq_error_iff.mp failed
    rw [Run.noted] at called
    split at called <;> cases called
    rename_i refused
    exact ⟨[⟨request, s.world.host, .error e, _⟩], ⟨(List.append_nil _).symm, rfl⟩,
      ⟨.inr ⟨_, rfl, by cases request <;> rfl, rfl, by simp⟩,
        fun own => charges own _ _ _ refused⟩, by simpa using warranted _ _⟩

end

/-! ### The stages -/

section

variable {p supply} {a : Artifact} {s : Session (Logged σ)}

theorem conducts_patch (content : Path) :
    p.Conducts supply .patchingCapabilities [.patchingCapabilities]
      (patch content : Step (Logged σ) (Option String)) s := by
  refine Conducts.enter (Quiet.conducts ?_ rfl)
  exact (quiet_file (Descriptor.charges_ensure _ _)).bind fun _ =>
    quiet_file (Descriptor.charges_packageIn? _)

theorem conducts_rebuild (content work : Path) :
    p.Conducts supply .rebuilding [.rebuilding] (p.logged.rebuild a content work) s := by
  refine Conducts.enter ((quiet_file (charges_within _ _)).bind_conducts fun _ _ _ => ?_)
  refine (conducts_noted _ (.build _ _) _ (fun own => own.build _ _) fun _ _ => trivial).bind
    fun _ => ?_
  exact (quiet_file (charges_requireOutput _ _)).bind fun _ => quiet_pure _

theorem conducts_load (rebuilt work : Path) :
    p.Conducts supply .loading [.loading] (p.logged.load rebuilt work) s := by
  refine Conducts.enter ?_
  rw [show (p.logged.backend.load rebuilt work).registry = _ from registry_noted _ _]
  exact conducts_noted _ (.load _ _) _ (fun own => (own.load _ _).registry) fun _ _ => trivial

/-- The fault or the outcome of an injection is there before code is written. -/
theorem conducts_inject (ns : Option String) (r : Registry) (rebuilt work : Path) :
    p.Conducts supply .injecting [.injecting] (p.logged.inject supply ns r rebuilt work) s := by
  refine Conducts.enter ?_
  rw [show p.logged.settings = p.settings from rfl]
  cases injected : instrument p.settings supply ns r with
  | error e => exact conducts_throw (Fault.chargedTo_of_some (stage?_instrument injected))
  | ok x =>
    obtain ⟨registry, x⟩ := x
    refine (conducts_noted _ (.write _ _ _) _ (fun own => own.write _ _ _) fun _ _ => ?_).bind
      fun _ => ?_
    · exact ⟨r, ns, x, injected, rewrites_instrument injected⟩
    · exact (quiet_file (charges_requireOutput _ _)).bind fun _ => quiet_pure _

/-- What an injection that is done leaves: the archive that was written. -/
theorem inject_logged_eq_ok {ns : Option String} {r : Registry} {rebuilt work : Path}
    {x : Path × List ProbeRecord × InjectionReport} {s' : Session (Logged σ)}
    (done : p.logged.inject supply ns r rebuilt work s = .ok x s') :
    s'.world.host.has x.1 ∧ ∃ call ∈ s'.calls,
      call.result = .ok (some x.1) ∧ call.request.stage = .injecting := by
  obtain ⟨_, s₁, -, rest⟩ := bind_eq_ok_iff.mp done
  rw [show p.logged.settings = p.settings from rfl] at rest
  cases injected : instrument p.settings supply ns r with
  | error e =>
    rw [injected] at rest
    cases rest
  | ok y =>
    rw [injected] at rest
    obtain ⟨archive, s₂, written, rest⟩ := bind_eq_ok_iff.mp rest
    obtain ⟨w, noted, rfl⟩ := onSession_eq_ok_iff.mp written
    obtain ⟨_, s₃, checked, rest⟩ := bind_eq_ok_iff.mp rest
    obtain ⟨h, required, rfl⟩ := lift_eq_ok_iff.mp checked
    cases rest
    obtain ⟨has, rfl⟩ := requireOutput_eq_ok required
    refine ⟨has, ?_⟩
    replace noted : Run.noted _ _ _ _ = _ := noted
    rw [Run.noted] at noted
    split at noted <;> cases noted
    exact ⟨_, List.mem_append_right _ (List.mem_singleton_self _), rfl, rfl⟩

/-- An archive is signed when it is there and was given for the code that was written. -/
theorem conducts_sign {archive : Path} (has : s.world.host.has archive)
    (given : ∃ call ∈ s.calls,
      call.result = .ok (some archive) ∧ call.request.stage = .injecting) :
    p.Conducts supply .signing [.signing] (p.logged.sign archive) s := by
  refine Conducts.enter ((conducts_noted _ (.sign _) _ (fun own => own.sign _) fun _ _ => ?_).bind
    fun _ => (quiet_file (charges_requireOutput _ _)).bind fun _ => quiet_pure _)
  exact ⟨has, given⟩

theorem conducts_place {outDir : Path} {records : List ProbeRecord} {signed : Path} :
    p.Conducts supply .placing [.placing]
      (enter .placing >>= fun _ =>
        (place p.settings a records signed outDir : Run (Logged σ) _)) s :=
  Conducts.enter (Quiet.conducts (quiet_file (charges_place _ _ _ _ _)) rfl)

end

/-! ### Whole runs -/

/-- An action has an account from some stages on. -/
def Accounts (path : List Stage) (x : Step (Logged σ) α) (s : Session (Logged σ)) : Prop :=
  ∃ stages calls, Adds s (stateOf (x s)) stages calls ∧
    p.Account supply path s.calls stages calls (faultOf? (x s))

section

variable {p supply} {a : Artifact} {s : Session (Logged σ)} {outDir work : Path}

theorem Conducts.bind_accounts {stage : Stage} {rest : List Stage} {x : Step (Logged σ) α}
    {f : α → Step (Logged σ) β} (first : p.Conducts supply stage [stage] x s)
    (working : stage ≠ .done)
    (later : ∀ a s', x s = .ok a s' → p.Accounts supply rest (f a) s') :
    p.Accounts supply (stage :: rest) (x >>= f) s := by
  cases done : x s with
  | error e s' =>
    obtain ⟨calls, adds, fails, warranted⟩ := first.error e s' done
    rw [Accounts, bind_of_error done]
    exact ⟨[stage], calls, adds, .failed working fails warranted⟩
  | ok a s' =>
    obtain ⟨calls, adds, passes, warranted⟩ := first.ok a s' done
    obtain ⟨stages, more, adds', account⟩ := later a s' done
    rw [adds.calls] at account
    rw [Accounts, bind_of_ok done]
    exact ⟨stage :: stages, calls ++ more, adds.trans adds',
      .passed working passes warranted account⟩

/-- From the patch of the descriptor on. -/
theorem accounts_finish :
    p.Accounts supply Stage.order.tail (p.logged.finish supply a outDir work) s := by
  simp only [finish, prepare, bind_assoc, pure_bind]
  refine (conducts_patch _).bind_accounts (by decide) fun ns _ _ => ?_
  refine (conducts_rebuild _ _).bind_accounts (by decide) fun rebuilt _ _ => ?_
  refine (conducts_load _ _).bind_accounts (by decide) fun registry _ _ => ?_
  refine (conducts_inject _ _ _ _).bind_accounts (by decide) fun injected s₁ done => ?_
  obtain ⟨has, given⟩ := inject_logged_eq_ok done
  refine (conducts_sign has given).bind_accounts (by decide) fun signed _ _ => ?_
  rw [publish, ← bind_assoc]
  refine conducts_place.bind_accounts (by decide) fun placed s₂ _ => ?_
  exact ⟨[.done], [], ⟨rfl, (List.append_nil _).symm⟩, .finished _⟩

/-- The extraction of content that is needed. -/
theorem conducts_extract (content : Path) :
    p.Conducts supply .extracting [.extracting] (do
      enter .extracting
      (p.logged.contentTool.extract a.path content : Run (Logged σ) _)
      (requireOutput .extracting (Descriptor.pathIn content) : Run (Logged σ) _)) s :=
  Conducts.enter ((conducts_noted _ (.extract _ _) _ (fun own => own.extract _ _) fun _ _ =>
    trivial).bind fun _ => quiet_file (charges_requireOutput _ _))

/-- An account is one of any action that ends in the same way on the same logs. -/
theorem Accounts.of_eq {path : List Stage} {x y : Step (Logged σ) α} {s' : Session (Logged σ)}
    (accounts : p.Accounts supply path y s') (same : x s = y s') (stages : s'.stages = s.stages)
    (calls : s'.calls = s.calls) : p.Accounts supply path x s := by
  obtain ⟨entered, made, adds, account⟩ := accounts
  rw [calls] at account
  rw [Accounts, same]
  exact ⟨entered, made, ⟨by rw [adds.stages, stages], by rw [adds.calls, calls]⟩, account⟩

theorem accounts_steps {needed : Bool} {h : Host}
    (asked : needsExtraction a (p.contentIn work) p.forceExtract s.world.host = .ok needed h) :
    p.Accounts supply (if needed then Stage.order else Stage.order.tail)
      (p.logged.steps supply a outDir work) s := by
  have first := lift_eq_ok_iff.mpr ⟨h, asked, rfl⟩
  rw [steps_eq_extract, extract, bind_assoc]
  cases needed with
  | true =>
    refine Accounts.of_eq ?_ (bind_of_ok first) rfl rfl
    exact (conducts_extract _).bind_accounts (by decide) fun _ _ _ => accounts_finish
  | false =>
    refine Accounts.of_eq ?_ (bind_of_ok first) rfl rfl
    exact accounts_finish

end

/-- A run finds kept content that is good, and extracts nothing. -/
def ReusesContent (a : Artifact) (h : Host) : Prop :=
  ∃ work h₁ h₂, FileAction.makeTempDir h = .ok work h₁ ∧
    needsExtraction a (p.contentIn work) p.forceExtract h₁ = .ok false h₂

theorem reusesContent_iff {a : Artifact} {h : Host} : p.ReusesContent a h ↔
    succeeds (fun work h₁ => succeeds (fun needed _ => !needed)
      (needsExtraction a (p.contentIn work) p.forceExtract h₁)) (FileAction.makeTempDir h) := by
  constructor
  · rintro ⟨work, h₁, h₂, made, asked⟩
    rw [made, succeeds, asked]
    rfl
  · intro answered
    obtain ⟨work, h₁, made, answered⟩ := exists_of_succeeds answered
    obtain ⟨needed, h₂, asked, answered⟩ := exists_of_succeeds answered
    obtain rfl : needed = false := by simpa using answered
    exact ⟨work, h₁, h₂, made, asked⟩

/-- The answer of a run whether to extract decides whether it reuses content. -/
theorem reusesContent_iff_of_asked {a : Artifact} {work : Path} {needed : Bool} {h h₁ h₂ : Host}
    (made : FileAction.makeTempDir h = .ok work h₁)
    (asked : needsExtraction a (p.contentIn work) p.forceExtract h₁ = .ok needed h₂) :
    p.ReusesContent a h ↔ needed = false := by
  constructor
  · rintro ⟨work', h₁', h₂', made', asked'⟩
    rw [made] at made'
    cases made'
    rw [asked] at asked'
    cases asked'
    rfl
  · rintro rfl
    exact ⟨work, h₁, h₂, made, asked⟩

instance (a : Artifact) (h : Host) : Decidable (p.ReusesContent a h) :=
  decidable_of_iff _ p.reusesContent_iff.symm

/-- The stages, the calls and the fault of a run of an artifact agree with each other. -/
structure InOrder (a : Artifact) (h : Host) (stages : List Stage) (calls : List Call)
    (fault : Option Fault) : Prop where
  order : stages <+: Stage.order ∨ stages <+: Stage.order.tail
  /-- Once there are stages, extraction is missing exactly when kept content is good. -/
  extracting : stages ≠ [] → (.extracting ∉ stages ↔ p.ReusesContent a h)
  done : .done ∈ stages ↔ fault = none
  /-- The calls are those of the stages that call a collaborator, with or without the last one. -/
  asked : calls.map (·.request.stage) <+: stages.filter Stage.isConducted
  answered : stages.dropLast.filter Stage.isConducted <+: calls.map (·.request.stage)
  /-- A call that failed is the last one, and its fault is the one that is returned. -/
  last : ∀ earlier call later e, calls = earlier ++ call :: later → call.result = .error e →
    later = [] ∧ fault = some e
  warranted : ∀ earlier call later, calls = earlier ++ call :: later →
    p.Warranted supply earlier call
  /-- A stage that the fault is charged to is the last one. -/
  charged : p.ChargesOwnStages → ∀ e, fault = some e → ∀ stage ∈ e.stage?,
    stages.getLast? = some stage

variable {p supply} {a : Artifact} {s' : Session σ} {outDir work : Path} {w : World σ}

/-- A run that ends before its first stage. -/
theorem inOrder_of_unnamed {h : Host} {e : Fault} (unnamed : ∀ stage, e.ChargedTo stage) :
    p.InOrder supply a h [] [] (some e) where
  order := .inl List.nil_prefix
  extracting := by simp
  done := by simp
  asked := List.nil_prefix
  answered := List.nil_prefix
  last := by simp
  warranted := by simp
  charged _ e' same stage named := by
    cases same
    have done := unnamed .done stage named
    have failed := unnamed .failed stage named
    rw [done] at failed
    cases failed

theorem Account.inOrder {h : Host} {needed : Bool} {stages : List Stage} {calls : List Call}
    {fault : Option Fault} (reuses : p.ReusesContent a h ↔ needed = false)
    (account : p.Account supply (if needed then Stage.order else Stage.order.tail) [] stages calls
      fault) : p.InOrder supply a h stages calls fault where
  order := by
    have path := account.prefix_path
    cases needed with
    | true => exact .inl path
    | false => exact .inr path
  extracting _ := by
    have path := account.prefix_path
    rw [reuses]
    cases needed with
    | true =>
      obtain ⟨stage, rest, split⟩ := List.exists_cons_of_ne_nil account.ne_nil
      rw [split, Stage.order] at path
      obtain ⟨rfl, -⟩ := List.cons_prefix_cons.mp path
      simp [split]
    | false =>
      have absent : Stage.extracting ∉ Stage.order.tail := by decide
      simpa using fun member => absent (path.subset member)
  done := account.done_mem_iff
  asked := account.calls_prefix
  answered := account.prefix_calls
  last _ _ _ _ := account.last_of_error
  warranted _ _ _ split := by simpa using account.warranted split
  charged own e failed stage named := by
    obtain ⟨last, final, charged⟩ := account.charged own failed
    rw [charged stage named, final]

/-- An outcome lists the stages of its run. -/
theorem stages_eq_of_run_eq_ok {o : Outcome} (done : p.run supply a outDir w = .ok o s') :
    o.stages = s'.stages := by
  rw [run_eq] at done
  split at done
  · cases done
  · obtain ⟨last, worked, rfl⟩ := onState_eq_ok_iff.mp done
    rw [steps_eq] at worked
    obtain ⟨⟨signed, records, report⟩, mid, -, published⟩ := bind_eq_ok_iff.mp worked
    obtain ⟨_, _, _, -, -, rfl⟩ := publish_eq_ok published
    rfl

/-- **A run is in order**: for whatever its collaborators do, it enters its stages in order and is
done exactly when it ends without a fault, calls its collaborators stage by stage and nobody
after the first failure, and the fault that it returns names no stage but the last. Its outcome
lists its stages. -/
theorem run_inOrder (p : Pipeline σ) (supply : Nat → BitVec 128) (a : Artifact) (outDir : Path)
    (w : World σ) :
    p.InOrder supply a w.host (stateOf (p.run supply a outDir w)).stages
        (p.calls supply a outDir w) (faultOf? (p.run supply a outDir w)) ∧
      ∀ o s, p.run supply a outDir w = .ok o s → o.stages = s.stages := by
  refine ⟨?_, fun o s => stages_eq_of_run_eq_ok⟩
  have plain := p.run_logged supply a outDir ⟨w.host, w.outside, []⟩
  rw [World.plain] at plain
  rw [plain, stateOf_onState, faultOf?_onState, calls]
  show p.InOrder supply a w.host
    (stateOf (p.logged.run supply a outDir ⟨w.host, w.outside, []⟩)).stages _ _
  rw [run_eq]
  cases made : FileAction.makeTempDir w.host with
  | error cause h => exact inOrder_of_unnamed fun _ => Fault.chargedTo_of_none rfl
  | ok work h =>
    dsimp only
    rw [stateOf_onState, faultOf?_onState]
    cases asked : needsExtraction a (p.contentIn work) p.forceExtract h with
    | error e h' =>
      have refused : p.logged.steps supply a outDir work ⟨⟨h, w.outside, []⟩, []⟩ =
          .error e ⟨⟨h', w.outside, []⟩, []⟩ :=
        bind_of_error (bind_of_error (lift_eq_error_iff.mpr ⟨h', asked, rfl⟩))
      rw [refused]
      exact inOrder_of_unnamed fun _ => charges_needsExtraction _ _ _ _ _ _ asked
    | ok needed h' =>
      have accounts : p.Accounts supply _ (p.logged.steps supply a outDir work)
          ⟨⟨h, w.outside, []⟩, []⟩ := accounts_steps asked
      obtain ⟨stages, calls, adds, account⟩ := accounts
      have inOrder := account.inOrder (p.reusesContent_iff_of_asked made asked)
      have entered : (stateOf (p.logged.steps supply a outDir work
          ⟨⟨h, w.outside, []⟩, []⟩)).stages = stages := adds.stages
      have made : (stateOf (p.logged.steps supply a outDir work
          ⟨⟨h, w.outside, []⟩, []⟩)).calls = calls := adds.calls
      rw [← entered, ← made] at inOrder
      exact inOrder

end Pipeline

end Tracepoint
