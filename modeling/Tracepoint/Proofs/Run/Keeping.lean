import Mathlib.Logic.Relation
import Tracepoint.Proofs.Run.Failure
import Tracepoint.Proofs.Run.Stages

/-!
# Kept content

Runs may share a directory in which they keep extracted content. Whether a run extracts again is
decided by the descriptor and by two times alone, so that what it goes on with is what the last
call of the extractor left there, apart from patches of the descriptor
(`History.reuses`): that call may have been for another archive, and it may have failed
(`History.exists_foreign_content`). A history is any sequence of runs and of what happens between
them; what one run does to the content and to the calls is `Pipeline.carries_run`, and a history
composes it.
-/

namespace Tracepoint

open Host FileTree
open Hosted (host)
open Relation (ReflTransGen)

/-! ### Content -/

/-- The places at and below that of a path. -/
def Path.within (p : Path) (wd : Location) : Set Location :=
  {l | p.place wd <+: l}

theorem Descriptor.place_mem_within (content : Path) (wd : Location) :
    (pathIn content).place wd ∈ content.within wd := by
  have named : Path.IsName fileName := by constructor <;> decide
  rw [pathIn, Path.place_join named]
  exact List.prefix_append _ _

/-- The files of a directory of content are what they were, apart from patches of the descriptor. -/
structure Host.Keeps (content : Path) (wd : Location) (h h' : Host) : Prop where
  files : ∀ l ∈ content.within wd, l ≠ (Descriptor.pathIn content).place wd →
    h'.files.content? l = h.files.content? l
  descriptor : ReflTransGen (Descriptor.Patches Descriptor.internetPermission)
    (h.files.content? ((Descriptor.pathIn content).place wd))
    (h'.files.content? ((Descriptor.pathIn content).place wd))

section

variable {content : Path} {wd : Location} {h h' h'' : Host}

theorem Host.Keeps.trans (first : h.Keeps content wd h') (later : h'.Keeps content wd h'') :
    h.Keeps content wd h'' where
  files l member other := (later.files l member other).trans (first.files l member other)
  descriptor := first.descriptor.trans later.descriptor

theorem Host.keeps_of_same
    (same : ∀ l ∈ content.within wd, h'.files.content? l = h.files.content? l) :
    h.Keeps content wd h' where
  files l member _ := same l member
  descriptor := by rw [same _ (Descriptor.place_mem_within content wd)]

theorem Host.Edits.keeps (edits : h.Edits ∅ h') : h.Keeps content wd h' :=
  keeps_of_same fun l _ => edits.content l (by simp)

theorem Host.Spared.keeps (spared : h.Spared (content.within wd) ∅ h') : h.Keeps content wd h' :=
  keeps_of_same fun l member => (spared.content l member).resolve_right (by simp)

/-- Where nothing was, nothing is kept. -/
theorem Host.Keeps.content?_descriptor_eq_none (keeps : h.Keeps content wd h')
    (absent : h.files.content? ((Descriptor.pathIn content).place wd) = none) :
    h'.files.content? ((Descriptor.pathIn content).place wd) = none := by
  have patched := keeps.descriptor
  rw [absent] at patched
  rcases patched.cases_head with same | ⟨_, patch, -⟩
  · exact same.symm
  · cases patch

/-- To ensure a permission keeps the content. -/
theorem Descriptor.keeps_ensure (content : Path) (sound : h.Sound) (here : h.workingDir = wd) :
    h.Keeps content wd (left (ensure content internetPermission) h) := by
  rcases left_ensure sound content internetPermission with same | ⟨l, leads, edits, patched⟩
  · rw [same]
    exact sound.edits.keeps
  · obtain rfl : (pathIn content).place wd = l := here ▸ place_of_resolve leads
    exact ⟨fun k _ other => edits.content k other, .single patched⟩

end

/-! ### Calls and content -/

/-- What some calls make of a directory of content: they extract nothing and the content is kept, or
it is kept from the last call that extracts on. -/
inductive Carries (content : Path) (wd : Location) (h : Host) (calls : List Call) (h' : Host) : Prop
  | kept (unextracted : ∀ call ∈ calls, call.request.stage ≠ .extracting)
      (keeps : h.Keeps content wd h')
  | extracted {archive : Path} {earlier later : List Call} {call : Call}
      (split : calls = earlier ++ call :: later) (request : call.request = .extract archive content)
      (last : ∀ call ∈ later, call.request.stage ≠ .extracting)
      (keeps : call.after.Keeps content wd h')

namespace Carries

variable {content : Path} {wd : Location} {h h' h'' : Host} {calls more : List Call}

theorem of_keeps (keeps : h.Keeps content wd h') : Carries content wd h [] h' :=
  .kept (by simp) keeps

theorem trans (first : Carries content wd h calls h') (later : Carries content wd h' more h'') :
    Carries content wd h (calls ++ more) h'' := by
  cases later with
  | extracted split request last keeps =>
    exact .extracted (by rw [split, List.append_assoc]) request last keeps
  | kept unextracted keeps =>
    cases first with
    | kept unextracted' keeps' =>
      refine .kept (fun call member => ?_) (keeps'.trans keeps)
      exact (List.mem_append.mp member).elim (unextracted' call) (unextracted call)
    | extracted split request last keeps' =>
      refine .extracted (by rw [split, List.append_assoc, List.cons_append]) request
        (fun call member => ?_) (keeps'.trans keeps)
      exact (List.mem_append.mp member).elim (last call) (unextracted call)

theorem keep (carries : Carries content wd h calls h') (keeps : h'.Keeps content wd h'') :
    Carries content wd h calls h'' := by
  have all := carries.trans (.of_keeps keeps)
  rwa [List.append_nil] at all

end Carries

variable {σ α β : Type}

/-- What the work of a session makes of content: it goes on from a sound host to a sound host, and
content is carried along by the calls that are made. -/
structure Carried (content : Path) (wd : Location) (s s' : Session (Logged σ)) : Prop where
  sound : s'.world.host.Sound
  workingDir : s'.world.host.workingDir = wd
  carries : ∃ calls, s'.calls = s.calls ++ calls ∧
    Carries content wd s.world.host calls s'.world.host

section

variable {content : Path} {wd : Location} {keep edited : Set Location}
  {s s' s'' : Session (Logged σ)}

theorem Carried.trans (first : Carried content wd s s') (later : Carried content wd s' s'') :
    Carried content wd s s'' where
  sound := later.sound
  workingDir := later.workingDir
  carries := by
    obtain ⟨calls, made, carries⟩ := first.carries
    obtain ⟨more, made', carries'⟩ := later.carries
    exact ⟨calls ++ more, by rw [made', made, List.append_assoc], carries.trans carries'⟩

theorem Spares.noted {work : Run σ α} (spares : Spares wd keep edited work) (request : Request)
    (given : α → Option Path) : Spares wd keep edited (Run.noted work request given) := by
  intro w sound here
  have same : host (left (Run.noted work request given) w) = host (left work w.plain) := by
    rw [left, left, Run.noted]
    cases work w.plain <;> rfl
  rw [same]
  exact spares w.plain sound here

theorem Spares.notedLoad {work : Load σ Unit} (spares : Spares wd keep edited work)
    (request : Request) : Spares wd keep edited (Load.noted work request) := by
  intro l sound here
  have same : host (left (Load.noted work request) l) = host (left work l.plain) := by
    rw [left, left, Load.noted]
    cases work l.plain <;> rfl
  rw [same]
  exact spares l.plain sound here

end

/-- What file work in a session leaves. -/
theorem left_file (x : FileWork α) (s : Session σ) :
    left ((x : Run σ α) : Step σ α) s =
      { s with world := { s.world with host := left x s.world.host } } := by
  cases done : ((x : Run σ α) : Step σ α) s with
  | ok a s' =>
    obtain ⟨h, worked, rfl⟩ := lift_eq_ok_iff.mp done
    rw [left_of_ok done, left_of_ok worked]
  | error e s' =>
    obtain ⟨h, worked, rfl⟩ := lift_eq_error_iff.mp done
    rw [left_of_error done, left_of_error worked]

theorem left_enter_bind {stage : Stage} {f : Unit → Step σ α} {s : Session σ} :
    left (Pipeline.enter stage >>= f) s = left (f ()) { s with stages := s.stages ++ [stage] } := by
  rw [left_bind]
  rfl

/-! ### The decision to extract -/

section

variable {a : Artifact} {content : Path} {force : Bool} {h h' : Host}

/-- Content that needs no extraction has a descriptor and is not older than the artifact. -/
theorem needsExtraction_eq_ok_false (asked : needsExtraction a content force h = .ok false h') :
    force = false ∧ h.isFile (Descriptor.pathIn content) ∧ ∃ extracted changed,
      h.modified content = .ok extracted ∧ h.modified a.path = .ok changed ∧
      changed ≤ extracted := by
  obtain ⟨_, _, got, decision⟩ := bind_eq_ok_iff.mp asked
  cases got
  split at decision
  · cases decision
  · rename_i current
    obtain ⟨extracted, h₁, answered, compared⟩ := bind_eq_ok_iff.mp decision
    obtain ⟨first, rfl⟩ := within_ask_eq_ok_iff.mp answered
    obtain ⟨changed, h₂, answered', returned⟩ := bind_eq_ok_iff.mp compared
    obtain ⟨second, rfl⟩ := within_ask_eq_ok_iff.mp answered'
    obtain ⟨fresh, -⟩ := EStateM.Result.ok.inj returned
    simp only [Bool.or_eq_true, Bool.not_eq_eq_eq_not, Bool.not_true, not_or, Bool.not_eq_false,
      Bool.not_eq_true] at current
    exact ⟨current.1, current.2, extracted, changed, first, second, by simpa using fresh⟩

end

namespace Pipeline

variable {p : Pipeline σ} {supply : Nat → BitVec 128} {a : Artifact} {content outDir work : Path}
  {wd : Location} {s s' : Session (Logged σ)}

/-- A run keeps content in a directory that nothing writes to but its extractor and its patch of the
descriptor. -/
structure SharesContent (p : Pipeline σ) (content : Path) (a : Artifact) (outDir work : Path)
    (wd : Location) : Prop where
  contentDir : p.contentDir = some content
  extract : Spares wd ∅ ∅ (p.contentTool.extract a.path content)
  build : Spares wd (content.within wd) ∅ (p.contentTool.build content (a.rebuiltIn work))
  load : Spares wd (content.within wd) ∅ (p.backend.load (a.rebuiltIn work) work)
  write : ∀ registry,
    Spares wd (content.within wd) ∅ (p.backend.write registry (a.rebuiltIn work) work)
  sign : ∀ registry w archive w',
    p.backend.write registry (a.rebuiltIn work) work w = .ok archive w' →
      Spares wd (content.within wd) ∅ (p.signer.sign archive)
  archive : (Path.join outDir a.instrumentedName).place wd ∉ content.within wd
  manifest : (Path.join outDir (a.fileName ++ p.settings.manifestSuffix)).place wd ∉
    content.within wd
  work : ∀ l ∈ content.within wd, ¬ work.place wd <+: l

theorem SharesContent.contentIn (shares : p.SharesContent content a outDir work wd) :
    p.contentIn work = content := by
  rw [Pipeline.contentIn, shares.contentDir, Option.getD_some]

/-- Once the descriptor is patched nothing writes to the content. -/
theorem SharesContent.spares_later (shares : p.SharesContent content a outDir work wd)
    (supply : Nat → BitVec 128) (ns : Option String) : Spares wd (content.within wd) ∅
      (p.logged.prepare supply a work ns >>= p.logged.publish a outDir) := by
  have sign (registry : Registry) (w : World (Logged σ)) (archive : Path) (w' : World (Logged σ))
      (written : p.logged.backend.write registry (a.rebuiltIn work) work w = .ok archive w') :
      Spares wd (content.within wd) ∅ (p.logged.signer.sign archive) := by
    replace written : Run.noted _ _ _ _ = _ := written
    rw [Run.noted] at written
    split at written <;> cases written
    rename_i done
    exact (shares.sign registry _ _ _ done).noted _ _
  refine (spares_prepare ?_ ?_ ?_ sign).bind fun _ _ _ _ =>
    spares_publish shares.archive shares.manifest
  · change Spares _ _ _ (p.logged.contentTool.build (p.contentIn work) _)
    rw [shares.contentIn]
    exact shares.build.noted _ _
  · exact shares.load.notedLoad _
  · exact fun registry => (shares.write registry).noted _ _

/-- The patch of the descriptor is all that changes when it is patched. -/
theorem keeps_patch (content : Path) {s : Session σ} (sound : s.world.host.Sound)
    (here : s.world.host.workingDir = wd) :
    s.world.host.Keeps content wd (left (patch content) s).world.host := by
  have ensured := Descriptor.keeps_ensure content sound here
  rw [patch, left_enter_bind, left_bind]
  split
  · rename_i done
    rw [left_file, Descriptor.left_packageIn?, ← left_of_ok done, left_file]
    exact ensured
  · rename_i failed
    rw [← left_of_error failed, left_file]
    exact ensured

/-- From the patch of the descriptor on content is kept. -/
theorem SharesContent.carried_finish (shares : p.SharesContent content a outDir work wd)
    (sound : s.world.host.Sound) (here : s.world.host.workingDir = wd) :
    Carried content wd s (left (p.logged.finish supply a outDir work) s) := by
  obtain ⟨stages, calls, adds, account⟩ : p.Accounts supply Stage.order.tail
    (p.logged.finish supply a outDir work) s := accounts_finish
  have unextracted : ∀ call ∈ calls, call.request.stage ≠ .extracting := by
    intro call member same
    have entered := account.calls_prefix.subset (List.mem_map.mpr ⟨call, member, same⟩)
    have path := account.prefix_path.subset (List.mem_of_mem_filter entered)
    exact absurd path (by decide)
  have finish : p.logged.finish supply a outDir work = patch content >>= fun ns =>
      p.logged.prepare supply a work ns >>= p.logged.publish a outDir := by
    rw [← shares.contentIn]
    rfl
  have spares : Spares wd (content.within wd) {(Descriptor.pathIn content).place wd}
      (p.logged.finish supply a outDir work) := by
    rw [finish]
    exact (spares_patch content).bind fun _ ns _ _ => (shares.spares_later supply ns).widen
  have spared := spares s sound here
  refine ⟨spared.sound, spared.workingDir.trans here, calls, adds.calls, .kept unextracted ?_⟩
  have patched := keeps_patch content sound here
  have reaches : Spares wd (content.within wd) _ (patch content : Step (Logged σ) _) :=
    spares_patch content
  have reached := reaches s sound here
  rw [finish, left_bind]
  split
  · rename_i ns mid done
    rw [left_of_ok done] at patched reached
    have later := shares.spares_later supply ns mid reached.sound (reached.workingDir.trans here)
    exact patched.trans later.keeps
  · rename_i failed
    rw [left_of_error failed] at patched
    exact patched

/-- Content is what the extractor leaves, however it ends. -/
theorem SharesContent.carried_call (shares : p.SharesContent content a outDir work wd)
    (sound : s.world.host.Sound) (here : s.world.host.workingDir = wd) :
    Carried content wd s
      (left (p.logged.contentTool.extract a.path content : Step (Logged σ) Unit) s) := by
  have spared := (shares.extract.noted (.extract a.path content) fun _ => none).onSession s
    sound here
  obtain ⟨result, made⟩ := calls_left_noted (p.contentTool.extract a.path content)
    (.extract a.path content) (fun _ => none) s
  refine ⟨spared.sound, spared.workingDir.trans here, _, made, ?_⟩
  exact .extracted (List.nil_append _).symm rfl (by simp) (keeps_of_same fun _ _ => rfl)

/-- Content is extracted, or kept as it is. -/
theorem SharesContent.carried_extract (shares : p.SharesContent content a outDir work wd)
    (sound : s.world.host.Sound) (here : s.world.host.workingDir = wd) :
    Carried content wd s (left (p.logged.extract a content) s) := by
  have still : Carried content wd s s :=
    ⟨sound, here, [], (List.append_nil _).symm, .of_keeps (keeps_of_same fun _ _ => rfl)⟩
  rw [Pipeline.extract, left_bind]
  split
  · rename_i needed mid asked
    obtain rfl : mid = s := by
      rw [← left_of_ok asked, left_file, left_needsExtraction]
    split
    · have noted : Carried content wd { mid with stages := mid.stages ++ [.extracting] } _ :=
        shares.carried_call sound here
      rw [left_enter_bind, left_bind]
      split
      · rename_i done
        rw [left_file, left_requireOutput]
        rw [left_of_ok done] at noted
        exact ⟨noted.sound, noted.workingDir, noted.carries⟩
      · rename_i failed
        rw [left_of_error failed] at noted
        exact ⟨noted.sound, noted.workingDir, noted.carries⟩
    · exact still
  · rename_i refused
    rw [← left_of_error refused, left_file, left_needsExtraction]
    exact still

/-- The steps of a run carry content along. -/
theorem SharesContent.carried_steps (shares : p.SharesContent content a outDir work wd)
    (supply : Nat → BitVec 128) (sound : s.world.host.Sound)
    (here : s.world.host.workingDir = wd) :
    Carried content wd s (left (p.logged.steps supply a outDir work) s) := by
  have extracted := shares.carried_extract sound here
  have same : p.logged.contentIn work = content := shares.contentIn
  rw [steps_eq_extract, same, left_bind]
  split
  · rename_i done
    rw [left_of_ok done] at extracted
    exact extracted.trans (shares.carried_finish extracted.sound extracted.workingDir)
  · rename_i failed
    rw [left_of_error failed] at extracted
    exact extracted

/-- The removal of a work directory beside the content keeps the content. -/
theorem keeps_left_removeDirAll {h : Host} (here : h.workingDir = wd)
    (apart : ∀ l ∈ content.within wd, ¬ work.place wd <+: l) :
    h.Keeps content wd (left (FileAction.removeDirAll work) h) := by
  refine keeps_of_same fun l member => ?_
  rcases FileAction.content?_left_removeDirAll work h l with same | ⟨below, -⟩
  · exact same
  · rw [here] at below
    exact absurd below (apart l member)

/-- A run carries content along: what it extracts, or what was there before it. -/
theorem carries_run {w : World σ} (sound : w.host.Sound)
    (shares : p.SharesContent content a outDir (FileAction.nextTemp w.host w.host.tempDir)
      w.host.workingDir) :
    (stateOf (p.run supply a outDir w)).world.host.Sound ∧
      (stateOf (p.run supply a outDir w)).world.host.workingDir = w.host.workingDir ∧
      Carries content w.host.workingDir w.host (p.calls supply a outDir w)
        (stateOf (p.run supply a outDir w)).world.host := by
  have plain := p.run_logged supply a outDir ⟨w.host, w.outside, []⟩
  rw [World.plain] at plain
  rw [plain, stateOf_onState, calls]
  change (stateOf (p.logged.run supply a outDir ⟨w.host, w.outside, []⟩)).world.host.Sound ∧
    (stateOf (p.logged.run supply a outDir ⟨w.host, w.outside, []⟩)).world.host.workingDir = _ ∧
    Carries _ _ _ _ (stateOf (p.logged.run supply a outDir ⟨w.host, w.outside, []⟩)).world.host
  rw [run_eq]
  cases made : FileAction.makeTempDir w.host with
  | error cause h =>
    obtain rfl := FileAction.makeTempDir_eq_error made
    exact ⟨sound, rfl, .of_keeps (keeps_of_same fun _ _ => rfl)⟩
  | ok work h =>
    obtain ⟨rfl, edits⟩ := FileAction.makeTempDir_eq_ok sound made
    have carried := shares.carried_steps supply (s := ⟨⟨h, w.outside, []⟩, []⟩)
      (edits.sound sound) edits.workingDir
    obtain ⟨calls, added, carries⟩ := carried.carries
    have removed := keeps_left_removeDirAll carried.workingDir shares.work
    have all := (Carries.of_keeps edits.keeps).trans (carries.keep removed)
    dsimp only
    rw [stateOf_onState, stateOf_apply, host_discard, calls_discard, added]
    exact ⟨FileAction.sound_left_removeDirAll_nextTemp sound carried.sound carried.workingDir _,
      (FileAction.workingDir_left_removeDirAll _ _).trans carried.workingDir, all⟩

end Pipeline

/-! ### Histories -/

/-- What may happen to a directory for content that is absent at first, with the calls of the runs
that share it: runs, whatever their artifacts are and however they end, and anything that leaves
its files as they are. -/
inductive History (content : Path) (wd : Location) : World σ → List Call → Prop where
  | start {w : World σ} (sound : w.host.Sound) (here : w.host.workingDir = wd)
      (absent : w.host.files.get? (content.place wd) = none) : History content wd w []
  | meanwhile {w w' : World σ} {calls : List Call} (earlier : History content wd w calls)
      (sound : w'.host.Sound) (here : w'.host.workingDir = wd)
      (untouched : ∀ l ∈ content.within wd,
        w'.host.files.content? l = w.host.files.content? l) : History content wd w' calls
  | run {w : World σ} {calls : List Call} {p : Pipeline σ} {supply : Nat → BitVec 128}
      {a : Artifact} {outDir : Path} (earlier : History content wd w calls)
      (shares : p.SharesContent content a outDir (FileAction.nextTemp w.host w.host.tempDir) wd) :
      History content wd (stateOf (p.run supply a outDir w)).world
        (calls ++ p.calls supply a outDir w)

namespace History

variable {content : Path} {wd : Location} {w : World σ} {calls : List Call} {p : Pipeline σ}
  {a : Artifact}

/-- A history carries content along from nothing. -/
theorem carries (history : History content wd w calls) :
    w.host.Sound ∧ w.host.workingDir = wd ∧ ∃ h : Host,
      (∀ l ∈ content.within wd, h.files.content? l = none) ∧ Carries content wd h calls w.host := by
  induction history with
  | @start w sound here absent =>
    refine ⟨sound, here, w.host, fun l below => ?_, .of_keeps (keeps_of_same fun _ _ => rfl)⟩
    exact sound.rooted.content?_eq_none_of_prefix absent below
  | meanwhile _ sound here untouched ih =>
    obtain ⟨-, -, h, nothing, carries⟩ := ih
    exact ⟨sound, here, h, nothing, carries.keep (keeps_of_same untouched)⟩
  | run _ shares ih =>
    obtain ⟨sound, rfl, h, nothing, carries⟩ := ih
    obtain ⟨sound', here, carries'⟩ := Pipeline.carries_run sound shares
    exact ⟨sound', here, h, nothing, carries.trans carries'⟩

/-- What a run knows of content that it does not extract again, on the host where it decides so. -/
structure Reuse (content : Path) (wd : Location) (calls : List Call) (force : Bool) (a : Artifact)
    (h : Host) : Prop where
  unforced : force = false
  descriptor : h.isFile (Descriptor.pathIn content)
  /-- The directory is not older than the artifact. -/
  current : ∃ extracted changed, h.modified content = .ok extracted ∧
    h.modified a.path = .ok changed ∧ changed ≤ extracted
  /-- The content is what the last call of an extractor left. -/
  held : ∃ archive earlier call later, calls = earlier ++ call :: later ∧
    call.request = .extract archive content ∧
    (∀ call ∈ later, call.request.stage ≠ .extracting) ∧ call.after.Keeps content wd h

/-- **A run that skips extraction goes on with what the last extraction left**, apart from patches
of the descriptor, in a directory that is not older than its artifact. -/
theorem reuses (history : History content wd w calls) (kept : p.contentDir = some content)
    (reuses : p.ReusesContent a w.host) : ∃ work h, FileAction.makeTempDir w.host = .ok work h ∧
      Reuse content wd calls p.forceExtract a h := by
  obtain ⟨work, h, h', made, asked⟩ := reuses
  obtain ⟨sound, here, start, nothing, carries⟩ := history.carries
  have edits := (FileAction.makeTempDir_eq_ok sound made).2
  rw [Pipeline.contentIn, kept, Option.getD_some] at asked
  obtain ⟨unforced, descriptor, current⟩ := needsExtraction_eq_ok_false asked
  refine ⟨work, h, made, unforced, descriptor, current, ?_⟩
  cases carries with
  | extracted split request last keeps =>
    exact ⟨_, _, _, _, split, request, last, keeps.trans edits.keeps⟩
  | kept _ keeps =>
    obtain ⟨l, leads, there⟩ := FileAction.isFile_iff.mp descriptor
    have place := place_of_resolve leads
    rw [edits.workingDir, here] at place
    have absent := (keeps.trans edits.keeps).content?_descriptor_eq_none
      (nothing _ (Descriptor.place_mem_within content wd))
    rw [place] at absent
    simp [absent] at there

end History

/-! ### Samples -/

namespace Pipeline

/-- The sample pipeline with a directory for content. -/
def keeping : Pipeline Unit :=
  { sample .lax with contentDir := some "/content" }

/-- The same with an extractor that fails when its work is done. -/
def interrupted : Pipeline Unit :=
  { keeping with
    contentTool :=
      { keeping.contentTool with
        extract := fun archive content => do
          keeping.contentTool.extract archive content
          throw (.toolFailure .extracting archive "unpack" "interrupted") } }

theorem spares_extract_keeping (archive : Path) :
    Spares [] ∅ ∅ (keeping.contentTool.extract archive "/content") := by
  apply Spares.bind
  · exact (spares_createDirAll _).adaptExcept.onWorld
  · exact fun _ _ _ _ => (spares_write (by simp)).adaptExcept.onWorld

theorem not_tmp_prefix {l : Location} (member : l ∈ Path.within "/content" []) :
    ¬ ["tmp"] <+: l := by
  have place : Path.place [] "/content" = ["content"] := by decide
  obtain ⟨rest, rfl⟩ := member
  rw [place]
  simp

theorem sharesContent_keeping (h : Host) :
    keeping.SharesContent "/content" .sample "/out" (FileAction.nextTemp h "/tmp") [] := by
  have named : Path.IsName Artifact.sample.fileName := by constructor <;> decide
  have spare := collaboratorsSpare_of_apart .lax h named (fun _ => not_tmp_prefix)
    fun _ => spares_pure _
  constructor
  case contentDir => rfl
  case extract => exact spares_extract_keeping _
  case build => exact spare.build
  case load => exact spare.load
  case write => exact spare.write
  case sign => exact spare.sign
  case archive =>
    show ¬ Path.place [] "/content" <+: Path.place [] (Path.join "/out" _)
    decide
  case manifest =>
    show ¬ Path.place [] "/content" <+: Path.place [] (Path.join "/out" _)
    decide
  case work =>
    intro l member below
    have tmp : Path.place [] "/tmp" = ["tmp"] := by decide
    rw [FileAction.nextTemp, Path.place_join (FileAction.isName_freeName _ _), tmp] at below
    exact not_tmp_prefix member ((List.prefix_append _ _).trans below)

theorem sharesContent_interrupted (h : Host) :
    interrupted.SharesContent "/content" .sample "/out" (FileAction.nextTemp h "/tmp") [] := by
  have shares := sharesContent_keeping h
  have extract : Spares [] ∅ ∅ (interrupted.contentTool.extract Artifact.sample.path "/content") :=
    (spares_extract_keeping _).bind fun _ _ _ _ => spares_throw _
  exact ⟨rfl, extract, shares.build, shares.load, shares.write, shares.sign, shares.archive,
    shares.manifest, shares.work⟩

end Pipeline

/-- The archive that is to be extracted. -/
def Request.extracted? : Request → Option Path
  | .extract archive _ => some archive
  | _ => none

/-- The archive that the sample host has published. -/
def Artifact.published : Artifact :=
  ⟨"/out/app-instrumented.apk", "app-instrumented.apk"⟩

namespace Pipeline

/-- The world after a run of the sample. -/
def afterSample (p : Pipeline Unit) : World Unit :=
  (stateOf (p.run (fun _ => 0) .sample "/out" ⟨.sample (.file .empty 3), ()⟩)).world

/-- The calls of a run of the sample. -/
def sampleCalls (p : Pipeline Unit) : List Call :=
  p.calls (fun _ => 0) .sample "/out" ⟨.sample (.file .empty 3), ()⟩

end Pipeline

namespace History

open Pipeline (keeping interrupted)

/-- The history of one run of the sample. -/
theorem sample {p : Pipeline Unit} (shares : p.SharesContent "/content" .sample "/out"
    (FileAction.nextTemp (.sample (.file .empty 3)) "/tmp") []) :
    History "/content" [] p.afterSample ([] ++ p.sampleCalls) :=
  .run (.start (Pipeline.sound_sample (.file .empty 3)) rfl rfl) shares

/-- After a run of the sample the content is good for the same archive. -/
theorem reuses_sample : ∃ (w : World Unit) (calls : List Call) (work : Path) (h : Host),
    History "/content" [] w calls ∧ keeping.ReusesContent .sample w.host ∧
    FileAction.makeTempDir w.host = .ok work h ∧ Reuse "/content" [] calls false .sample h := by
  have history := sample (Pipeline.sharesContent_keeping _)
  have reused : keeping.ReusesContent .sample keeping.afterSample.host := by
    decide +kernel
  obtain ⟨work, h, made, reuse⟩ := reuses history rfl reused
  exact ⟨_, _, work, h, history, reused, made, reuse⟩

/-- **Content that is reused may be that of another archive**, and it may be what a failed
extraction left: descriptor and times are all that is looked at. -/
theorem exists_foreign_content : ¬ ∀ (w : World Unit) (calls : List Call) (p : Pipeline Unit)
    (a : Artifact), History "/content" [] w calls → p.contentDir = some "/content" →
    p.ReusesContent a w.host → ∃ call ∈ calls, call.request = .extract a.path "/content" ∧
      call.result = .ok none ∧ call.after.Keeps "/content" [] w.host := by
  intro own
  -- The one extraction of this history is that of another archive, and it was interrupted.
  have history := sample (Pipeline.sharesContent_interrupted _)
  have reused : keeping.ReusesContent .published interrupted.afterSample.host := by
    decide +kernel
  have foreign : interrupted.sampleCalls.all fun call =>
      call.request.extracted? != some Artifact.published.path := by
    decide +kernel
  obtain ⟨call, member, request, -⟩ := own _ _ keeping .published history rfl reused
  have other := List.all_eq_true.mp foreign call (by simpa using member)
  simp [request, Request.extracted?] at other

end History

end Tracepoint
