import Tracepoint.Proofs.Run.Placing

/-!
# What a run leaves alone

An action spares some places (`Spares`) when it leaves every file there as it was, however it
ends, apart from files that it may edit but not make. This is kept by sequences of actions, on
a host, a world or a session alike. Up to the last stage a run changes files in three ways: it
edits the descriptor of the content, it makes directories, and it calls its collaborators. So
it spares what they spare (`Pipeline.CollaboratorsSpare`), with the descriptor for an exception.
The last stage spares everything but the places of the archive and of the manifest.
-/

namespace Tracepoint

open Host FileTree

/-- The states that a host is part of. -/
class Hosted (τ : Type) where
  host : τ → Host

open Hosted (host)

instance : Hosted Host := ⟨id⟩

instance {σ : Type} : Hosted (World σ) := ⟨World.host⟩

instance {σ : Type} : Hosted (Loading σ) := ⟨fun l => l.world.host⟩

instance {σ : Type} : Hosted (Session σ) := ⟨fun s => s.world.host⟩

/-- A host is left as it was at the places in `keep`, apart from files that were in `edited`. -/
structure Host.Spared (keep edited : Set Location) (h h' : Host) : Prop where
  workingDir : h'.workingDir = h.workingDir
  sound : h'.Sound
  content : ∀ l ∈ keep, h'.files.content? l = h.files.content? l ∨
    l ∈ edited ∧ h.files.content? l ≠ none

section

variable {keep edited : Set Location} {h h' h'' : Host}

theorem Host.Sound.spared (sound : h.Sound) : h.Spared keep edited h :=
  ⟨rfl, sound, fun _ _ => .inl rfl⟩

theorem Host.Edits.spared_of_apart {only : Set Location} (sound : h.Sound)
    (edits : h.Edits only h') (apart : ∀ l ∈ keep, l ∉ only) : h.Spared keep edited h' :=
  ⟨edits.workingDir, edits.sound sound, fun l kept => .inl (edits.content l (apart l kept))⟩

theorem Host.Edits.spared (sound : h.Sound) (edits : h.Edits ∅ h') : h.Spared keep edited h' :=
  edits.spared_of_apart sound (by simp)

theorem Host.Spared.trans (first : h.Spared keep edited h') (second : h'.Spared keep edited h'') :
    h.Spared keep edited h'' where
  workingDir := second.workingDir.trans first.workingDir
  sound := second.sound
  content l kept := by
    rcases first.content l kept with same | before
    · rw [← same]
      exact second.content l kept
    · exact .inr before

end

/-- An action spares the places in `keep` on every sound host with a working directory. -/
def Spares {ε τ α : Type} [Hosted τ] (workingDir : Location) (keep edited : Set Location)
    (x : EStateM ε τ α) : Prop :=
  ∀ s, (host s).Sound → (host s).workingDir = workingDir →
    (host s).Spared keep edited (host (left x s))

section

variable {ε τ τ' α β : Type} [Hosted τ] [Hosted τ'] {wd : Location} {keep edited : Set Location}

/-- An action that leaves the host as it is spares everything. -/
theorem spares_of_still {x : EStateM ε τ α} (still : ∀ s, host (left x s) = host s) :
    Spares wd keep edited x := by
  intro s sound _
  rw [still]
  exact sound.spared

theorem spares_pure (a : α) : Spares wd keep edited (pure a : EStateM ε τ α) :=
  spares_of_still fun _ => rfl

theorem spares_throw (e : ε) : Spares wd keep edited (throw e : EStateM ε τ α) :=
  spares_of_still fun _ => rfl

theorem spares_get : Spares wd keep edited (get : EStateM ε τ τ) :=
  spares_of_still fun _ => rfl

theorem Spares.bind {x : EStateM ε τ α} {f : α → EStateM ε τ β} (first : Spares wd keep edited x)
    (later : ∀ s a s', x s = .ok a s' → Spares wd keep edited (f a)) :
    Spares wd keep edited (x >>= f) := by
  intro s sound here
  have spared := first s sound here
  rw [left] at spared
  rw [left_bind]
  cases done : x s with
  | ok a mid =>
    rw [done] at spared
    exact spared.trans (later s a mid done mid spared.sound (spared.workingDir.trans here))
  | error e mid =>
    rw [done] at spared
    exact spared

theorem Spares.widen {x : EStateM ε τ α} (spares : Spares wd keep ∅ x) :
    Spares wd keep edited x := by
  intro s sound here
  obtain ⟨workingDir, sound', content⟩ := spares s sound here
  exact ⟨workingDir, sound', fun l kept => .inl ((content l kept).resolve_right (by simp))⟩

theorem Spares.adaptExcept {ε' : Type} {f : ε → ε'} {x : EStateM ε τ α}
    (spares : Spares wd keep edited x) : Spares wd keep edited (EStateM.adaptExcept f x) := by
  intro s sound here
  have same : left (EStateM.adaptExcept f x) s = left x s := by
    rw [left, left, EStateM.adaptExcept]
    cases x s <;> rfl
  rw [same]
  exact spares s sound here

/-- Work on a part of a state spares what it spares of the part. -/
theorem Spares.zoom {part : τ → τ'} {replace : τ' → τ → τ} {x : EStateM ε τ' α}
    (spares : Spares wd keep edited x) (from' : ∀ s, host (part s) = host s)
    (into : ∀ t s, host (replace t s) = host t) :
    Spares wd keep edited (zoom part replace x) := by
  intro s sound here
  rw [← from' s] at sound here ⊢
  have same : host (left (Tracepoint.zoom part replace x) s) = host (left x (part s)) := by
    rw [left, left, Tracepoint.zoom]
    cases x (part s) <;> exact into _ _
  rw [same]
  exact spares (part s) sound here

theorem Spares.onWorld {σ : Type} {x : FileWork α} (spares : Spares wd keep edited x) :
    Spares wd keep edited (x : Run σ α) :=
  spares.zoom (fun _ => rfl) fun _ _ => rfl

theorem Spares.onSession {σ : Type} {x : Run σ α} (spares : Spares wd keep edited x) :
    Spares wd keep edited (x : Step σ α) :=
  spares.zoom (fun _ => rfl) fun _ _ => rfl

/-- What is loaded into an empty registry is loaded on the same host. -/
theorem Spares.registry {σ : Type} {work : Load σ Unit} (spares : Spares wd keep edited work) :
    Spares wd keep edited work.registry := by
  intro w sound here
  have same : host (left work.registry w) = host (left work ⟨w, .empty⟩) := by
    rw [left, left, Load.registry]
    cases work ⟨w, .empty⟩ <;> rfl
  rw [same]
  exact spares ⟨w, .empty⟩ sound here

/-- To ask something leaves the host as it is. -/
theorem left_ask {question : Host → Except FileFault α} {context : String} {h : Host} :
    left ((FileAction.ask question).within context) h = h := by
  rw [left, FileAction.within, EStateM.adaptExcept, FileAction.ask]
  cases question h <;> rfl

theorem left_requireOutput {stage : Stage} {p : Path} {h : Host} :
    left (requireOutput stage p) h = h := by
  refine left_bind_of_still rfl fun _ => ?_
  split <;> rfl

theorem spares_requireOutput (stage : Stage) (p : Path) :
    Spares wd keep edited (requireOutput stage p) :=
  spares_of_still fun _ => left_requireOutput

theorem left_needsExtraction {a : Artifact} {content : Path} {force : Bool} {h : Host} :
    left (needsExtraction a content force) h = h := by
  refine left_bind_of_still rfl fun _ => ?_
  split
  · rfl
  · exact left_bind_of_still left_ask fun _ => left_bind_of_still left_ask fun _ => rfl

theorem spares_needsExtraction (a : Artifact) (content : Path) (force : Bool) :
    Spares wd keep edited (needsExtraction a content force) :=
  spares_of_still fun _ => left_needsExtraction

/-- Writing a file spares everything but its place. -/
theorem spares_write {p : Path} {content : ByteArray} (apart : p.place wd ∉ keep) :
    Spares wd keep edited (FileAction.write p content) := by
  intro h sound here
  cases done : FileAction.write p content h with
  | ok _ h' =>
    rw [left_of_ok done]
    obtain ⟨l, found, edits, -⟩ := FileAction.write_eq_ok sound done
    have place : p.place wd = l := here ▸ place_of_resolve found
    refine edits.spared_of_apart sound ?_
    rintro k kept rfl
    exact apart (place ▸ kept)
  | error e h' =>
    rw [left_of_error done, FileAction.write_eq_error done]
    exact sound.spared

theorem spares_createDirAll (p : Path) : Spares wd keep edited (FileAction.createDirAll p) :=
  fun _ sound _ => (FileAction.edits_left_createDirAll sound p).spared sound

end

/-! ### The descriptor -/

namespace Descriptor

variable {wd : Location} {keep : Set Location} {h h' : Host} {p : Path}

theorem openAt_eq_ok {e : Editor} (done : Editor.openAt p h = .ok e h') :
    h' = h ∧ ∃ text l, e = .ofContent p text ∧ h.resolve p = .ok l ∧
      h.files.content? l = some text.toUTF8 := by
  obtain ⟨text, mid, asked, rest⟩ := bind_eq_ok_iff.mp done
  obtain ⟨read, rfl⟩ := within_ask_eq_ok_iff.mp asked
  cases rest
  obtain ⟨l, leads, there⟩ := FileAction.read_eq_ok_iff.mp (FileAction.readText_eq_ok read)
  exact ⟨rfl, text, l, rfl, leads, there⟩

theorem left_openAt : left (Editor.openAt p) h = h :=
  left_bind_of_still left_ask fun _ => rfl

theorem left_packageIn? {content : Path} : left (packageIn? content) h = h :=
  left_bind_of_still left_openAt fun _ => rfl

/-- What is queued is written to the place of the descriptor, if anything is. -/
theorem left_writeOut {e : Editor} {l : Location} (sound : h.Sound)
    (leads : h.resolve e.path = .ok l) :
    left e.writeOut h = h ∨ ∃ rendered, e.render = .ok rendered ∧ h.Edits {l} (left e.writeOut h) ∧
      (left e.writeOut h).files.content? l = some rendered.toUTF8 := by
  rw [Editor.writeOut]
  split
  · exact .inl rfl
  split
  · exact .inl rfl
  · rename_i rendered renders
    rw [left_bind]
    split
    · rename_i mid written
      have edits := FileAction.write_at sound leads (adaptExcept_eq_ok_iff.mp written)
      exact .inr ⟨rendered, renders, edits⟩
    · rename_i mid refused
      obtain ⟨cause, refused, -⟩ := adaptExcept_eq_error_iff.mp refused
      exact .inl (FileAction.write_eq_error refused)

/-- A descriptor that lacks a permission is patched: its text is that of another one with the line
for the permission put in. -/
inductive Patches (permission : String) : Option ByteArray → Option ByteArray → Prop where
  | patch {p : Path} {text rendered : String}
      (lacks : (Editor.ofContent p text).has permission = false)
      (renders : ((Editor.ofContent p text).add permission).render = .ok rendered) :
      Patches permission (some text.toUTF8) (some rendered.toUTF8)

/-- To ensure a permission changes nothing, or patches the descriptor. -/
theorem left_ensure (sound : h.Sound) (content : Path) (permission : String) :
    left (ensure content permission) h = h ∨ ∃ l, h.resolve (pathIn content) = .ok l ∧
      h.Edits {l} (left (ensure content permission) h) ∧
      Patches permission (h.files.content? l)
        ((left (ensure content permission) h).files.content? l) := by
  rw [ensure, left_bind]
  split
  · rename_i e mid opened
    obtain ⟨rfl, text, l, rfl, leads, there⟩ := openAt_eq_ok opened
    split
    · exact .inl rfl
    · rename_i lacks
      rw [Bool.not_eq_true] at lacks
      have leads' : mid.resolve ((Editor.ofContent (pathIn content) text).add permission).path =
          .ok l := by
        rw [Editor.add]
        split <;> exact leads
      rw [left_bind_pure]
      rcases left_writeOut sound leads' with same | ⟨rendered, renders, edits, patched⟩
      · exact .inl same
      · refine .inr ⟨l, leads, edits, ?_⟩
        rw [there, patched]
        exact .patch lacks renders
  · rename_i refused
    exact .inl (left_of_error refused ▸ left_openAt)

/-- To ensure a permission edits the descriptor where there is one. -/
theorem spares_ensure (content : Path) (permission : String) :
    Spares wd keep {(pathIn content).place wd} (ensure content permission) := by
  intro h sound here
  change h.Sound at sound
  change h.Spared _ _ (left (ensure content permission) h)
  rcases left_ensure sound content permission with same | ⟨l, leads, edits, patched⟩
  · rw [same]
    exact sound.spared
  · have place : (pathIn content).place wd = l := here ▸ place_of_resolve leads
    refine ⟨edits.workingDir, edits.sound sound, fun k _ => ?_⟩
    by_cases same : k = l
    · subst same
      refine .inr ⟨place.symm, ?_⟩
      cases there : h.files.content? k with
      | none =>
        rw [there] at patched
        cases patched
      | some _ => simp
    · exact .inl (edits.content k same)

theorem spares_packageIn? {edited : Set Location} (content : Path) :
    Spares wd keep edited (packageIn? content) :=
  spares_of_still fun _ => left_packageIn?

end Descriptor

/-! ### The stages before the last -/

/-- Where a run packs the patched content. -/
def Artifact.rebuiltIn (a : Artifact) (work : Path) : Path :=
  Path.join (Path.join work "rebuilt") a.fileName

namespace Pipeline

variable {σ : Type} {p : Pipeline σ} {a : Artifact} {work : Path} {wd : Location}
  {keep edited : Set Location}

/-- The collaborators spare some places when a run calls them for an artifact, with a directory to
work in. -/
structure CollaboratorsSpare (p : Pipeline σ) (a : Artifact) (work : Path) (wd : Location)
    (keep : Set Location) : Prop where
  extract : Spares wd keep ∅ (p.contentTool.extract a.path (p.contentIn work))
  build : Spares wd keep ∅ (p.contentTool.build (p.contentIn work) (a.rebuiltIn work))
  load : Spares wd keep ∅ (p.backend.load (a.rebuiltIn work) work)
  write : ∀ registry, Spares wd keep ∅ (p.backend.write registry (a.rebuiltIn work) work)
  /-- The signer is called for what was written. -/
  sign : ∀ registry w archive w',
    p.backend.write registry (a.rebuiltIn work) work w = .ok archive w' →
      Spares wd keep ∅ (p.signer.sign archive)

theorem spares_enter (stage : Stage) : Spares wd keep edited (enter stage : Step σ Unit) :=
  spares_of_still fun _ => rfl

theorem spares_patch (content : Path) :
    Spares wd keep {(Descriptor.pathIn content).place wd}
      (patch content : Step σ (Option String)) :=
  (spares_enter _).bind fun _ _ _ _ =>
    (Descriptor.spares_ensure _ _).onWorld.onSession.bind fun _ _ _ _ =>
      (Descriptor.spares_packageIn? _).onWorld.onSession

theorem spares_extract
    (extract : Spares wd keep ∅ (p.contentTool.extract a.path (p.contentIn work))) :
    Spares wd keep edited (p.extract a (p.contentIn work)) := by
  refine (spares_needsExtraction _ _ _).onWorld.onSession.bind fun _ _ _ _ => ?_
  split
  · exact (spares_enter _).bind fun _ _ _ _ =>
      extract.widen.onSession.bind fun _ _ _ _ => (spares_requireOutput _ _).onWorld.onSession
  · exact spares_pure _

theorem spares_rebuild
    (build : Spares wd keep ∅ (p.contentTool.build (p.contentIn work) (a.rebuiltIn work))) :
    Spares wd keep edited (p.rebuild a (p.contentIn work) work) :=
  (spares_enter _).bind fun _ _ _ _ =>
    (spares_createDirAll _).adaptExcept.onWorld.onSession.bind fun _ _ _ _ =>
      build.widen.onSession.bind fun _ _ _ _ =>
        (spares_requireOutput _ _).onWorld.onSession.bind fun _ _ _ _ => spares_pure _

theorem spares_load {rebuilt : Path} (load : Spares wd keep ∅ (p.backend.load rebuilt work)) :
    Spares wd keep edited (p.load rebuilt work) :=
  (spares_enter _).bind fun _ _ _ _ => load.widen.registry.onSession

theorem spares_inject {supply : Nat → BitVec 128} {ns : Option String} {r : Registry}
    {rebuilt : Path}
    (write : ∀ registry, Spares wd keep ∅ (p.backend.write registry rebuilt work)) :
    Spares wd keep edited (p.inject supply ns r rebuilt work) := by
  refine (spares_enter _).bind fun _ _ _ _ => ?_
  split
  · exact spares_throw _
  · exact (write _).widen.onSession.bind fun _ _ _ _ =>
      (spares_requireOutput _ _).onWorld.onSession.bind fun _ _ _ _ => spares_pure _

theorem spares_sign {archive : Path} (sign : Spares wd keep ∅ (p.signer.sign archive)) :
    Spares wd keep edited (p.sign archive) :=
  (spares_enter _).bind fun _ _ _ _ =>
    sign.widen.onSession.bind fun _ _ _ _ =>
      (spares_requireOutput _ _).onWorld.onSession.bind fun _ _ _ _ => spares_pure _

theorem rebuild_eq_ok {content rebuilt : Path} {s s' : Session σ}
    (done : p.rebuild a content work s = .ok rebuilt s') : rebuilt = a.rebuiltIn work := by
  obtain ⟨_, _, -, rest⟩ := bind_eq_ok_iff.mp done
  obtain ⟨_, _, -, rest⟩ := bind_eq_ok_iff.mp rest
  obtain ⟨_, _, -, rest⟩ := bind_eq_ok_iff.mp rest
  obtain ⟨_, _, -, rest⟩ := bind_eq_ok_iff.mp rest
  cases rest
  rfl

theorem inject_eq_ok {supply : Nat → BitVec 128} {ns : Option String} {r : Registry}
    {rebuilt : Path} {x : Path × List ProbeRecord × InjectionReport} {s s' : Session σ}
    (done : p.inject supply ns r rebuilt work s = .ok x s') :
    ∃ registry, instrument p.settings supply ns r = .ok (registry, x.2) ∧
      p.backend.write registry rebuilt work s.world = .ok x.1 s'.world := by
  obtain ⟨_, mid, entered, rest⟩ := bind_eq_ok_iff.mp done
  cases entered
  generalize instrument p.settings supply ns r = injected at rest ⊢
  cases injected with
  | error e => cases rest
  | ok y =>
    obtain ⟨archive, _, lifted, rest⟩ := bind_eq_ok_iff.mp rest
    obtain ⟨w', written, rfl⟩ := onSession_eq_ok_iff.mp lifted
    obtain ⟨_, _, required, rest⟩ := bind_eq_ok_iff.mp rest
    obtain ⟨h, there, rfl⟩ := lift_eq_ok_iff.mp required
    obtain rfl := (requireOutput_eq_ok there).2
    cases rest
    exact ⟨_, rfl, written⟩

/-- The stages that make a signed archive spare what their collaborators spare. -/
theorem spares_prepare {supply : Nat → BitVec 128} {ns : Option String}
    (build : Spares wd keep ∅ (p.contentTool.build (p.contentIn work) (a.rebuiltIn work)))
    (load : Spares wd keep ∅ (p.backend.load (a.rebuiltIn work) work))
    (write : ∀ registry, Spares wd keep ∅ (p.backend.write registry (a.rebuiltIn work) work))
    (sign : ∀ registry w archive w',
      p.backend.write registry (a.rebuiltIn work) work w = .ok archive w' →
        Spares wd keep ∅ (p.signer.sign archive)) :
    Spares wd keep edited (p.prepare supply a work ns) := by
  refine (spares_rebuild build).bind fun _ rebuilt _ built => ?_
  obtain rfl := rebuild_eq_ok built
  refine (spares_load load).bind fun _ registry _ _ => ?_
  refine (spares_inject write).bind fun _ injected _ done => ?_
  obtain ⟨r, -, written⟩ := inject_eq_ok done
  exact (spares_sign (sign r _ _ _ written)).bind fun _ _ _ _ => spares_pure _

/-- Everything before the last stage spares what the collaborators spare, apart from the descriptor
of the content. -/
theorem CollaboratorsSpare.spares_produce (spare : p.CollaboratorsSpare a work wd keep)
    (supply : Nat → BitVec 128) :
    Spares wd keep {(Descriptor.pathIn (p.contentIn work)).place wd} (p.produce supply a work) :=
  (spares_extract spare.extract).bind fun _ _ _ _ => (spares_patch _).bind fun _ _ _ _ =>
    spares_prepare spare.build spare.load spare.write spare.sign

/-! ### The last stage -/

variable {outDir signed : Path} {records : List ProbeRecord}

/-- Placing spares everything but the places of the archive and of the manifest. -/
theorem spares_place {s : InstrumentationSettings}
    (archive : (Path.join outDir a.instrumentedName).place wd ∉ keep)
    (manifest : (Path.join outDir (a.fileName ++ s.manifestSuffix)).place wd ∉ keep) :
    Spares wd keep edited (place s a records signed outDir) := by
  intro h sound here
  change h.workingDir = wd at here
  subst here
  cases done : place s a records signed outDir h with
  | ok published h' =>
    rw [left_of_ok done]
    refine (edits_of_place_eq_ok sound done).spared_of_apart sound ?_
    intro l kept member
    rw [Set.mem_insert_iff, Set.mem_singleton_iff] at member
    obtain same | same := member
    · exact archive (same ▸ kept)
    · exact manifest (same ▸ kept)
  | error e h' =>
    rw [left_of_error done]
    refine (place_eq_error sound done).1.spared_of_apart sound ?_
    intro l kept member
    exact manifest (Set.mem_singleton_iff.mp member ▸ kept)

theorem spares_publish {x : Path × List ProbeRecord × InjectionReport}
    (archive : (Path.join outDir a.instrumentedName).place wd ∉ keep)
    (manifest : (Path.join outDir (a.fileName ++ p.settings.manifestSuffix)).place wd ∉ keep) :
    Spares wd keep edited (p.publish a outDir x) :=
  (spares_enter _).bind fun _ _ _ _ =>
    (spares_place archive manifest).onWorld.onSession.bind fun _ _ _ _ =>
      (spares_enter _).bind fun _ _ _ _ => spares_get.bind fun _ _ _ _ => spares_pure _

end Pipeline

end Tracepoint
