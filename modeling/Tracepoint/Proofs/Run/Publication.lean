import Tracepoint.Proofs.Manifest
import Tracepoint.Proofs.Run.Failure

/-!
# What a run publishes

A run that is done has published the signed archive under the name for it, with a manifest that
reads back as the records of the run, and has left its input as it was (`Pipeline.run_eq_ok`).
The archive is moved into its place after the manifest was, so that it takes the place of a
manifest of its own name: one name and one suffix make the two the same
(`Pipeline.exists_overwritten_manifest`).
-/

namespace Tracepoint

open Host FileTree
open Hosted (host)

/-- An artifact whose path leads to a file of its name. -/
structure Artifact.Named (a : Artifact) (workingDir : Location) : Prop where
  name : Path.IsName a.fileName
  place : ∃ dir, a.path.place workingDir = dir ++ [a.fileName]

/-- An artifact that was opened leads to a file of its name. -/
theorem Artifact.named_of_openAt {p : Path} {h h' : Host} {a : Artifact} (sound : h.Sound)
    (clean : ∀ s ∈ h.workingDir, Path.IsName s) (opened : openAt p h = .ok a h') :
    a.Named h.workingDir := by
  obtain ⟨_, _, got, rest⟩ := bind_eq_ok_iff.mp opened
  cases got
  split at rest
  · rename_i file
    obtain ⟨path, h₁, asked, named⟩ := bind_eq_ok_iff.mp rest
    obtain ⟨canonical, rfl⟩ := within_ask_eq_ok_iff.mp asked
    obtain ⟨l, leads, there⟩ := FileAction.isFile_iff.mp file
    obtain ⟨content, holds⟩ := Option.isSome_iff_exists.mp there
    obtain rfl := place_of_resolve leads
    have answer : h₁.canonical p = .ok (pathOf (p.place h₁.workingDir)) := by
      rw [Host.canonical, leads]
      exact if_pos (isSome_get?_iff.mpr (.inr there))
    obtain rfl := Except.ok.inj (canonical.symm.trans answer)
    obtain ⟨dir, s, place⟩ := (List.eq_nil_or_concat' (p.place h₁.workingDir)).resolve_left
      fun root => not_isDir_of_content? holds (root ▸ sound.isDir_root)
    have names := Path.isName_of_mem_place (p := p) clean
    rw [place] at named names
    have name : Path.IsName s := names s (by simp)
    have above : ∀ n ∈ dir, Path.IsName n := fun n member => names n (by simp [member])
    rw [pathOf_append above name, Path.fileName?_join name] at named
    cases named
    exact ⟨name, dir, by rw [Path.place_join name, place_pathOf above]⟩
  · cases rest

/-- Usable settings give manifests a name of their own. -/
theorem Settings.manifestSuffix_ne_of_validate {s : Settings} (valid : s.validate = .ok ()) :
    s.instrumentation.manifestSuffix ≠ "" := by
  intro empty
  have isEmpty : s.instrumentation.manifestSuffix.isEmpty = true := by simp [empty]
  rw [validate, fault?] at valid
  grind

/-- A file that holds the text of a document is read as that document. -/
theorem ManifestDocument.ofFile_of_read {d : ManifestDocument} {p : Path} {h : Host}
    (read : h.read p = .ok d.text.toUTF8) : ofFile p h = .ok d h := by
  have text := FileAction.readText_of_read read
  refine bind_eq_ok_iff.mpr ⟨d.text, h, within_ask_eq_ok_iff.mpr ⟨text, rfl⟩, ?_⟩
  rw [ofText_text]
  rfl

namespace Pipeline

variable {σ : Type} {p : Pipeline σ} {supply : Nat → BitVec 128} {a : Artifact}
  {outDir work signed : Path} {records : List ProbeRecord} {report : InjectionReport}
  {s s' : Session σ} {o : Outcome} {w : World σ}

theorem sign_eq_ok {archive : Path} (done : p.sign archive s = .ok signed s') :
    s'.world.host.has signed := by
  obtain ⟨_, _, -, rest⟩ := bind_eq_ok_iff.mp done
  obtain ⟨_, _, -, rest⟩ := bind_eq_ok_iff.mp rest
  obtain ⟨_, _, checked, rest⟩ := bind_eq_ok_iff.mp rest
  obtain ⟨h, required, rfl⟩ := lift_eq_ok_iff.mp checked
  cases rest
  obtain ⟨has, rfl⟩ := requireOutput_eq_ok required
  exact has

/-- What was produced is there. -/
theorem produce_eq_ok (done : p.produce supply a work s = .ok (signed, records, report) s') :
    s'.world.host.has signed := by
  obtain ⟨_, _, -, rest⟩ := bind_eq_ok_iff.mp done
  obtain ⟨_, _, -, rest⟩ := bind_eq_ok_iff.mp rest
  obtain ⟨_, _, -, rest⟩ := bind_eq_ok_iff.mp rest
  obtain ⟨_, _, -, rest⟩ := bind_eq_ok_iff.mp rest
  obtain ⟨_, _, -, rest⟩ := bind_eq_ok_iff.mp rest
  obtain ⟨_, _, signedDone, rest⟩ := bind_eq_ok_iff.mp rest
  cases rest
  exact sign_eq_ok signedDone

/-- What a run of an artifact publishes that signed an archive and made some records, and what it
leaves. The hosts are those before the run, when the archive was signed, and after the run. -/
structure Publishes (p : Pipeline σ) (a : Artifact) (outDir signed : Path)
    (records : List ProbeRecord) (o : Outcome) (h mid h' : Host) : Prop where
  archive : o.apk = Path.join outDir a.instrumentedName ∧
    ∃ content, mid.read signed = .ok content ∧ h'.read o.apk = .ok content
  /-- The input is as it was, if it is not the descriptor of kept content. -/
  input : h'.files.content? (a.path.place h.workingDir) =
      h.files.content? (a.path.place h.workingDir) ∨
    ∃ dir ∈ p.contentDir, a.path.place h.workingDir = (Descriptor.pathIn dir).place h.workingDir
  probes : o.probes = records.length
  /-- A manifest reads back, unless the archive has its name. -/
  manifest : ∀ m, o.manifest = some m →
    ManifestDocument.ofFile m h' =
        .ok ⟨a.fileName, records.map fun r => (r.id.render, r.location)⟩ h' ∨
      m = o.apk ∧ (Path.splitName a.fileName).2 = none ∧ p.settings.manifestSuffix = Archive.marker
  /-- There is no manifest only if it may be missing and could not be written. -/
  unwritten : o.manifest = none → p.settings.strictManifest = false ∧ ∃ staged h₁ e h₂,
    staging signed outDir mid = .ok staged h₁ ∧
      (Manifest.mk a.fileName records).writeTo outDir p.settings.manifestSuffix h₁ = .error e h₂

/-- What is published under a name that is not a temporary one is still there without the work
directory. -/
theorem read_discarded {start h : Host} {name : String} {content : ByteArray}
    (isName : Path.IsName name) (lasting : ∀ n, name ≠ FileAction.tempName n)
    (here : h.workingDir = start.workingDir)
    (avoids : outDir.Avoids start.workingDir
      ((FileAction.nextTemp start start.tempDir).place start.workingDir))
    (read : h.read (Path.join outDir name) = .ok content) :
    (left (FileAction.removeDirAll (FileAction.nextTemp start start.tempDir)) h).read
      (Path.join outDir name) = .ok content := by
  refine FileAction.read_left_removeDirAll ?_ read
  rw [here]
  refine avoids.join isName fun same => ?_
  rw [FileAction.nextTemp, Path.place_join (FileAction.isName_freeName _ _)] at same
  have temporary : FileAction.freeName start.files _ = name :=
    List.singleton_inj.mp (List.append_inj' same rfl).2
  exact lasting _ temporary.symm

/-- Publishing does not touch the input: neither the archive nor the manifest has its name. -/
theorem place_not_mem_published (outDir : Path) {wd : Location} {suffix : String}
    (named : a.Named wd) (suffixed : Path.IsName (a.fileName ++ suffix)) (nonempty : suffix ≠ "") :
    a.path.place wd ∉ ({(Path.join outDir a.instrumentedName).place wd,
      (Path.join outDir (a.fileName ++ suffix)).place wd} : Set Location) := by
  obtain ⟨dir, place⟩ := named.place
  have marked : Path.IsName a.instrumentedName := Archive.isName_instrumentedName named.name
  rw [place, Path.place_join marked, Path.place_join suffixed]
  rintro (same | same)
  · have names := List.singleton_inj.mp (List.append_inj' same rfl).2
    exact Archive.instrumentedName_ne a.fileName names.symm
  · have names := List.singleton_inj.mp (List.append_inj' same rfl).2
    exact nonempty (String.append_eq_left_iff.mp names.symm)

/-- **A run that is done has published what it made**: the archive that was signed, under the name
for it, and a manifest that reads back as the records, unless the archive has taken its place. A
manifest is missing only if that is allowed and it could not be written. The input is as it was. -/
theorem run_eq_ok {settings : Settings} (sound : w.host.Sound) (valid : settings.validate = .ok ())
    (same : p.settings = settings.instrumentation)
    (separate : '/' ∉ p.settings.manifestSuffix.toList) (named : a.Named w.host.workingDir)
    (lasting : ∀ n, a.fileName ++ p.settings.manifestSuffix ≠ FileAction.tempName n)
    (spare : p.CollaboratorsSpare a (FileAction.nextTemp w.host w.host.tempDir) w.host.workingDir
      {a.path.place w.host.workingDir})
    (avoids : outDir.Avoids w.host.workingDir
      ((FileAction.nextTemp w.host w.host.tempDir).place w.host.workingDir))
    (done : p.run supply a outDir w = .ok o s) :
    ∃ work h mid signed records report, FileAction.makeTempDir w.host = .ok work h ∧
      p.produce supply a work ⟨{ w with host := h }, []⟩ = .ok (signed, records, report) mid ∧
      p.Publishes a outDir signed records o w.host mid.world.host s.world.host := by
  rw [run_eq] at done
  split at done
  · cases done
  rename_i work h made
  obtain ⟨last, worked, rfl⟩ := onState_eq_ok_iff.mp done
  rw [steps_eq] at worked
  obtain ⟨⟨signed, records, report⟩, mid, produced, published⟩ := bind_eq_ok_iff.mp worked
  obtain ⟨apk, manifest, h', placed, rfl, rfl⟩ := publish_eq_ok published
  refine ⟨work, h, mid, signed, records, report, made, produced, ?_⟩
  rw [discard]
  dsimp only
  obtain ⟨rfl, edits⟩ := FileAction.makeTempDir_eq_ok sound made
  set l := a.path.place w.host.workingDir with atInput
  have spared := spare.spares_produce supply ⟨{ w with host := h }, []⟩ (edits.sound sound)
    edits.workingDir
  rw [left_of_ok produced] at spared
  change h.Spared _ _ mid.world.host at spared
  have here : mid.world.host.workingDir = w.host.workingDir :=
    spared.workingDir.trans edits.workingDir
  have nonempty := same ▸ Settings.manifestSuffix_ne_of_validate valid
  have suffixed := Archive.isName_append named.name nonempty separate
  have has := produce_eq_ok produced
  have placed := place_eq_ok spared.sound has named.name suffixed lasting placed
  have here' : h'.workingDir = w.host.workingDir := placed.edits.workingDir.trans here
  have marked : Path.IsName a.instrumentedName := Archive.isName_instrumentedName named.name
  have apart : ∀ n, a.instrumentedName ≠ FileAction.tempName n :=
    Archive.instrumentedName_ne_tempName a.fileName
  constructor
  case archive =>
    obtain ⟨content, source, target⟩ := placed.archive
    obtain rfl := placed.path
    dsimp only
    exact ⟨rfl, content, source, read_discarded marked apart here' avoids target⟩
  case input =>
    have before : h.files.content? l = w.host.files.content? l := edits.content l (by simp)
    have outside := place_not_mem_published outDir named suffixed nonempty
    rcases FileAction.content?_left_removeDirAll_nextTemp sound here' w.host.tempDir l
      with same | restored
    · rw [same, placed.edits.content l (by rwa [here]), ← before]
      rcases spared.content l rfl with kept | ⟨descriptor, there⟩
      · exact .inl kept
      · exact .inr (exists_contentDir sound (before ▸ there) descriptor)
    · exact .inl restored
  case probes => rfl
  case manifest =>
    intro m published
    obtain ⟨rfl, written⟩ := placed.written m published
    by_cases apart : a.fileName ++ p.settings.manifestSuffix = a.instrumentedName
    · obtain ⟨bare, marker⟩ := Archive.append_eq_instrumentedName_iff.mp apart
      exact .inr ⟨by rw [Manifest.pathIn, apart, ← placed.path], bare, marker⟩
    · have read := read_discarded suffixed lasting here' avoids (written apart)
      left
      exact ManifestDocument.ofFile_of_read (d := Manifest.document ⟨a.fileName, records⟩) read
  case unwritten => exact placed.unwritten

/-! ### Samples -/

end Pipeline

/-- Settings with a suffix for manifests. -/
def Settings.ofSuffix (suffix : String) : Settings :=
  { instrumentation := { manifestSuffix := suffix } }

theorem Settings.validate_ofSuffix {suffix : String} (nonempty : suffix ≠ "") :
    (ofSuffix suffix).validate = .ok () := by
  have owner : Text.isAllBlank Hook.defaultOwner = false := by decide +kernel
  have method : Text.isAllBlank Hook.defaultMethod = false := by decide +kernel
  have channel : Hook.defaultChannel.isEmpty = false := by decide +kernel
  have excluded : "" ∉ Policy.defaultExcluded := by decide +kernel
  simp [validate, fault?, ofSuffix, nonempty, owner, method, channel, excluded]

namespace Pipeline

theorem ne_tempName_of_head? {name : String} (head : name.toList.head? ≠ some '.') (n : Nat) :
    name ≠ FileAction.tempName n := by
  rintro rfl
  rw [FileAction.toList_tempName] at head
  exact head rfl

theorem avoids_nextTemp (h : Host) :
    Path.Avoids [] "/out" ((FileAction.nextTemp h "/tmp").place []) := by
  have tmp : Path.place [] "/tmp" = ["tmp"] := by decide
  have out : Path.segments "/out" = ["", "out"] := by decide
  intro n below
  rw [FileAction.nextTemp, Path.place_join (FileAction.isName_freeName _ _), tmp, out] at below
  rcases n with _ | _ | n <;> simp [Path.follow, Path.next] at below

/-- The sample pipeline with a suffix for manifests. -/
def suffixed (suffix : String) : Pipeline Unit :=
  { sample .lax with settings := (Settings.ofSuffix suffix).instrumentation }

theorem collaboratorsSpare_suffixed (suffix : String) (h : Host) {a : Artifact}
    (named : Path.IsName a.fileName) {l : Location} (apart : ¬ ["tmp"] <+: l) :
    (suffixed suffix).CollaboratorsSpare a (FileAction.nextTemp h "/tmp") [] {l} := by
  have outside : ∀ k ∈ ({l} : Set Location), ¬ ["tmp"] <+: k := by simpa using apart
  have spare := collaboratorsSpare_of_apart .lax h named outside fun _ => spares_pure _
  exact ⟨spare.extract, spare.build, spare.load, spare.write, spare.sign⟩

/-- The sample run publishes a manifest that lists its probes. -/
theorem run_eq_ok_sample : ∃ o s m d,
    (suffixed ".json").run (fun _ => 0) .sample "/out" ⟨.sample (.file .empty 3), ()⟩ = .ok o s ∧
    (∃ content, s.world.host.read o.apk = .ok content) ∧ o.manifest = some m ∧
    ManifestDocument.ofFile m s.world.host = .ok d s.world.host ∧
    d.artifact = "app.apk" ∧ d.entries.length = o.probes ∧ 0 < o.probes := by
  have ran : succeeds (fun o _ => o.manifest.isSome && decide (0 < o.probes))
      ((suffixed ".json").run (fun _ => 0) .sample "/out" ⟨.sample (.file .empty 3), ()⟩) := by
    decide +kernel
  obtain ⟨o, s, done, ran⟩ := exists_of_succeeds ran
  have named : Artifact.sample.Named [] := ⟨by constructor <;> decide, [], by decide⟩
  have spare := collaboratorsSpare_suffixed ".json" (.sample (.file .empty 3)) named.name
    (l := ["app.apk"]) (by simp)
  have avoids := avoids_nextTemp (.sample (.file .empty 3))
  obtain ⟨_, _, mid, signed, records, _, -, -, published⟩ := run_eq_ok (p := suffixed ".json")
    (a := .sample) (w := ⟨.sample (.file .empty 3), ()⟩) (sound_sample _)
    (Settings.validate_ofSuffix (by decide)) rfl (by decide) named
    (ne_tempName_of_head? (by decide)) spare avoids done
  rw [Bool.and_eq_true, decide_eq_true_eq] at ran
  obtain ⟨m, made⟩ := Option.isSome_iff_exists.mp ran.1
  obtain ⟨-, content, -, read⟩ := published.archive
  rcases published.manifest m made with back | ⟨-, -, marker⟩
  · refine ⟨o, s, m, _, done, ⟨content, read⟩, made, back, rfl, ?_, ran.2⟩
    rw [published.probes, List.length_map]
  · exact absurd marker (by decide)

end Pipeline

/-- An archive without an extension. -/
def Artifact.bare : Artifact :=
  ⟨"/app", "app"⟩

/-- A host with an archive without an extension. -/
def Host.bare : Host :=
  (Host.sample (.file .empty 3)).put ["app"] (.file .empty 1)

namespace Pipeline

theorem sound_bare : Host.bare.Sound := by
  have sound := sound_sample (.file .empty 3)
  refine (edits_put sound.rooted ?_ ?_).sound sound
  · intro m s here
    have root : [] ++ ["app"] = m ++ [s] := here
    obtain rfl := (List.append_inj' root rfl).1
    exact sound.isDir_root
  · rintro ⟨time, there⟩
    cases there

/-- **One suffix makes an archive take the place of its manifest**: that of an archive without an
extension, if the suffix is the marker of instrumented archives. -/
theorem exists_overwritten_manifest : ¬ ∀ (p : Pipeline Unit) (supply : Nat → BitVec 128)
    (a : Artifact) (settings : Settings) (outDir : Path) (w : World Unit) (o : Outcome)
    (s : Session Unit), w.host.Sound → settings.validate = .ok () →
    p.settings = settings.instrumentation → '/' ∉ p.settings.manifestSuffix.toList →
    a.Named w.host.workingDir → w.host.isFile a.path →
    (∀ n, a.fileName ++ p.settings.manifestSuffix ≠ FileAction.tempName n) →
    p.CollaboratorsSpare a (FileAction.nextTemp w.host w.host.tempDir) w.host.workingDir
      {a.path.place w.host.workingDir} →
    outDir.Avoids w.host.workingDir
      ((FileAction.nextTemp w.host w.host.tempDir).place w.host.workingDir) →
    p.run supply a outDir w = .ok o s → ∀ m, o.manifest = some m →
      ∃ d, ManifestDocument.ofFile m s.world.host = .ok d s.world.host ∧
        d.artifact = a.fileName ∧ d.entries.length = o.probes := by
  intro readable
  have ran : succeeds (fun o s => o.manifest.any fun m =>
        !succeeds (fun _ _ => true) (ManifestDocument.ofFile m s.world.host))
      ((suffixed Archive.marker).run (fun _ => 0) .bare "/out" ⟨.bare, ()⟩) := by
    decide +kernel
  obtain ⟨o, s, done, ran⟩ := exists_of_succeeds ran
  have named : Artifact.bare.Named [] := ⟨by constructor <;> decide, [], by decide⟩
  have spare := collaboratorsSpare_suffixed Archive.marker .bare named.name
    (l := ["app"]) (by simp)
  cases made : o.manifest with
  | none =>
    rw [made] at ran
    cases ran
  | some m =>
    obtain ⟨d, back, -⟩ := readable (suffixed Archive.marker) (fun _ => 0) .bare
      (.ofSuffix Archive.marker) "/out" ⟨.bare, ()⟩ o s sound_bare
      (Settings.validate_ofSuffix (by decide)) rfl (by decide) named (by decide)
      (ne_tempName_of_head? (by decide)) spare (avoids_nextTemp .bare) done m made
    rw [made, Option.any_some, back] at ran
    cases ran

end Pipeline

end Tracepoint
