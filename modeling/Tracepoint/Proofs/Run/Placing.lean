import Tracepoint.Proofs.Archive
import Tracepoint.Proofs.Files.Actions
import Tracepoint.Proofs.Run.Work

/-!
# Placing

The last stage stages the archive in the output directory, replaces the manifest, and moves
the archive into its place. A failure removes what was staged, so that one place at most
differs afterwards: where the manifest stands (`Pipeline.place_eq_error`). It differs when the
last move is what failed, after the manifest was replaced; it is then free, whatever stood
there before. When all goes well the archive and the manifest stand side by side
(`Pipeline.place_eq_ok`), if their names are told apart: the archive is moved last.
-/

namespace Tracepoint

open Host FileTree FileAction

namespace Pipeline

variable {s : InstrumentationSettings} {m : Manifest} {dir : Path} {h h' : Host} {e : Fault}

/-! ### The manifest -/

theorem publishManifest_eq_some (sound : h.Sound) {p : Path}
    (done : publishManifest s m dir h = .ok (some p) h') :
    p = m.pathIn dir s.manifestSuffix ∧ ∃ l, h'.resolve p = .ok l ∧ h.Edits {l} h' ∧
      h'.files.content? l = some m.document.text.toUTF8 := by
  rw [publishManifest] at done
  split at done
  · rename_i p' mid written
    cases done
    obtain ⟨_, mid', replaced, rest⟩ := bind_eq_ok_iff.mp written
    cases rest
    exact ⟨rfl, replaceFile_eq_ok sound (adaptExcept_eq_ok_iff.mp replaced)⟩
  · split at done <;> cases done

theorem writeTo_eq_error (sound : h.Sound) {suffix : String}
    (failed : m.writeTo dir suffix h = .error e h') : h.Edits ∅ h' := by
  rcases bind_eq_error_iff.mp failed with refused | ⟨_, mid, replaced, rest⟩
  · obtain ⟨cause, refused, -⟩ := adaptExcept_eq_error_iff.mp refused
    exact replaceFile_eq_error sound refused
  · cases rest

theorem publishManifest_eq_none (sound : h.Sound)
    (done : publishManifest s m dir h = .ok none h') :
    h.Edits ∅ h' ∧ s.strictManifest = false ∧
      ∃ e, m.writeTo dir s.manifestSuffix h = .error e h' := by
  rw [publishManifest] at done
  split at done
  · cases done
  · rename_i e mid refused
    split at done
    · cases done
    · rename_i lenient
      cases done
      exact ⟨writeTo_eq_error sound refused, by simpa using lenient, e, refused⟩

theorem publishManifest_eq_error (sound : h.Sound)
    (failed : publishManifest s m dir h = .error e h') : h.Edits ∅ h' := by
  rw [publishManifest] at failed
  split at failed
  · cases failed
  · rename_i refused
    split at failed
    · cases failed
      exact writeTo_eq_error sound refused
    · cases failed

/-! ### The archive -/

theorem publishArchive_eq_error {staged apk : Path} {manifest : Option Path}
    (failed : publishArchive staged apk manifest h = .error e h') :
    (∃ cause, e = .file ("failed to place " ++ apk) cause) ∧
      h' = manifest.elim h fun p => left (removeFile p) h := by
  rw [publishArchive] at failed
  split at failed
  · cases failed
  · rename_i e' mid refused
    obtain ⟨cause, unmoved, rfl⟩ := adaptExcept_eq_error_iff.mp refused
    obtain rfl := moveFile_eq_error unmoved
    cases manifest with
    | none =>
      cases failed
      exact ⟨⟨cause, rfl⟩, rfl⟩
    | some p =>
      dsimp only at failed
      split at failed <;> rename_i removed <;> cases failed
      · exact ⟨⟨cause, rfl⟩, (left_of_ok removed).symm⟩
      · exact ⟨⟨cause, rfl⟩, (left_of_error removed).symm⟩

theorem publishArchive_eq_ok {staged apk : Path} {manifest : Option Path}
    (done : publishArchive staged apk manifest h = .ok () h') :
    moveFile staged apk h = .ok () h' := by
  rw [publishArchive] at done
  split at done
  · rename_i moved
    cases done
    exact adaptExcept_eq_ok_iff.mp moved
  · split at done
    · cases done
    · split at done <;> cases done

/-- The fault of the last move. -/
def IsMisplacement (apk : Path) (e : Fault) : Prop :=
  ∃ cause, e = .file ("failed to place " ++ apk) cause

/-- What a failure to publish may do to the place of the manifest: nothing, or clear it when the
last move is what failed. -/
def KeepsOrMisplaces (apk : Path) (manifest : Location) (e : Fault) (h h' : Host) : Prop :=
  h.Edits {manifest} h' ∧
    (h'.files.content? manifest = h.files.content? manifest ∨
      h'.files.content? manifest = none ∧ IsMisplacement apk e)

theorem KeepsOrMisplaces.of_edits {apk : Path} {manifest : Location} (edits : h.Edits ∅ h') :
    KeepsOrMisplaces apk manifest e h h' :=
  ⟨edits.narrow (by simp), .inl (edits.content manifest (by simp))⟩

/-- Publishing that fails changes nothing, or clears the place of the manifest. -/
theorem publish_eq_error {staged apk : Path} (sound : h.Sound)
    (failed : (do
      let manifest ← publishManifest s m dir
      publishArchive staged apk manifest
      return (apk, manifest) : FileWork (Path × Option Path)) h = .error e h') :
    KeepsOrMisplaces apk ((m.pathIn dir s.manifestSuffix).place h.workingDir) e h h' := by
  rcases bind_eq_error_iff.mp failed with refused | ⟨manifest, mid, published, rest⟩
  · exact .of_edits (publishManifest_eq_error sound refused)
  · rcases bind_eq_error_iff.mp rest with refused | ⟨_, _, _, rest⟩
    · obtain ⟨misplaced, rfl⟩ := publishArchive_eq_error refused
      cases manifest with
      | none => exact .of_edits (publishManifest_eq_none sound published).1
      | some p =>
        obtain ⟨rfl, l, leads, edits, -⟩ := publishManifest_eq_some sound published
        obtain ⟨removed, gone⟩ := left_removeFile (edits.sound sound) leads
        have here := place_of_resolve leads
        rw [edits.workingDir] at here
        rw [here]
        exact ⟨(edits.trans removed).narrow (by simp), .inr ⟨gone, misplaced⟩⟩
    · cases rest

/-- **Placing that fails** changes no file but the one at the place of the manifest, which is gone
if the last move is what failed. -/
theorem place_eq_error {a : Artifact} {records : List ProbeRecord} {signed : Path}
    (sound : h.Sound) (failed : place s a records signed dir h = .error e h') :
    KeepsOrMisplaces (Path.join dir a.instrumentedName)
      ((Path.join dir (a.fileName ++ s.manifestSuffix)).place h.workingDir) e h h' := by
  rcases bind_eq_error_iff.mp failed with refused | ⟨_, h₁, made, rest⟩
  · obtain ⟨cause, refused, -⟩ := adaptExcept_eq_error_iff.mp refused
    exact .of_edits (left_of_error refused ▸ edits_left_createDirAll sound dir)
  have edits₁ : h.Edits ∅ h₁ :=
    left_of_ok (adaptExcept_eq_ok_iff.mp made) ▸ edits_left_createDirAll sound dir
  have sound₁ := edits₁.sound sound
  rcases bind_eq_error_iff.mp rest with refused | ⟨staged, h₂, copied, work⟩
  · obtain ⟨cause, refused, -⟩ := adaptExcept_eq_error_iff.mp refused
    exact .of_edits ((edits₁.trans (stageCopy_eq_error sound₁ refused)).narrow (by simp))
  obtain ⟨-, l, -, free, edits₂, leads, -⟩ :=
    stageCopy_eq_ok sound₁ (adaptExcept_eq_ok_iff.mp copied)
  have sound₂ := edits₂.sound sound₁
  obtain ⟨h₃, refused, rfl⟩ := orRemove_eq_error_iff.mp work
  obtain ⟨edits₃, manifest⟩ := publish_eq_error sound₂ refused
  have workingDir : h₂.workingDir = h.workingDir := edits₂.workingDir.trans edits₁.workingDir
  rw [Manifest.pathIn, workingDir] at edits₃ manifest
  obtain ⟨removed, gone⟩ := left_removeFile (edits₃.sound sound₂) (edits₃.resolve leads)
  have edits := ((edits₁.trans edits₂).trans edits₃).trans removed
  -- What was staged is gone, and nothing was there before.
  have restored : (left (removeFile staged) h₃).files.content? l = h.files.content? l := by
    rw [gone, ← free, edits₁.content l (by simp)]
  refine ⟨edits.narrow ?_, ?_⟩
  · intro k member outside
    obtain rfl : k = l := by simp_all
    exact restored
  · by_cases same : (Path.join dir (a.fileName ++ s.manifestSuffix)).place h.workingDir = l
    · rw [same]
      exact .inl restored
    · rw [removed.content _ (by simpa using same)]
      refine manifest.imp_left fun kept => ?_
      exact (kept.trans (edits₂.content _ (by simpa using same))).trans
        (edits₁.content _ (by simp))

/-! ### What is placed -/

/-- What placing starts with: a copy of the archive in the directory. -/
def staging (signed dir : Path) : FileAction Path := do
  createDirAll dir
  stageCopy signed dir

/-- What placing leaves when it is done: an archive at a path and perhaps a manifest at another, and
no other file that was not there before. -/
structure Placed (s : InstrumentationSettings) (m : Manifest) (name : String) (signed dir : Path)
    (apk : Path) (manifest : Option Path) (h h' : Host) : Prop where
  edits : h.Edits {(Path.join dir name).place h.workingDir,
    (m.pathIn dir s.manifestSuffix).place h.workingDir} h'
  path : apk = Path.join dir name
  archive : ∃ content, h.read signed = .ok content ∧ h'.read apk = .ok content
  /-- The last move does not disturb a manifest of another name. -/
  written : ∀ p, manifest = some p → p = m.pathIn dir s.manifestSuffix ∧
    (m.artifact ++ s.manifestSuffix ≠ name → h'.read p = .ok m.document.text.toUTF8)
  /-- There is no manifest only if it may be missing and could not be written. -/
  unwritten : manifest = none → s.strictManifest = false ∧ ∃ staged mid e h₁,
    staging signed dir h = .ok staged mid ∧ m.writeTo dir s.manifestSuffix mid = .error e h₁

/-- The manifest is written to its place, or left out. -/
theorem publishManifest_eq_ok {manifest : Option Path} (sound : h.Sound)
    (done : publishManifest s m dir h = .ok manifest h') :
    h.Edits {(m.pathIn dir s.manifestSuffix).place h.workingDir} h' ∧
      (∀ p, manifest = some p → p = m.pathIn dir s.manifestSuffix ∧
        h'.read p = .ok m.document.text.toUTF8) ∧
      (manifest = none → s.strictManifest = false ∧
        ∃ e, m.writeTo dir s.manifestSuffix h = .error e h') := by
  cases manifest with
  | none =>
    obtain ⟨edits, lenient, e, failed⟩ := publishManifest_eq_none sound done
    exact ⟨edits.narrow (by simp), by simp, fun _ => ⟨lenient, e, failed⟩⟩
  | some p =>
    obtain ⟨rfl, l, leads, edits, written⟩ := publishManifest_eq_some sound done
    have here := place_of_resolve leads
    rw [edits.workingDir] at here
    rw [here]
    refine ⟨edits, ?_, by simp⟩
    rintro p ⟨⟩
    exact ⟨rfl, read_eq_ok_iff.mpr ⟨l, leads, written⟩⟩

/-- The steps of placing that is done. -/
theorem steps_of_place_eq_ok {a : Artifact} {records : List ProbeRecord} {signed apk : Path}
    {manifest : Option Path} (done : place s a records signed dir h = .ok (apk, manifest) h') :
    apk = Path.join dir a.instrumentedName ∧ ∃ h₁ staged h₂ h₃, createDirAll dir h = .ok () h₁ ∧
      stageCopy signed dir h₁ = .ok staged h₂ ∧
      publishManifest s ⟨a.fileName, records⟩ dir h₂ = .ok manifest h₃ ∧
      moveFile staged apk h₃ = .ok () h' := by
  obtain ⟨_, h₁, made, rest⟩ := bind_eq_ok_iff.mp done
  obtain ⟨staged, h₂, copied, work⟩ := bind_eq_ok_iff.mp rest
  rw [orRemove_eq_ok_iff] at work
  obtain ⟨published, h₃, manifestDone, rest⟩ := bind_eq_ok_iff.mp work
  obtain ⟨_, h₄, archiveDone, rest⟩ := bind_eq_ok_iff.mp rest
  cases rest
  exact ⟨rfl, h₁, staged, h₂, h₃, adaptExcept_eq_ok_iff.mp made, adaptExcept_eq_ok_iff.mp copied,
    manifestDone, publishArchive_eq_ok archiveDone⟩

/-- A file is still a file when the manifest is published, perhaps another one. -/
theorem exists_content_of_publishManifest {l : Location} {content : ByteArray}
    {manifest : Option Path} (sound : h.Sound) (there : h.files.content? l = some content)
    (done : publishManifest s m dir h = .ok manifest h') :
    ∃ content, h'.files.content? l = some content := by
  cases manifest with
  | none =>
    have kept := (publishManifest_eq_none sound done).1.content l (by simp)
    exact ⟨content, kept.trans there⟩
  | some p =>
    obtain ⟨-, k, -, edits, written⟩ := publishManifest_eq_some sound done
    by_cases same : l = k
    · exact ⟨_, same ▸ written⟩
    · exact ⟨content, (edits.content l same).trans there⟩

/-- Placing that is done edits the places of the archive and of the manifest. -/
theorem edits_of_place_eq_ok {a : Artifact} {records : List ProbeRecord} {signed apk : Path}
    {manifest : Option Path} (sound : h.Sound)
    (done : place s a records signed dir h = .ok (apk, manifest) h') :
    h.Edits {(Path.join dir a.instrumentedName).place h.workingDir,
      (Path.join dir (a.fileName ++ s.manifestSuffix)).place h.workingDir} h' := by
  obtain ⟨rfl, h₁, staged, h₂, h₃, made, copied, manifestDone, moved⟩ := steps_of_place_eq_ok done
  have edits₁ : h.Edits ∅ h₁ := left_of_ok made ▸ edits_left_createDirAll sound dir
  have sound₁ := edits₁.sound sound
  obtain ⟨-, l, content, free, edits₂, leads, there, -⟩ := stageCopy_eq_ok sound₁ copied
  have sound₂ := edits₂.sound sound₁
  obtain ⟨edits₃, -⟩ := publishManifest_eq_ok sound₂ manifestDone
  obtain ⟨content, there⟩ := exists_content_of_publishManifest sound₂ there manifestDone
  obtain ⟨k, found, edits₄, -, gone⟩ :=
    moveFile_eq_ok (edits₃.sound sound₂) (edits₃.resolve leads) there moved
  have here : h₂.workingDir = h.workingDir := edits₂.workingDir.trans edits₁.workingDir
  have target := place_of_resolve found
  rw [edits₃.workingDir, here] at target
  rw [here, Manifest.pathIn] at edits₃
  refine (((edits₁.trans edits₂).trans edits₃).trans edits₄).narrow fun j member outside => ?_
  rw [target] at outside
  obtain rfl : j = l := by simp_all
  rw [gone fun same => outside (.inl same), ← edits₁.content j (by simp), free]

/-- **Placing that is done** leaves the signed archive under the name for it, and its manifest
beside it unless that could not be written. -/
theorem place_eq_ok {a : Artifact} {records : List ProbeRecord} {signed apk : Path}
    {manifest : Option Path} (sound : h.Sound) (has : h.has signed)
    (named : Path.IsName a.fileName) (suffixed : Path.IsName (a.fileName ++ s.manifestSuffix))
    (lasting : ∀ n, a.fileName ++ s.manifestSuffix ≠ tempName n)
    (done : place s a records signed dir h = .ok (apk, manifest) h') :
    Placed s ⟨a.fileName, records⟩ a.instrumentedName signed dir apk manifest h h' := by
  obtain ⟨rfl, h₁, staged, h₂, h₃, made, copied, manifestDone, archiveDone⟩ :=
    steps_of_place_eq_ok done
  have edits₁ : h.Edits ∅ h₁ := left_of_ok made ▸ edits_left_createDirAll sound dir
  have sound₁ := edits₁.sound sound
  obtain ⟨temp, l, content, free, edits₂, leads, there, source⟩ := stageCopy_eq_ok sound₁ copied
  have sound₂ := edits₂.sound sound₁
  obtain ⟨edits₃, written, unwritten⟩ := publishManifest_eq_ok sound₂ manifestDone
  -- The three names in the output directory are told apart.
  have here : h₂.workingDir = h.workingDir := edits₂.workingDir.trans edits₁.workingDir
  have named' := Archive.isName_instrumentedName named
  obtain ⟨n, stagedPlace⟩ : ∃ n, l = dir.place h.workingDir ++ [tempName n] := by
    rw [← place_of_resolve leads, here, temp, nextTemp, Path.place_join (isName_freeName _ _)]
    exact ⟨_, rfl⟩
  have manifestPlace : (Manifest.pathIn ⟨a.fileName, records⟩ dir s.manifestSuffix).place
      h.workingDir = dir.place h.workingDir ++ [a.fileName ++ s.manifestSuffix] :=
    Path.place_join suffixed _ _
  have apkPlace : (Path.join dir a.instrumentedName).place h.workingDir =
      dir.place h.workingDir ++ [a.instrumentedName] := Path.place_join named' _ _
  rw [here, manifestPlace] at edits₃
  have kept :
      l ∉ ({dir.place h.workingDir ++ [a.fileName ++ s.manifestSuffix]} : Set Location) := by
    rw [stagedPlace]
    simpa using (lasting n).symm
  have there₃ := (edits₃.content l kept).trans there
  obtain ⟨k, found, edits₄, moved, -⟩ := moveFile_eq_ok (edits₃.sound sound₂)
    (edits₃.resolve leads) there₃ archiveDone
  have target : k = dir.place h.workingDir ++ [a.instrumentedName] := by
    rw [← apkPlace, ← place_of_resolve found, edits₃.workingDir, here]
  constructor
  case edits => exact edits_of_place_eq_ok sound done
  case path => rfl
  case archive =>
    refine ⟨content, ?_, read_eq_ok_iff.mpr ⟨k, edits₄.resolve found, moved⟩⟩
    obtain ⟨m, found, -⟩ := has_iff.mp has
    exact (read_of_edits edits₁ found (by simp)).mp (source (has_of_edits edits₁ has))
  case written =>
    intro p same
    obtain ⟨rfl, read⟩ := written p same
    refine ⟨rfl, fun apart => ?_⟩
    obtain ⟨m, found, -⟩ := read_eq_ok_iff.mp read
    have place : m = dir.place h.workingDir ++ [a.fileName ++ s.manifestSuffix] := by
      rw [← place_of_resolve found, edits₃.workingDir, here]
      exact manifestPlace
    refine (read_of_edits edits₄ found ?_).mpr read
    rw [target, place, stagedPlace]
    have apart : a.fileName ++ s.manifestSuffix ≠ a.instrumentedName := apart
    simpa [apart] using lasting n
  case unwritten =>
    intro missing
    obtain ⟨lenient, e, failed⟩ := unwritten missing
    have stagedDone : staging signed dir h = .ok staged h₂ := (bind_of_ok made).trans copied
    exact ⟨lenient, staged, h₂, e, h₃, stagedDone, failed⟩

end Pipeline

end Tracepoint
