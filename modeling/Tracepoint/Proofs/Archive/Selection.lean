import Tracepoint.Proofs.Archive
import Tracepoint.Proofs.Files.Receiving
import Tracepoint.Proofs.Run.Work
import Tracepoint.Proofs.Text.Order

/-!
# The archive that a directory stands for

A directory stands for the first of the files in it that may be picked (`Artifact.First`), in
whatever order it is listed. What a run publishes there is never picked in its place: the
instrumented archive may not be picked, and the manifest comes after the archive that it is named
after. So the same archive is picked again after any number of runs (`Artifact.First.gains`).
-/

namespace Tracepoint

/-! ### What is picked -/

namespace Artifact

open Host Archive

variable {h h' : Host} {dir : Path} {m n : String}

/-- The first file in a directory that may be picked, in the order of the bytes of the names. -/
structure First (h : Host) (dir : Path) (m : String) : Prop where
  file : m ∈ h.filesIn dir
  pickable : Pickable m
  least : ∀ n ∈ h.filesIn dir, Pickable n → n ≠ m → Text.bytes m < Text.bytes n

theorem First.unique (first : First h dir m) (first' : First h dir n) : m = n := by
  by_contra other
  exact List.lt_asymm (first.least n first'.file first'.pickable (Ne.symm other))
    (first'.least m first.file first.pickable other)

theorem select_eq (there : h.isDir dir) : select dir h =
    match Text.sort ((h.filesIn dir).filter isCandidate) with
    | [] => .error (.badInput (.noArchive dir)) h
    | m :: _ => .ok (Path.join dir m) h := by
  obtain ⟨l, leads, isDir⟩ := FileAction.isDir_iff.mp there
  obtain ⟨names, listed⟩ : ∃ names, h.list dir = .ok names :=
    ⟨_, list_eq_ok_iff.mpr ⟨l, leads, isDir, rfl⟩⟩
  have files : candidates h dir names = (h.filesIn dir).filter isCandidate := by
    rw [candidates, filesIn, listed, List.filter_filter]
    exact List.filter_congr fun n _ => Bool.and_comm _ _
  have asked : ((FileAction.ask (·.list dir)).within ("failed to list " ++ dir)) h =
      .ok names h := within_ask_eq_ok_iff.mpr ⟨listed, rfl⟩
  have got : (get : FileWork Host) h = .ok h h := rfl
  rw [select, bind_of_ok got, if_pos there, bind_of_ok asked, files]
  cases Text.sort ((h.filesIn dir).filter isCandidate) <;> rfl

/-- A directory stands for the first file in it that may be picked, if there is one. -/
theorem select_cases (there : h.isDir dir) :
    (∃ m, First h dir m ∧ select dir h = .ok (Path.join dir m) h) ∨
      (∀ n ∈ h.filesIn dir, ¬ Pickable n) ∧
        select dir h = .error (.badInput (.noArchive dir)) h := by
  rw [select_eq there]
  have members (n : String) : n ∈ (h.filesIn dir).filter isCandidate ↔
      n ∈ h.filesIn dir ∧ Pickable n := by
    rw [List.mem_filter, isCandidate_iff]
  cases sorted : Text.sort ((h.filesIn dir).filter isCandidate) with
  | nil =>
    have none : (h.filesIn dir).filter isCandidate = [] :=
      List.nil_perm.mp (sorted ▸ Text.sort_perm _)
    refine .inr ⟨fun n file pickable => ?_, rfl⟩
    exact List.not_mem_nil (none ▸ (members n).mpr ⟨file, pickable⟩)
  | cons m rest =>
    obtain ⟨member, least⟩ := Text.least_of_sort_eq_cons sorted
    obtain ⟨file, pickable⟩ := (members m).mp member
    exact .inl ⟨m, ⟨file, pickable, fun n file pickable =>
      least n ((members n).mpr ⟨file, pickable⟩)⟩, rfl⟩

theorem First.select_eq_ok (first : First h dir m) : select dir h = .ok (Path.join dir m) h := by
  rcases select_cases (isDir_of_mem_filesIn first.file) with ⟨n, first', picked⟩ | ⟨none, -⟩
  · rw [first.unique first', picked]
  · exact absurd first.pickable (none m first.file)

theorem First.relisted (first : First h dir m) (again : h.Relisted h') : First h' dir m where
  file := again.mem_filesIn first.file
  pickable := first.pickable
  least n file := first.least n (again.symm.mem_filesIn file)

/-! ### What is picked again -/

/-- A name that a run on an archive publishes under: the instrumented archive, or a manifest under
the name of the archive with some suffix. -/
def IsOutput (m n : String) : Prop :=
  n = Archive.instrumentedName m ∨ ∃ suffix, suffix ≠ "" ∧ n = m ++ suffix

/-- A directory has kept its files and gained nothing but outputs of an archive. -/
structure Gains (dir : Path) (m : String) (h h' : Host) : Prop where
  kept : ∀ n ∈ h.filesIn dir, n ∈ h'.filesIn dir
  gained : ∀ n ∈ h'.filesIn dir, n ∈ h.filesIn dir ∨ IsOutput m n

/-- A directory that receives the outputs of an archive gains nothing else. -/
theorem gains_of_receives {l : Location} (outputs : List (String × ByteArray))
    (received : h.Receives ∅ (outputs.map fun o => (l ++ [o.1], o.2)) h')
    (leads : h.resolve dir = .ok l) (names : ∀ n ∈ h.files.names l, Path.IsName n)
    (published : ∀ o ∈ outputs, IsOutput m o.1) : Gains dir m h h' where
  kept _ member := received.mem_filesIn member
  gained n member := by
    refine (received.mem_filesIn_or leads names member).imp_right fun new => ?_
    simp only [List.map_map, List.mem_map, Function.comp_apply, List.append_cancel_left_eq,
      List.cons.injEq, and_true] at new
    obtain ⟨o, output, rfl⟩ := new
    exact published o output

/-- Outputs of the archive that is picked are not picked in its place. -/
theorem First.gains (first : First h dir m) (gains : Gains dir m h h') : First h' dir m where
  file := gains.kept m first.file
  pickable := first.pickable
  least n file pickable other := by
    rcases gains.gained n file with before | rfl | ⟨suffix, occupied, rfl⟩
    · exact first.least n before pickable other
    · exact absurd pickable (not_pickable_instrumentedName m)
    · exact Text.bytes_lt_bytes_append occupied m

/-- **A directory stands for the first archive in it that is not instrumented**, in the order of
the bytes of the names, however it is listed; and for none if there is none. What runs on that
archive add to the directory does not change this, since the name of an instrumented archive is
always one that may not be picked. -/
theorem select_first (there : h.isDir dir) :
    ((∃ m, First h dir m ∧
        (∀ h', h.Relisted h' → select dir h' = .ok (Path.join dir m) h') ∧
        ∀ h', Gains dir m h h' → select dir h' = .ok (Path.join dir m) h') ∨
      (∀ n ∈ h.filesIn dir, ¬ Pickable n) ∧
        ∀ h', h.Relisted h' → select dir h' = .error (.badInput (.noArchive dir)) h') ∧
      (∀ n, ¬ Pickable (Archive.instrumentedName n) ∧ Archive.instrumentedName n ≠ n) ∧
      Function.Injective Archive.instrumentedName := by
  refine ⟨?_, fun n => ⟨not_pickable_instrumentedName n, instrumentedName_ne n⟩,
    instrumentedName_injective⟩
  rcases select_cases there with ⟨m, first, -⟩ | ⟨none, -⟩
  · exact .inl ⟨m, first, fun h' again => (first.relisted again).select_eq_ok,
      fun h' gains => (first.gains gains).select_eq_ok⟩
  · refine .inr ⟨none, fun h' again => ?_⟩
    obtain ⟨l, leads, isDir⟩ := FileAction.isDir_iff.mp there
    have there' : h'.isDir dir :=
      FileAction.isDir_iff.mpr ⟨l, again.resolve leads, again.isDir_iff.mpr isDir⟩
    rcases select_cases there' with ⟨m, first, -⟩ | ⟨-, refused⟩
    · exact absurd first.pickable (none m (again.symm.mem_filesIn first.file))
    · exact refused

/-- A host with a directory in which there are archives, an instrumented one, another file, and a
directory that is named like an archive. -/
def shelf : Host where
  files :=
    { entries :=
        [([], .dir 0), (["in"], .dir 0), (["in", "a.apk"], .dir 0),
          (["in", "c.apk"], .file .empty 0), (["in", "b.apk"], .file .empty 0),
          (["in", "a-instrumented.apk"], .file .empty 0), (["in", "a.txt"], .file .empty 0)]
      distinct := by decide }
  workingDir := []
  tempDir := "/tmp"
  home := none
  now := 1

theorem first_shelf : First shelf "in" "b.apk" where
  file := by decide +kernel
  pickable := by decide +kernel
  least := by decide +kernel

/-- On the shelf, the first archive is picked again after it was instrumented and after another file
was put there that may be picked itself. -/
theorem select_first_shelf : shelf.isDir "in" ∧ ∃ mid h',
    FileAction.write "in/b-instrumented.apk" .empty shelf = .ok () mid ∧
      FileAction.write "in/b.apk.apk" .empty mid = .ok () h' ∧
      select "in" h' = .ok "in/b.apk" h' := by
  have there : shelf.isDir "in" := by decide +kernel
  have leads : shelf.resolve "in" = .ok ["in"] := by decide +kernel
  have names : ∀ n ∈ shelf.files.names ["in"], Path.IsName n := by decide +kernel
  have written : succeeds (fun _ _ => true) ((do
      FileAction.write "in/b-instrumented.apk" .empty
      FileAction.write "in/b.apk.apk" .empty) shelf) := by decide +kernel
  obtain ⟨_, h', done, -⟩ := exists_of_succeeds written
  obtain ⟨_, mid, first, second⟩ := bind_eq_ok_iff.mp done
  have received := FileAction.receives_of_write first
  have received' := FileAction.receives_of_write second
  rw [received.workingDir] at received'
  have gains : Gains "in" "b.apk" shelf h' := by
    refine gains_of_receives [("b-instrumented.apk", .empty), ("b.apk.apk", .empty)] ?_ leads
      names ?_
    · have place : Path.place shelf.workingDir "in/b-instrumented.apk" =
        ["in", "b-instrumented.apk"] := by decide +kernel
      have place' : Path.place shelf.workingDir "in/b.apk.apk" = ["in", "b.apk.apk"] := by
        decide +kernel
      rw [place] at received
      rw [place'] at received'
      exact received.trans received'
    · rw [List.forall_mem_cons, List.forall_mem_singleton]
      exact ⟨.inl (by decide), .inr ⟨".apk", by decide, by decide⟩⟩
  obtain ⟨⟨m, picked, -, again⟩ | ⟨none, -⟩, -⟩ := select_first there
  · obtain rfl := picked.unique first_shelf
    exact ⟨there, mid, h', first, second, again h' gains⟩
  · exact absurd first_shelf.pickable (none _ first_shelf.file)

end Artifact

end Tracepoint
