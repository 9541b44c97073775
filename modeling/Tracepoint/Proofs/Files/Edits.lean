import Mathlib.Data.Set.Insert
import Tracepoint.Proofs.Files.Places

/-!
# What file actions change

An action that edits some places (`Host.Edits`) leaves the content of every other place as it
was, keeps every directory, and keeps the host sound (`Host.Sound`): everything stands in a
directory, and the working directory exists. Each action that a run publishes with has one
lemma for the case that it succeeds and one for the case that it fails: a failed write or move
changes nothing, and what is done by way of a temporary file leaves none behind.
-/

namespace Tracepoint

/-! ### Results of actions -/

section Results

variable {ε σ α β : Type} {x : EStateM ε σ α} {f : α → EStateM ε σ β} {s s' : σ}

theorem bind_eq_ok_iff {b : β} :
    (x >>= f) s = .ok b s' ↔ ∃ a mid, x s = .ok a mid ∧ f a mid = .ok b s' := by
  show EStateM.bind x f s = _ ↔ _
  rw [EStateM.bind]
  cases x s <;> simp

theorem bind_eq_error_iff {e : ε} : (x >>= f) s = .error e s' ↔
    x s = .error e s' ∨ ∃ a mid, x s = .ok a mid ∧ f a mid = .error e s' := by
  show EStateM.bind x f s = _ ↔ _
  rw [EStateM.bind]
  cases x s <;> simp

theorem bind_of_ok {a : α} {mid : σ} (done : x s = .ok a mid) : (x >>= f) s = f a mid := by
  show EStateM.bind x f s = _
  rw [EStateM.bind, done]

theorem bind_of_error {e : ε} {mid : σ} (failed : x s = .error e mid) :
    (x >>= f) s = .error e mid := by
  show EStateM.bind x f s = _
  rw [EStateM.bind, failed]

/-- The state that an action leaves, however it ends. -/
def left (x : EStateM ε σ α) (s : σ) : σ :=
  match x s with
  | .ok _ s | .error _ s => s

theorem left_of_ok {a : α} (done : x s = .ok a s') : left x s = s' := by
  rw [left, done]

theorem left_of_error {e : ε} (failed : x s = .error e s') : left x s = s' := by
  rw [left, failed]

theorem left_congr {y : EStateM ε σ α} (same : x s = y s') : left x s = left y s' := by
  rw [left, left, same]

theorem left_bind (x : EStateM ε σ α) (f : α → EStateM ε σ β) (s : σ) :
    left (x >>= f) s =
      match x s with
      | .ok a mid => left (f a) mid
      | .error _ mid => mid := by
  show left (EStateM.bind x f) s = _
  rw [left, EStateM.bind]
  cases x s <;> rfl

theorem left_bind_of_still (first : left x s = s) (later : ∀ a, left (f a) s = s) :
    left (x >>= f) s = s := by
  rw [left_bind]
  cases done : x s with
  | ok a mid =>
    rw [left_of_ok done] at first
    subst first
    exact later a
  | error e mid => exact left_of_error done ▸ first

/-- What is done for each item of a list without a change gives what the items have. -/
theorem mapM_eq_ok_iff_of_still {P : α → β → Prop}
    (each : ∀ a b s', f a s = .ok b s' ↔ P a b ∧ s' = s) {items : List α} {bs : List β} :
    items.mapM f s = .ok bs s' ↔ List.Forall₂ P items bs ∧ s' = s := by
  induction items generalizing bs with
  | nil =>
    rw [List.mapM_nil, List.forall₂_nil_left_iff]
    exact ⟨fun done => by cases done; exact ⟨rfl, rfl⟩, by rintro ⟨rfl, rfl⟩; rfl⟩
  | cons a rest ih =>
    rw [List.mapM_cons, bind_eq_ok_iff]
    constructor
    · rintro ⟨b, mid, first, later⟩
      obtain ⟨holds, rfl⟩ := (each a b mid).mp first
      obtain ⟨bs, mid, others, returned⟩ := bind_eq_ok_iff.mp later
      cases returned
      obtain ⟨hold, rfl⟩ := ih.mp others
      exact ⟨.cons holds hold, rfl⟩
    · rintro ⟨hold, rfl⟩
      cases hold with
      | cons holds hold =>
        exact ⟨_, _, (each a _ _).mpr ⟨holds, rfl⟩,
          bind_eq_ok_iff.mpr ⟨_, _, ih.mpr ⟨hold, rfl⟩, rfl⟩⟩

/-- What is read off a result changes nothing. -/
theorem left_bind_pure (x : EStateM ε σ α) (g : α → β) (s : σ) :
    left (x >>= fun a => pure (g a)) s = left x s := by
  rw [left_bind, left]
  cases x s <;> rfl

end Results

/-! ### Directories and contents after a change -/

namespace FileTree

variable {t : FileTree} {l m : Location}

@[simp] theorem isDir_touch {time : Int} : (t.touch l time).IsDir m ↔ t.IsDir m := by
  rw [touch]
  split
  · rename_i here
    by_cases same : m = l
    · subst same
      simp [IsDir, here]
    · simp [IsDir, same]
  · rfl

@[simp] theorem content?_touch {time : Int} : (t.touch l time).content? m = t.content? m := by
  rw [touch]
  split
  · rename_i here
    by_cases same : m = l
    · subst same
      simp [content?, here, Node.content?]
    · simp [content?, same]
  · rfl

@[simp] theorem isDir_set {n : Node} :
    (t.set l n).IsDir m ↔ if m = l then n.isDir = true else t.IsDir m := by
  by_cases same : m = l
  · cases n <;> simp [IsDir, same, Node.isDir]
  · simp [IsDir, same]

@[simp] theorem content?_set {n : Node} :
    (t.set l n).content? m = if m = l then n.content? else t.content? m := by
  by_cases same : m = l <;> simp [content?, same]

@[simp] theorem isDir_erase : (t.erase l).IsDir m ↔ m ≠ l ∧ t.IsDir m := by
  by_cases same : m = l <;> simp [IsDir, same]

@[simp] theorem content?_erase :
    (t.erase l).content? m = if m = l then none else t.content? m := by
  by_cases same : m = l <;> simp [content?, same]

@[simp] theorem isDir_eraseBelow : (t.eraseBelow l).IsDir m ↔ ¬ l <+: m ∧ t.IsDir m := by
  by_cases below : l <+: m <;> simp [IsDir, below]

@[simp] theorem content?_eraseBelow :
    (t.eraseBelow l).content? m = if l <+: m then none else t.content? m := by
  by_cases below : l <+: m <;> simp [content?, below]

end FileTree

namespace Host

open FileTree

variable {h h' h'' : Host} {l m : Location} {n : Node}

theorem isDir_put :
    (h.put l n).files.IsDir m ↔ if m = l then n.isDir = true else h.files.IsDir m := by
  rw [put]
  split <;> simp

theorem content?_put :
    (h.put l n).files.content? m = if m = l then n.content? else h.files.content? m := by
  rw [put]
  split <;> simp

theorem isDir_clear : (h.clear l).files.IsDir m ↔ ¬ l <+: m ∧ h.files.IsDir m := by
  simp [clear]

theorem content?_clear :
    (h.clear l).files.content? m = if l <+: m then none else h.files.content? m := by
  simp [clear]

/-! ### Sound hosts and edits -/

/-- A host in which everything stands in a directory and the working directory exists. -/
structure Sound (h : Host) : Prop where
  rooted : h.files.Rooted
  working : h.files.IsDir h.workingDir

theorem Sound.isDir_root (sound : h.Sound) : h.files.IsDir [] := by
  cases there : h.workingDir with
  | nil => exact there ▸ sound.working
  | cons s rest =>
    have working := sound.working
    rw [there] at working
    exact sound.rooted.isDir_of_append (l := []) working.isSome

theorem Sound.isDir_dropLast (sound : h.Sound) (dir : h.files.IsDir l) :
    h.files.IsDir l.dropLast := by
  rcases List.eq_nil_or_concat' l with rfl | ⟨above, s, rfl⟩
  · exact sound.isDir_root
  · rw [List.dropLast_concat]
    exact sound.rooted above s dir.isSome

/-- A change of a host that keeps its directories and the content of all but some places. -/
structure Edits (only : Set Location) (h h' : Host) : Prop where
  workingDir : h'.workingDir = h.workingDir
  rooted : h'.files.Rooted
  dirs : ∀ l, h.files.IsDir l → h'.files.IsDir l
  content : ∀ l ∉ only, h'.files.content? l = h.files.content? l

theorem Sound.edits (sound : h.Sound) : h.Edits ∅ h :=
  ⟨rfl, sound.rooted, fun _ dir => dir, fun _ _ => rfl⟩

theorem Edits.sound {a : Set Location} (edits : h.Edits a h') (sound : h.Sound) : h'.Sound where
  rooted := edits.rooted
  working := by
    rw [edits.workingDir]
    exact edits.dirs _ sound.working

theorem Edits.trans {a b : Set Location} (first : h.Edits a h') (second : h'.Edits b h'') :
    h.Edits (a ∪ b) h'' where
  workingDir := second.workingDir.trans first.workingDir
  rooted := second.rooted
  dirs l dir := second.dirs l (first.dirs l dir)
  content l outside := by
    rw [Set.mem_union, not_or] at outside
    rw [second.content l outside.2, first.content l outside.1]

/-- A place whose content is what it was, or that is in `b`, was not edited after all. -/
theorem Edits.narrow {a b : Set Location} (edits : h.Edits a h')
    (same : ∀ l ∈ a, l ∉ b → h'.files.content? l = h.files.content? l) : h.Edits b h' where
  workingDir := edits.workingDir
  rooted := edits.rooted
  dirs := edits.dirs
  content l outside := by
    by_cases edited : l ∈ a
    · exact same l edited outside
    · exact edits.content l edited

theorem Edits.resolve {a : Set Location} (edits : h.Edits a h') {p : Path}
    (found : h.resolve p = .ok l) : h'.resolve p = .ok l :=
  resolve_mono edits.workingDir (fun _ => edits.dirs _) found

theorem rooted_put (rooted : h.files.Rooted) (grounded : h.files.Grounded l)
    (same : h.files.IsDir l → n.isDir) : (h.put l n).files.Rooted := by
  intro m s there
  have parent : h.files.IsDir m := by
    by_cases here : m ++ [s] = l
    · exact grounded m s here.symm
    · apply rooted m s
      rw [isSome_get?_iff, isDir_put, content?_put, if_neg here, if_neg here] at there
      exact isSome_get?_iff.mpr there
  rw [isDir_put]
  split
  · rename_i here
    exact same (here ▸ parent)
  · exact parent

/-- A file may be put where no directory stands. -/
theorem edits_put (rooted : h.files.Rooted) (grounded : h.files.Grounded l)
    (noDir : ¬ h.files.IsDir l) : h.Edits {l} (h.put l n) where
  workingDir := rfl
  rooted := rooted_put rooted grounded fun dir => absurd dir noDir
  dirs m dir := by
    rw [isDir_put, if_neg]
    · exact dir
    · rintro rfl
      exact noDir dir
  content m outside := by
    rw [content?_put, if_neg (by simpa using outside)]

/-- A directory may be put where nothing stands. -/
theorem edits_put_dir (rooted : h.files.Rooted) (grounded : h.files.Grounded l)
    (free : h.files.get? l = none) (time : Int) : h.Edits ∅ (h.put l (.dir time)) := by
  have noDir : ¬ h.files.IsDir l := fun dir => by simpa [free] using dir.isSome
  apply (edits_put rooted grounded noDir).narrow
  rintro m rfl -
  rw [content?_put, if_pos rfl, content?_of_get?_eq_none free]
  rfl

theorem rooted_clear (rooted : h.files.Rooted) : (h.clear l).files.Rooted := by
  intro m s there
  rw [isSome_get?_iff, isDir_clear, content?_clear] at there
  have kept : ¬ l <+: m ++ [s] := by
    intro below
    simp [below] at there
  rw [if_neg kept] at there
  rw [isDir_clear]
  exact ⟨fun below => kept (below.trans (List.prefix_append _ _)),
    rooted m s (isSome_get?_iff.mpr (there.imp And.right id))⟩

/-- Nothing stands below a file, so that clearing its place clears nothing else. -/
theorem edits_clear (rooted : h.files.Rooted) {content : ByteArray}
    (file : h.files.content? l = some content) : h.Edits {l} (h.clear l) where
  workingDir := rfl
  rooted := rooted_clear rooted
  dirs m dir := by
    rw [isDir_clear]
    refine ⟨fun below => ?_, dir⟩
    by_cases same : m = l
    · exact not_isDir_of_content? file (same ▸ dir)
    · have nothing := rooted.get?_eq_none_of_prefix (not_isDir_of_content? file) below same
      simpa [nothing] using dir.isSome
  content m outside := by
    rw [content?_clear]
    split
    · rename_i below
      have nothing := rooted.get?_eq_none_of_prefix (not_isDir_of_content? file) below outside
      exact (content?_of_get?_eq_none nothing).symm
    · rfl

end Host

end Tracepoint
