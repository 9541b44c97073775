import Tracepoint.Proofs.Files.Edits

/-!
# The file actions of a run

What each action that a run changes files with does to a sound host. A failed write or move
changes nothing; a failed replacement and a failed copy leave no trace, since the temporary
file that they work with is removed; a replacement that succeeds edits its target alone.
-/

namespace Tracepoint.FileAction

open Host FileTree

variable {h h' : Host} {p : Path} {l : Location} {content : ByteArray} {e : FileFault}

theorem ask_eq_ok_iff {α : Type} {question : Host → Except FileFault α} {a : α} :
    ask question h = .ok a h' ↔ question h = .ok a ∧ h' = h := by
  rw [ask]
  cases question h <;> simp [eq_comm]

theorem ask_eq_error_iff {α : Type} {question : Host → Except FileFault α} :
    ask question h = .error e h' ↔ question h = .error e ∧ h' = h := by
  rw [ask]
  cases question h <;> simp [eq_comm]

theorem bind_ask {α β : Type} (question : Host → Except FileFault α) (f : α → FileAction β)
    (h : Host) : (ask question >>= f) h =
      match question h with
      | .ok a => f a h
      | .error e => .error e h := by
  change EStateM.bind (ask question) f h = _
  rw [EStateM.bind, ask]
  cases question h <;> rfl

theorem bind_get {β : Type} (f : Host → FileAction β) (h : Host) : (get >>= f) h = f h h :=
  rfl

/-! ### Reading -/

theorem read_eq_ok_iff :
    h.read p = .ok content ↔ ∃ l, h.resolve p = .ok l ∧ h.files.content? l = some content := by
  rw [Host.read, node]
  cases h.resolve p with
  | error e => simp
  | ok l =>
    simp only [Except.ok.injEq, exists_eq_left', FileTree.content?]
    rcases h.files.get? l with _ | (_ | _) <;> simp [Node.content?]

theorem has_iff : h.has p ↔ ∃ l, h.resolve p = .ok l ∧ (h.files.get? l).isSome := by
  rw [has, node]
  cases h.resolve p with
  | error e => simp [Except.isOk, Except.toBool]
  | ok l =>
    simp only [Except.ok.injEq, exists_eq_left']
    cases h.files.get? l <;> simp [Except.isOk, Except.toBool]

theorem isFile_iff :
    h.isFile p ↔ ∃ l, h.resolve p = .ok l ∧ (h.files.content? l).isSome := by
  rw [isFile, node]
  cases h.resolve p with
  | error e => simp
  | ok l =>
    simp only [Except.ok.injEq, exists_eq_left', FileTree.content?]
    rcases h.files.get? l with _ | (_ | _) <;> simp [Node.content?, Node.isFile]

theorem isDir_iff : h.isDir p ↔ ∃ l, h.resolve p = .ok l ∧ h.files.IsDir l := by
  rw [Host.isDir, node]
  cases h.resolve p with
  | error e => simp
  | ok l =>
    simp only [Except.ok.injEq, exists_eq_left', FileTree.IsDir]
    rcases h.files.get? l with _ | (_ | _) <;> simp [Node.isDir]

/-- A path leads to the same file after a change of other places. -/
theorem read_of_edits {only : Set Location} (edits : h.Edits only h') (found : h.resolve p = .ok l)
    (outside : l ∉ only) : h'.read p = .ok content ↔ h.read p = .ok content := by
  rw [read_eq_ok_iff, read_eq_ok_iff, edits.resolve found, found]
  simp [edits.content l outside]

theorem has_of_edits (edits : h.Edits ∅ h') (has : h.has p) : h'.has p := by
  obtain ⟨l, found, there⟩ := has_iff.mp has
  rw [isSome_get?_iff] at there
  refine has_iff.mpr ⟨l, edits.resolve found, isSome_get?_iff.mpr ?_⟩
  rw [edits.content l (by simp)]
  exact there.imp_left (edits.dirs l)

/-- A file that holds the bytes of a text holds the text. -/
theorem readText_of_read {text : String} (read : h.read p = .ok text.toUTF8) :
    h.readText p = .ok text := by
  have decoded : String.fromUTF8? text.toUTF8 = some text := by
    rw [String.fromUTF8?, dif_pos (show text.toUTF8.IsValidUTF8 from text.isValidUTF8)]
    rfl
  rw [readText, read]
  dsimp only
  rw [decoded]

theorem readText_eq_ok {text : String} (read : h.readText p = .ok text) :
    h.read p = .ok text.toUTF8 := by
  rw [readText] at read
  split at read
  · rename_i content found
    split at read
    · rename_i s decoded
      cases read
      rw [String.fromUTF8?] at decoded
      split at decoded
      · cases decoded
        exact found
      · cases decoded
    · cases read
  · cases read

/-! ### Writing and removing -/

/-- A write puts the file at the place that the path leads to, unless a directory is there. -/
theorem write_eq (p : Path) (content : ByteArray) (h : Host) :
    write p content h =
      match h.resolve p with
      | .error e => .error e h
      | .ok l =>
        match h.files.get? l with
        | some (.dir _) => .error .isADirectory h
        | _ => .ok () (h.put l (.file content h.now)) := by
  rw [write, bind_ask]
  cases h.resolve p with
  | error e => rfl
  | ok l =>
    dsimp only
    rw [bind_get]
    rcases h.files.get? l with _ | (_ | _) <;> rfl

/-- Removal clears the place that the path leads to, if a file is there. -/
theorem removeFile_eq (p : Path) (h : Host) :
    removeFile p h =
      match h.resolve p with
      | .error e => .error e h
      | .ok l =>
        match h.files.get? l with
        | some (.file _ _) => .ok () (h.clear l)
        | some (.dir _) => .error .isADirectory h
        | none => .error .notFound h := by
  rw [removeFile, bind_ask]
  cases h.resolve p with
  | error e => rfl
  | ok l =>
    dsimp only
    rw [bind_get]
    rcases h.files.get? l with _ | (_ | _) <;> rfl

/-- Removal of a directory clears the place that the path leads to, if a directory is there. -/
theorem removeDirAll_eq (p : Path) (h : Host) :
    removeDirAll p h =
      match h.resolve p with
      | .error e => .error e h
      | .ok l =>
        match h.files.get? l with
        | some (.dir _) => .ok () (h.clear l)
        | some (.file _ _) => .error .notADirectory h
        | none => .error .notFound h := by
  rw [removeDirAll, bind_ask]
  cases h.resolve p with
  | error e => rfl
  | ok l =>
    dsimp only
    rw [bind_get]
    rcases h.files.get? l with _ | (_ | _) <;> rfl

theorem write_eq_ok (sound : h.Sound) (done : write p content h = .ok () h') :
    ∃ l, h.resolve p = .ok l ∧ h.Edits {l} h' ∧ h'.files.content? l = some content := by
  rw [write_eq] at done
  split at done
  · cases done
  · rename_i l found
    split at done
    · cases done
    · rename_i free
      cases done
      have noDir : ¬ h.files.IsDir l := fun ⟨time, there⟩ => free time there
      refine ⟨l, found, edits_put sound.rooted (grounded_of_resolve sound.rooted found) noDir, ?_⟩
      rw [content?_put, if_pos rfl]
      rfl

theorem write_at (sound : h.Sound) (leads : h.resolve p = .ok l)
    (done : write p content h = .ok () h') :
    h.Edits {l} h' ∧ h'.files.content? l = some content := by
  obtain ⟨l', found, edits, written⟩ := write_eq_ok sound done
  rw [leads] at found
  cases found
  exact ⟨edits, written⟩

theorem write_eq_error (failed : write p content h = .error e h') : h' = h := by
  rw [write_eq] at failed
  split at failed
  · cases failed
    rfl
  · split at failed <;> cases failed
    rfl

/-- Once a path leads somewhere, no file is left there after its removal, done or refused. -/
theorem left_removeFile (sound : h.Sound) (found : h.resolve p = .ok l) :
    h.Edits {l} (left (removeFile p) h) ∧
      (left (removeFile p) h).files.content? l = none := by
  rw [left, removeFile_eq, found]
  dsimp only
  cases there : h.files.get? l with
  | none => exact ⟨sound.edits.narrow (by simp), content?_of_get?_eq_none there⟩
  | some n =>
    cases n with
    | file content time =>
      have file : h.files.content? l = some content := by
        rw [content?, there]
        rfl
      refine ⟨edits_clear sound.rooted file, ?_⟩
      rw [content?_clear, if_pos (List.prefix_refl l)]
    | dir time => exact ⟨sound.edits.narrow (by simp), content?_of_isDir ⟨time, there⟩⟩

theorem orRemove_eq_ok_iff {α ε : Type} {work : EStateM ε Host α} {a : α} :
    orRemove p work h = .ok a h' ↔ work h = .ok a h' := by
  rw [orRemove]
  cases work h with
  | ok a mid => rfl
  | error e mid =>
    dsimp only
    cases removeFile p mid <;> simp

theorem orRemove_eq_error_iff {α ε : Type} {work : EStateM ε Host α} {e : ε} :
    orRemove p work h = .error e h' ↔
      ∃ mid, work h = .error e mid ∧ h' = left (removeFile p) mid := by
  rw [orRemove]
  cases work h with
  | ok a mid => simp
  | error e' mid =>
    dsimp only
    cases removed : removeFile p mid <;> simp [left, removed, eq_comm]

/-! ### Moving -/

/-- A move takes what stands at one place to another, unless a directory is there. -/
theorem moveFile_eq (source target : Path) (h : Host) :
    moveFile source target h =
      match h.resolve source, h.resolve target with
      | .error e, _ => .error e h
      | .ok _, .error e => .error e h
      | .ok l, .ok m =>
        match h.files.get? l, h.files.get? m with
        | none, _ => .error .notFound h
        | some _, some (.dir _) => .error .isADirectory h
        | some n, _ =>
          .ok () { h with
            files := (((h.files.erase l).set m n).touch l.dropLast h.now).touch m.dropLast h.now
            now := h.now + 1 } := by
  rw [moveFile, bind_ask]
  cases h.resolve source with
  | error e => rfl
  | ok l =>
    dsimp only
    rw [bind_ask]
    cases h.resolve target with
    | error e => rfl
    | ok m =>
      dsimp only
      rw [bind_get]
      rcases h.files.get? l with _ | _
      · rfl
      · rcases h.files.get? m with _ | (_ | _) <;> rfl

theorem moveFile_eq_error {source target : Path}
    (failed : moveFile source target h = .error e h') : h' = h := by
  rw [moveFile_eq] at failed
  split at failed
  · cases failed
    rfl
  · cases failed
    rfl
  · split at failed <;> cases failed <;> rfl

/-- A file that is moved leaves its place, unless it is moved to itself. -/
theorem moveFile_eq_ok {source target : Path} (sound : h.Sound)
    (leads : h.resolve source = .ok l) (file : h.files.content? l = some content)
    (done : moveFile source target h = .ok () h') :
    ∃ m, h.resolve target = .ok m ∧ h.Edits {l, m} h' ∧ h'.files.content? m = some content ∧
      (l ≠ m → h'.files.content? l = none) := by
  rw [moveFile_eq, leads] at done
  split at done
  · cases done
  · cases done
  · rename_i l' m same found
    cases same
    split at done
    · cases done
    · cases done
    · rename_i n there free
      cases done
      have noDir : ¬ h.files.IsDir m := fun ⟨time, here⟩ => free time here
      have moved : n.content? = some content := by
        rw [content?, there] at file
        exact file
      have notDir : n.isDir = false := by
        cases n with
        | file => rfl
        | dir => cases moved
      have dirs (k : Location) : ((((h.files.erase l).set m n).touch l.dropLast h.now).touch
          m.dropLast h.now).IsDir k ↔ h.files.IsDir k := by
        have source := not_isDir_of_content? file
        simp only [isDir_touch, isDir_set, isDir_erase, notDir]
        grind
      have contents (k : Location) : ((((h.files.erase l).set m n).touch l.dropLast h.now).touch
          m.dropLast h.now).content? k =
          if k = m then some content else if k = l then none else h.files.content? k := by
        simp only [content?_touch, content?_set, content?_erase, moved]
      refine ⟨m, found, ⟨rfl, ?_, fun k dir => (dirs k).mpr dir, ?_⟩, ?_, ?_⟩
      · intro k s there'
        rw [isSome_get?_iff, dirs, contents] at there'
        rw [dirs]
        by_cases target : k ++ [s] = m
        · exact grounded_of_resolve sound.rooted found k s target.symm
        · apply sound.rooted k s
          rw [isSome_get?_iff]
          grind
      · intro k outside
        rw [contents, if_neg (by grind), if_neg (by grind)]
      · rw [contents, if_pos rfl]
      · intro other
        rw [contents, if_neg other, if_pos rfl]

/-! ### Temporary files -/

/-- The path that is chosen for something temporary in a directory. -/
def nextTemp (h : Host) (dir : Path) : Path :=
  Path.join dir (freeName h.files (dir.place h.workingDir))

/-- What is chosen for something temporary leads to a free place. -/
theorem get?_nextTemp (h : Host) (dir : Path) :
    h.files.get? ((nextTemp h dir).place h.workingDir) = none := by
  rw [nextTemp, Path.place_join (isName_freeName _ _)]
  exact get?_freeName _ _

theorem freePath_eq_ok {dir : Path} (done : freePath dir h = .ok p h') :
    h' = h ∧ p = nextTemp h dir := by
  obtain ⟨l, mid, asked, rest⟩ := bind_eq_ok_iff.mp done
  obtain ⟨found, rfl⟩ := ask_eq_ok_iff.mp asked
  cases rest
  rw [nextTemp, place_of_resolve found]
  exact ⟨rfl, rfl⟩

theorem freePath_eq_error {dir : Path} (failed : freePath dir h = .error e h') : h' = h := by
  rcases bind_eq_error_iff.mp failed with refused | ⟨l, mid, asked, rest⟩
  · exact (ask_eq_error_iff.mp refused).2
  · cases rest

/-- A temporary file is made in a free place. -/
theorem tempFile_eq_ok {dir : Path} (sound : h.Sound) (done : tempFile dir h = .ok p h') :
    p = nextTemp h dir ∧
      ∃ l, h.files.content? l = none ∧ h.Edits {l} h' ∧ h'.resolve p = .ok l := by
  obtain ⟨temp, mid, chosen, rest⟩ := bind_eq_ok_iff.mp done
  obtain ⟨rfl, rfl⟩ := freePath_eq_ok chosen
  obtain ⟨_, mid', written, rest⟩ := bind_eq_ok_iff.mp rest
  cases rest
  obtain ⟨l, found, edits, -⟩ := write_eq_ok sound written
  have free := get?_nextTemp mid dir
  rw [place_of_resolve found] at free
  exact ⟨rfl, l, content?_of_get?_eq_none free, edits, edits.resolve found⟩

theorem tempFile_eq_error {dir : Path} (failed : tempFile dir h = .error e h') : h' = h := by
  rcases bind_eq_error_iff.mp failed with refused | ⟨temp, mid, chosen, rest⟩
  · exact freePath_eq_error refused
  · obtain ⟨rfl, -⟩ := freePath_eq_ok chosen
    rcases bind_eq_error_iff.mp rest with refused | ⟨_, mid', written, rest⟩
    · exact write_eq_error refused
    · cases rest

/-- What is done by way of a temporary file, and fails after the last change of it, leaves no
trace once the file is removed. -/
theorem edits_left_removeFile {mid : Host} (sound : h.Sound) (free : h.files.content? l = none)
    (edits : h.Edits {l} mid) (leads : mid.resolve p = .ok l) :
    h.Edits ∅ (left (removeFile p) mid) := by
  obtain ⟨removed, gone⟩ := left_removeFile (edits.sound sound) leads
  apply (edits.trans removed).narrow
  intro k member _
  obtain rfl : k = l := by simpa using member
  rw [gone, free]

/-- A file that is replaced is the only place that changes. -/
theorem replaceFile_eq_ok {dir target : Path} (sound : h.Sound)
    (done : replaceFile dir target content h = .ok () h') :
    ∃ m, h'.resolve target = .ok m ∧ h.Edits {m} h' ∧ h'.files.content? m = some content := by
  obtain ⟨temp, h₁, made, work⟩ := bind_eq_ok_iff.mp done
  obtain ⟨-, l, free, edits₁, leads⟩ := tempFile_eq_ok sound made
  rw [orRemove_eq_ok_iff] at work
  obtain ⟨_, h₂, written, moved⟩ := bind_eq_ok_iff.mp work
  obtain ⟨edits₂, staged⟩ := write_at (edits₁.sound sound) leads written
  have sound₂ := edits₂.sound (edits₁.sound sound)
  obtain ⟨m, found, edits₃, there, gone⟩ :=
    moveFile_eq_ok sound₂ (edits₂.resolve leads) staged moved
  refine ⟨m, edits₃.resolve found, ((edits₁.trans edits₂).trans edits₃).narrow ?_, there⟩
  intro k member outside
  obtain rfl : k = l := by simp_all
  rw [gone (by simpa using outside), free]

/-- A file that could not be replaced stays as it was, and so does everything else. -/
theorem replaceFile_eq_error {dir target : Path} (sound : h.Sound)
    (failed : replaceFile dir target content h = .error e h') : h.Edits ∅ h' := by
  rcases bind_eq_error_iff.mp failed with refused | ⟨temp, h₁, made, work⟩
  · obtain rfl := tempFile_eq_error refused
    exact sound.edits
  · obtain ⟨-, l, free, edits₁, leads⟩ := tempFile_eq_ok sound made
    obtain ⟨mid, failure, rfl⟩ := orRemove_eq_error_iff.mp work
    rcases bind_eq_error_iff.mp failure with refused | ⟨_, h₂, written, refused⟩
    · obtain rfl := write_eq_error refused
      exact edits_left_removeFile sound free edits₁ leads
    · obtain ⟨edits₂, -⟩ := write_at (edits₁.sound sound) leads written
      obtain rfl := moveFile_eq_error refused
      have edits := (edits₁.trans edits₂).narrow (b := {l}) (by simp)
      exact edits_left_removeFile sound free edits (edits₂.resolve leads)

/-- A copy that is staged stands in a place that was free. -/
theorem stageCopy_eq_ok {source dir : Path} (sound : h.Sound)
    (done : stageCopy source dir h = .ok p h') :
    p = nextTemp h dir ∧ ∃ l content, h.files.content? l = none ∧ h.Edits {l} h' ∧
      h'.resolve p = .ok l ∧ h'.files.content? l = some content ∧
      (h.has source → h.read source = .ok content) := by
  obtain ⟨temp, h₁, made, work⟩ := bind_eq_ok_iff.mp done
  obtain ⟨named, l, free, edits₁, leads⟩ := tempFile_eq_ok sound made
  rw [orRemove_eq_ok_iff] at work
  obtain ⟨content, mid, asked, rest⟩ := bind_eq_ok_iff.mp work
  obtain ⟨found, rfl⟩ := ask_eq_ok_iff.mp asked
  obtain ⟨_, h₂, written, rest⟩ := bind_eq_ok_iff.mp rest
  cases rest
  obtain ⟨edits₂, staged⟩ := write_at (edits₁.sound sound) leads written
  refine ⟨named, l, content, free, (edits₁.trans edits₂).narrow (by simp), edits₂.resolve leads,
    staged, fun has => ?_⟩
  obtain ⟨m, leads', there⟩ := has_iff.mp has
  obtain ⟨m', found', read⟩ := read_eq_ok_iff.mp found
  obtain rfl : m' = m := by
    rw [edits₁.resolve leads'] at found'
    cases found'
    rfl
  -- What is copied was there before the copy.
  have other : m' ∉ ({l} : Set Location) := by
    rintro rfl
    have dir := (isSome_get?_iff.mp there).resolve_right (by simp [free])
    exact not_isDir_of_content? read (edits₁.dirs _ dir)
  rw [edits₁.content m' other] at read
  exact read_eq_ok_iff.mpr ⟨m', leads', read⟩

/-- A copy that could not be staged leaves no trace. -/
theorem stageCopy_eq_error {source dir : Path} (sound : h.Sound)
    (failed : stageCopy source dir h = .error e h') : h.Edits ∅ h' := by
  rcases bind_eq_error_iff.mp failed with refused | ⟨temp, h₁, made, work⟩
  · obtain rfl := tempFile_eq_error refused
    exact sound.edits
  · obtain ⟨-, l, free, edits₁, leads⟩ := tempFile_eq_ok sound made
    obtain ⟨mid, failure, rfl⟩ := orRemove_eq_error_iff.mp work
    have unchanged : mid = h₁ := by
      rcases bind_eq_error_iff.mp failure with refused | ⟨content, mid', asked, rest⟩
      · exact (ask_eq_error_iff.mp refused).2
      · obtain ⟨-, rfl⟩ := ask_eq_ok_iff.mp asked
        rcases bind_eq_error_iff.mp rest with refused | ⟨_, h₂, written, rest⟩
        · exact write_eq_error refused
        · cases rest
    subst unchanged
    exact edits_left_removeFile sound free edits₁ leads

/-! ### Directories -/

/-- One segment of a way leads to a place that is passed through, or to a free one where a directory
is made, or the way ends there. -/
theorem makeWay_cons (here : Location) (s : String) (rest : List String) (h : Host) :
    (h.files.IsDir (Path.next here s) ∨ Path.next here s = here ∨
        Path.next here s = here.dropLast) ∧
      makeWay here (s :: rest) h = makeWay (Path.next here s) rest h ∨
    h.files.get? (Path.next here s) = none ∧ Path.next here s = here ++ [s] ∧
      makeWay here (s :: rest) h =
        makeWay (Path.next here s) rest (h.put (Path.next here s) (.dir h.now)) ∨
    ¬ (s = "" ∨ s = "." ∨ s = "..") ∧
      (Path.maxName < s.utf8ByteSize ∨ ¬ h.files.IsDir (Path.next here s)) ∧
      ∃ e, makeWay here (s :: rest) h = .error e h := by
  rw [makeWay, Path.next]
  by_cases stay : s = "" ∨ s = "."
  · rw [if_pos stay, if_pos stay]
    exact .inl ⟨.inr (.inl rfl), rfl⟩
  rw [if_neg stay, if_neg stay]
  by_cases up : s = ".."
  · rw [if_pos up, if_pos up]
    exact .inl ⟨.inr (.inr rfl), rfl⟩
  rw [if_neg up, if_neg up]
  have down : ¬ (s = "" ∨ s = "." ∨ s = "..") := by
    rwa [← or_assoc, or_iff_left up]
  by_cases long : Path.maxName < s.utf8ByteSize
  · rw [if_pos long]
    exact .inr (.inr ⟨down, .inl long, _, rfl⟩)
  rw [if_neg long, bind_get]
  cases there : h.files.get? (here ++ [s]) with
  | some n =>
    cases n with
    | dir time => exact .inl ⟨.inl ⟨time, there⟩, rfl⟩
    | file content time =>
      have noDir : ¬ h.files.IsDir (here ++ [s]) := by simp [IsDir, there]
      exact .inr (.inr ⟨down, .inr noDir, _, rfl⟩)
  | none =>
    have noDir : ¬ h.files.IsDir (here ++ [s]) := by simp [IsDir, there]
    by_cases ends : (rest.contains "." && rest.all fun r => r = "" ∨ r = ".") = true
    · refine .inr (.inr ⟨down, .inr noDir, .notFound, ?_⟩)
      dsimp only
      rw [if_pos ends]
      rfl
    · refine .inr (.inl ⟨rfl, rfl, ?_⟩)
      dsimp only
      rw [if_neg ends]
      rfl

theorem edits_left_makeWay {here : Location} {segments : List String} (sound : h.Sound)
    (dir : h.files.IsDir here) : h.Edits ∅ (left (makeWay here segments) h) := by
  induction segments generalizing here h with
  | nil => exact sound.edits
  | cons s rest ih =>
    obtain ⟨there, same⟩ | ⟨free, down, same⟩ | ⟨-, -, e, same⟩ := makeWay_cons here s rest h
    · rw [left_congr same]
      apply ih sound
      rcases there with there | stay | up
      · exact there
      · rwa [stay]
      · rw [up]
        exact sound.isDir_dropLast dir
    · rw [left_congr same]
      have grounded : h.files.Grounded (Path.next here s) := by
        rw [down]
        intro m r last
        obtain ⟨rfl, -⟩ := List.append_inj' last rfl
        exact dir
      have edits := edits_put_dir sound.rooted grounded free h.now
      have made : (h.put (Path.next here s) (.dir h.now)).files.IsDir (Path.next here s) := by
        rw [isDir_put, if_pos rfl]
        rfl
      exact (edits.trans (ih (edits.sound sound) made)).narrow (by simp)
    · rw [left_of_error same]
      exact sound.edits

theorem edits_left_createDirAll (sound : h.Sound) (p : Path) :
    h.Edits ∅ (left (createDirAll p) h) := by
  rw [createDirAll]
  split
  · exact sound.edits
  · show h.Edits ∅ (left (makeWay (h.startOf p) (Path.segments p)) h)
    apply edits_left_makeWay sound
    rw [startOf]
    split
    · exact sound.isDir_root
    · exact sound.working

/-- A temporary directory is made in a free place. -/
theorem makeTempDir_eq_ok (sound : h.Sound) (done : makeTempDir h = .ok p h') :
    p = nextTemp h h.tempDir ∧ h.Edits ∅ h' := by
  rw [makeTempDir, bind_get] at done
  obtain ⟨temp, mid, chosen, rest⟩ := bind_eq_ok_iff.mp done
  obtain ⟨rfl, rfl⟩ := freePath_eq_ok chosen
  obtain ⟨l, mid', asked, rest⟩ := bind_eq_ok_iff.mp rest
  obtain ⟨found, rfl⟩ := ask_eq_ok_iff.mp asked
  cases rest
  have free := get?_nextTemp mid' mid'.tempDir
  rw [place_of_resolve found] at free
  exact ⟨rfl, edits_put_dir sound.rooted (grounded_of_resolve sound.rooted found) free _⟩

theorem makeTempDir_eq_error (failed : makeTempDir h = .error e h') : h' = h := by
  rw [makeTempDir, bind_get] at failed
  rcases bind_eq_error_iff.mp failed with refused | ⟨temp, mid, chosen, rest⟩
  · exact freePath_eq_error refused
  obtain ⟨rfl, rfl⟩ := freePath_eq_ok chosen
  rcases bind_eq_error_iff.mp rest with refused | ⟨l, _, asked, rest⟩
  · exact (ask_eq_error_iff.mp refused).2
  · cases rest

/-- Removing a directory changes no file outside of it and leaves none inside, or it is refused. -/
theorem content?_left_removeDirAll (p : Path) (h : Host) (l : Location) :
    (left (removeDirAll p) h).files.content? l = h.files.content? l ∨
      p.place h.workingDir <+: l ∧ (left (removeDirAll p) h).files.content? l = none := by
  rw [left, removeDirAll_eq]
  split
  · rename_i h' removed
    split at removed
    · cases removed
    · rename_i m found
      rw [place_of_resolve found]
      split at removed <;> cases removed
      rw [content?_clear]
      split
      · exact .inr ⟨‹_›, rfl⟩
      · exact .inl rfl
  · rename_i h' refused
    left
    split at refused
    · cases refused
      rfl
    · split at refused <;> cases refused <;> rfl

/-- A temporary directory was made where nothing was, so that every file is as it is, or as it was
at first, once the directory is removed. -/
theorem content?_left_removeDirAll_nextTemp {start : Host} (sound : start.Sound)
    (here : h.workingDir = start.workingDir) (dir : Path) (l : Location) :
    (left (removeDirAll (nextTemp start dir)) h).files.content? l = h.files.content? l ∨
      (left (removeDirAll (nextTemp start dir)) h).files.content? l = start.files.content? l := by
  rcases content?_left_removeDirAll (nextTemp start dir) h l with same | ⟨below, gone⟩
  · exact .inl same
  · rw [here] at below
    have free := sound.rooted.content?_eq_none_of_prefix (get?_nextTemp start dir) below
    exact .inr (gone.trans free.symm)

theorem workingDir_left_removeDirAll (p : Path) (h : Host) :
    (left (removeDirAll p) h).workingDir = h.workingDir := by
  rw [left, removeDirAll_eq]
  cases h.resolve p with
  | error e => rfl
  | ok l =>
    dsimp only
    rcases h.files.get? l with _ | (_ | _) <;> rfl

theorem isDir_left_removeDirAll (dir : h.files.IsDir l) (apart : ¬ p.place h.workingDir <+: l) :
    (left (removeDirAll p) h).files.IsDir l := by
  rw [left, removeDirAll_eq]
  cases found : h.resolve p with
  | error e => exact dir
  | ok m =>
    rw [place_of_resolve found] at apart
    dsimp only
    rcases h.files.get? m with _ | (_ | _)
    · exact dir
    · exact dir
    · exact isDir_clear.mpr ⟨apart, dir⟩

/-- A host is sound without a temporary directory, since the working directory is not in it. -/
theorem sound_left_removeDirAll_nextTemp {start : Host} (sound : start.Sound) (later : h.Sound)
    (here : h.workingDir = start.workingDir) (dir : Path) :
    (left (removeDirAll (nextTemp start dir)) h).Sound where
  rooted := by
    rw [left, removeDirAll_eq]
    cases h.resolve (nextTemp start dir) with
    | error e => exact later.rooted
    | ok m =>
      dsimp only
      rcases h.files.get? m with _ | (_ | _)
      · exact later.rooted
      · exact later.rooted
      · exact rooted_clear later.rooted
  working := by
    rw [workingDir_left_removeDirAll]
    refine isDir_left_removeDirAll later.working fun below => ?_
    rw [here] at below
    obtain ⟨time, there⟩ := sound.working
    have free := get?_nextTemp start dir
    have noDir : ¬ start.files.IsDir ((nextTemp start dir).place start.workingDir) := fun dir => by
      simpa [free] using dir.isSome
    by_cases same : start.workingDir = (nextTemp start dir).place start.workingDir
    · exact noDir (same ▸ sound.working)
    · have nothing := sound.rooted.get?_eq_none_of_prefix noDir below same
      simp [nothing] at there

/-- A path that avoids a directory leads where it led after the removal. -/
theorem resolve_left_removeDirAll {q : Path} (avoids : q.Avoids h.workingDir (p.place h.workingDir))
    (found : h.resolve q = .ok l) : (left (removeDirAll p) h).resolve q = .ok l :=
  resolve_mono (workingDir_left_removeDirAll p h)
    (fun n dir => isDir_left_removeDirAll dir (avoids n)) found

/-- A path that avoids a directory leads to the same file after the removal. -/
theorem read_left_removeDirAll {q : Path} (avoids : q.Avoids h.workingDir (p.place h.workingDir))
    (read : h.read q = .ok content) : (left (removeDirAll p) h).read q = .ok content := by
  obtain ⟨m, found, there⟩ := read_eq_ok_iff.mp read
  refine read_eq_ok_iff.mpr ⟨m, resolve_left_removeDirAll avoids found, ?_⟩
  rcases content?_left_removeDirAll p h m with same | ⟨below, -⟩
  · rw [same, there]
  · rw [← place_of_resolve found] at below
    exact absurd below avoids.not_prefix_place

end Tracepoint.FileAction
