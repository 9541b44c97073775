import Tracepoint.Proofs.Files.Listing

/-!
# Hosts that receive files

A host that receives some files (`Host.Receives`) holds, in every place of theirs, what was put
there last. It keeps its directories and all other files, down to the times of their last change,
and has no new directories but those that were missing on some way. Nothing is asked of the host:
a file may be put wherever no directory stands, and a directory wherever nothing stands.
-/

namespace Tracepoint

/-- The places on the way along a path. -/
def Path.way (workingDir : Location) (p : Path) : Set Location :=
  {l | ∃ n, l = follow (if isAbsolute p then [] else workingDir) ((segments p).take n)}

namespace Host

open FileTree

/-- A host has received some files, one after another, and perhaps some of the directories on a
way. -/
structure Receives (way : Set Location) (files : List (Location × ByteArray)) (h h' : Host) :
    Prop where
  workingDir : h'.workingDir = h.workingDir
  dirs : ∀ l, h.files.IsDir l → h'.files.IsDir l
  made : ∀ l, h'.files.IsDir l → h.files.IsDir l ∨ l ∈ way
  /-- The last of the files for a place is the one that is there. -/
  held : ∀ l content, files.reverse.lookup l = some content → h'.files.content? l = some content
  others : ∀ l ∉ files.map Prod.fst, ∀ content time,
    h'.files.get? l = some (.file content time) ↔ h.files.get? l = some (.file content time)

variable {h h' h'' : Host} {way : Set Location} {files files' : List (Location × ByteArray)}
  {l : Location} {content : ByteArray} {dir : Path} {n : String}

theorem content?_eq_some_iff {t : FileTree} :
    t.content? l = some content ↔ ∃ time, t.get? l = some (.file content time) := by
  rw [content?]
  rcases t.get? l with _ | (_ | _) <;> simp [Node.content?]

theorem lookup_reverse_eq_none_iff :
    files.reverse.lookup l = none ↔ l ∉ files.map Prod.fst := by
  simp only [List.lookup_eq_none_iff, List.mem_reverse, List.mem_map, not_exists, not_and,
    bne_iff_ne]
  exact forall₂_congr fun _ _ => ne_comm

namespace Receives

theorem refl (way : Set Location) (h : Host) : h.Receives way [] h where
  workingDir := rfl
  dirs _ dir := dir
  made _ dir := .inl dir
  held _ _ none := by cases none
  others _ _ _ _ := Iff.rfl

theorem content? (received : h.Receives way files h') (other : l ∉ files.map Prod.fst) :
    h'.files.content? l = h.files.content? l := by
  apply Option.ext
  intro content
  simp only [content?_eq_some_iff, received.others l other]

/-- What is received later is what is there. -/
theorem trans (first : h.Receives way files h') (next : h'.Receives way files' h'') :
    h.Receives way (files ++ files') h'' where
  workingDir := next.workingDir.trans first.workingDir
  dirs l dir := next.dirs l (first.dirs l dir)
  made l dir := by
    rcases next.made l dir with before | onWay
    · exact first.made l before
    · exact .inr onWay
  held l content last := by
    rw [List.reverse_append, List.lookup_append] at last
    cases later : files'.reverse.lookup l with
    | some newest =>
      rw [later, Option.some_or] at last
      exact next.held l content (later.trans last)
    | none =>
      rw [later, Option.none_or] at last
      rw [next.content? (lookup_reverse_eq_none_iff.mp later)]
      exact first.held l content last
  others l other content time := by
    rw [List.map_append, List.mem_append, not_or] at other
    exact (next.others l other.2 content time).trans (first.others l other.1 content time)

theorem resolve (received : h.Receives way files h') {p : Path} (leads : h.resolve p = .ok l) :
    h'.resolve p = .ok l :=
  resolve_mono received.workingDir (fun _ => received.dirs _) leads

theorem mono {way' : Set Location} (received : h.Receives way files h') (more : way ⊆ way') :
    h.Receives way' files h' where
  workingDir := received.workingDir
  dirs := received.dirs
  made l dir := (received.made l dir).imp_right fun onWay => more onWay
  held := received.held
  others := received.others

/-- Where there was a file, there is one after others were received. -/
theorem isSome_content? (received : h.Receives way files h')
    (held : (h.files.content? l).isSome) : (h'.files.content? l).isSome := by
  cases last : files.reverse.lookup l with
  | some content =>
    rw [received.held l content last]
    rfl
  | none => rwa [received.content? (lookup_reverse_eq_none_iff.mp last)]

theorem mem_filesIn (received : h.Receives way files h') (member : n ∈ h.filesIn dir) :
    n ∈ h'.filesIn dir := by
  obtain ⟨⟨l, leads, there, listed⟩, file⟩ := mem_filesIn_iff.mp member
  obtain ⟨k, leads', held⟩ := FileAction.isFile_iff.mp file
  refine mem_filesIn_iff.mpr ⟨⟨l, received.resolve leads, received.dirs l there, ?_⟩, ?_⟩
  · rw [FileTree.isSome_get?_iff] at listed ⊢
    exact listed.imp (received.dirs _) received.isSome_content?
  · exact FileAction.isFile_iff.mpr ⟨k, received.resolve leads', received.isSome_content? held⟩

/-- The files in a directory are those that were there and those that it has received. -/
theorem mem_filesIn_or (received : h.Receives ∅ files h') (leads : h.resolve dir = .ok l)
    (names : ∀ n ∈ h.files.names l, Path.IsName n) (member : n ∈ h'.filesIn dir) :
    n ∈ h.filesIn dir ∨ l ++ [n] ∈ files.map Prod.fst := by
  obtain ⟨⟨l', leads', there, listed⟩, file⟩ := mem_filesIn_iff.mp member
  obtain ⟨k, found, held⟩ := FileAction.isFile_iff.mp file
  obtain rfl : l = l' := Except.ok.inj ((received.resolve leads).symm.trans leads')
  have dirs (m : Location) (dir : h'.files.IsDir m) : h.files.IsDir m :=
    (received.made m dir).resolve_right (Set.notMem_empty m)
  by_cases new : l ++ [n] ∈ files.map Prod.fst
  · exact .inr new
  · have before : (h.files.get? (l ++ [n])).isSome := by
      rw [FileTree.isSome_get?_iff, received.content? new] at listed
      exact FileTree.isSome_get?_iff.mpr (listed.imp_left (dirs _))
    have place : k = l ++ [n] := by
      rw [← place_of_resolve found, Path.place_join (names n (FileTree.mem_names_iff.mpr before)),
        place_of_resolve leads']
    subst place
    rw [received.content? new] at held
    exact .inl (mem_filesIn_iff.mpr ⟨⟨l, leads, dirs l there, before⟩, FileAction.isFile_iff.mpr
      ⟨_, resolve_mono received.workingDir.symm (fun _ => dirs _) found, held⟩⟩)

end Receives

/-! ### What is put in a place -/

theorem get?_touch_eq_file_iff {t : FileTree} {m : Location} {now time : Int} :
    (t.touch l now).get? m = some (.file content time) ↔
      t.get? m = some (.file content time) := by
  rw [touch]
  split
  · rename_i here
    by_cases same : m = l
    · simp [same, here]
    · simp [same]
  · rfl

theorem get?_put_eq_file_iff {m : Location} {n : Node} {time : Int} (other : m ≠ l) :
    (h.put l n).files.get? m = some (.file content time) ↔
      h.files.get? m = some (.file content time) := by
  rw [put]
  split <;> simp [other, get?_touch_eq_file_iff]

/-- A file may be put where no directory stands. -/
theorem receives_put_file (noDir : ¬ h.files.IsDir l) (content : ByteArray) (time : Int) :
    h.Receives way [(l, content)] (h.put l (.file content time)) where
  workingDir := rfl
  dirs m dir := by
    rw [isDir_put, if_neg]
    · exact dir
    · rintro rfl
      exact noDir dir
  made m dir := by
    rw [isDir_put] at dir
    split at dir
    · cases dir
    · exact .inl dir
  held m c last := by
    rw [List.reverse_singleton, List.lookup_cons] at last
    split at last
    · rename_i same
      obtain rfl := beq_iff_eq.mp same
      rw [content?_put, if_pos rfl]
      exact last
    · cases last
  others m other _ _ := get?_put_eq_file_iff (by simpa using other)

/-- A directory may be put where nothing stands. -/
theorem receives_put_dir (free : h.files.get? l = none) (onWay : l ∈ way) (time : Int) :
    h.Receives way [] (h.put l (.dir time)) where
  workingDir := rfl
  dirs m dir := by
    rw [isDir_put]
    split
    · rfl
    · exact dir
  made m dir := by
    rw [isDir_put] at dir
    split at dir
    · rename_i same
      exact .inr (same ▸ onWay)
    · exact .inl dir
  held _ _ none := by cases none
  others m _ _ _ := by
    by_cases same : m = l
    · subst same
      simp [put, free]
    · exact get?_put_eq_file_iff same

end Host

namespace FileAction

open Host FileTree

variable {h h' : Host} {way : Set Location}

/-- Directories that are made on a way are all that a host receives then, however it ends. -/
theorem receives_left_makeWay {here : Location} {segments : List String}
    (onWay : ∀ n, Path.follow here (segments.take n) ∈ way) :
    h.Receives way [] (left (makeWay here segments) h) := by
  induction segments generalizing here h with
  | nil => exact .refl way h
  | cons s rest ih =>
    have later (n : Nat) : Path.follow (Path.next here s) (rest.take n) ∈ way := onWay (n + 1)
    obtain ⟨-, same⟩ | ⟨free, -, same⟩ | ⟨-, -, e, same⟩ := makeWay_cons here s rest h
    · rw [left_congr same]
      exact ih later
    · rw [left_congr same]
      exact (receives_put_dir free (later 0) h.now).trans (ih later)
    · rw [left_of_error same]
      exact .refl way h

/-- Making a directory changes nothing but what is missing on the way along its path. -/
theorem receives_left_createDirAll (p : Path) (h : Host) :
    h.Receives (p.way h.workingDir) [] (left (createDirAll p) h) := by
  rw [createDirAll]
  split
  · exact .refl _ h
  · exact receives_left_makeWay fun n => ⟨n, rfl⟩

/-- A file that is written is received at the place of its path. -/
theorem receives_of_write {p : Path} {content : ByteArray} (done : write p content h = .ok () h') :
    h.Receives ∅ [(p.place h.workingDir, content)] h' := by
  rw [write_eq] at done
  split at done
  · cases done
  · rename_i l found
    rw [place_of_resolve found]
    split at done
    · cases done
    · rename_i free
      cases done
      exact receives_put_file (fun ⟨time, there⟩ => free time there) content h.now

end FileAction

end Tracepoint
