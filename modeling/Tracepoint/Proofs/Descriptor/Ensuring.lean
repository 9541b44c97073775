import Tracepoint.Proofs.Descriptor.Insertion
import Tracepoint.Proofs.Run.Sparing

/-!
# Permissions that are ensured

To ensure a permission reads the descriptor, and writes it with one line more if the permission is
not declared. What is written declares the permission, so to ensure it again leaves the host as it
is (`render_and_ensure`).
-/

namespace Tracepoint.Descriptor

/-! ### Names in order -/

theorem mem_insertName {n name : String} {names : List String} :
    n ∈ insertName name names ↔ n = name ∨ n ∈ names := by
  induction names with
  | nil => simp [insertName]
  | cons m rest ih =>
    rw [insertName]
    split
    · rw [List.mem_cons]
    · split
      · rename_i same
        simp [same]
      · rw [List.mem_cons, ih, List.mem_cons, or_left_comm]

theorem mem_foldl_insertName {n : String} {names set : List String} :
    n ∈ names.foldl (fun s m => insertName m s) set ↔ n ∈ set ∨ n ∈ names := by
  induction names generalizing set with
  | nil => simp
  | cons m rest ih =>
    rw [List.foldl_cons, ih, mem_insertName, List.mem_cons, or_assoc, or_left_comm]

theorem mem_nameSet {n : String} {names : List String} : n ∈ nameSet names ↔ n ∈ names := by
  simp [nameSet, mem_foldl_insertName]

/-- An editor that was just opened has the permissions of its text. -/
theorem has_ofContent {p : Path} {text name : String} :
    (Editor.ofContent p text).has name = true ↔ name ∈ permissions text := by
  simp [Editor.has, Editor.ofContent, mem_nameSet]

/-- What an editor that was just opened queues. -/
theorem add_ofContent (p : Path) {text name : String} (absent : name ∉ permissions text) :
    (Editor.ofContent p text).add name = ⟨p, text, nameSet (permissions text), [name]⟩ := by
  rw [Editor.add, if_neg (by simpa [Editor.ofContent, mem_nameSet] using absent)]
  rfl

/-! ### Files -/

variable {h h' : Host} {p content : Path} {name : String} {changed : Bool}

theorem openAt_of_readText {text : String} (read : h.readText p = .ok text) :
    Editor.openAt p h = .ok (.ofContent p text) h :=
  bind_eq_ok_iff.mpr ⟨text, h, within_ask_eq_ok_iff.mpr ⟨read, rfl⟩, rfl⟩

/-- A permission that is declared is left alone. -/
theorem ensure_of_declared {text : String} (read : h.readText (pathIn content) = .ok text)
    (declared : name ∈ permissions text) : ensure content name h = .ok false h := by
  refine bind_eq_ok_iff.mpr ⟨_, h, openAt_of_readText read, ?_⟩
  rw [if_pos (has_ofContent.mpr declared)]
  rfl

/-- An editor with something queued writes what it renders. -/
theorem writeOut_eq_ok {e e' : Editor} {n : Nat} (queued : e.queued ≠ [])
    (done : e.writeOut h = .ok (n, e') h') :
    ∃ rendered, e.render = .ok rendered ∧
      FileAction.write e.path rendered.toUTF8 h = .ok () h' := by
  rw [Editor.writeOut, if_neg (by simpa using queued)] at done
  cases renders : e.render with
  | error fault =>
    rw [renders] at done
    cases done
  | ok rendered =>
    rw [renders] at done
    obtain ⟨_, mid, written, returned⟩ := bind_eq_ok_iff.mp done
    cases returned
    exact ⟨rendered, rfl, adaptExcept_eq_ok_iff.mp written⟩

/-- A write-out of something puts what it renders into the file. -/
theorem exists_writeOut {e : Editor} {rendered : String} {l : Location} {old : ByteArray}
    (sound : h.Sound) (queued : e.queued ≠ []) (renders : e.render = .ok rendered)
    (leads : h.resolve e.path = .ok l) (file : h.files.content? l = some old) :
    ∃ h', e.writeOut h = .ok (e.queued.length, e.commit rendered) h' ∧ h.Edits {l} h' ∧
      h'.files.content? l = some rendered.toUTF8 := by
  obtain ⟨h', written⟩ : ∃ h', FileAction.write e.path rendered.toUTF8 h = .ok () h' := by
    rw [FileAction.write_eq, leads]
    dsimp only
    split
    · rename_i dir
      simp [FileTree.content?, dir, Node.content?] at file
    · exact ⟨_, rfl⟩
  obtain ⟨edits, holds⟩ := FileAction.write_at sound leads written
  refine ⟨h', ?_, edits, holds⟩
  rw [Editor.writeOut, if_neg (by simpa using queued), renders]
  exact bind_eq_ok_iff.mpr ⟨(), h', adaptExcept_eq_ok_iff.mpr written, rfl⟩

/-- A permission that is not declared is put in, if the text has a closing tag. -/
theorem ensure_of_absent {text : String} {k : Nat} (sound : h.Sound)
    (read : h.readText (pathIn content) = .ok text) (absent : name ∉ permissions text)
    (last : IsLastClosing text.toList k) : ∃ h', ensure content name h = .ok true h' ∧
      h'.readText (pathIn content) = .ok (String.ofList (withLines [name] k text.toList)) := by
  obtain ⟨l, leads, there⟩ := FileAction.read_eq_ok_iff.mp (FileAction.readText_eq_ok read)
  have lacks : (Editor.ofContent (pathIn content) text).has name = false :=
    eq_false_of_ne_true fun declared => absent (has_ofContent.mp declared)
  have added := add_ofContent (pathIn content) absent
  have renders := render_eq_ok (e := (Editor.ofContent (pathIn content) text).add name)
    (k := k) (by rw [added]; exact last)
  rw [added] at renders
  obtain ⟨h', written, edits, holds⟩ := exists_writeOut sound (by simp) renders leads there
  refine ⟨h', bind_eq_ok_iff.mpr ⟨_, h, openAt_of_readText read, ?_⟩,
    FileAction.readText_of_read (FileAction.read_eq_ok_iff.mpr ⟨l, ?_, holds⟩)⟩
  · rw [lacks, if_neg Bool.false_ne_true, added]
    exact bind_eq_ok_iff.mpr ⟨_, h', written, rfl⟩
  · rw [edits.resolve leads]

/-- A permission that is ensured was declared, and nothing has changed, or its line is put in. -/
theorem ensure_eq_ok (sound : h.Sound) (done : ensure content name h = .ok changed h') :
    ∃ text, h.readText (pathIn content) = .ok text ∧
      (name ∈ permissions text ∧ changed = false ∧ h' = h ∨
        name ∉ permissions text ∧ ∃ k, IsLastClosing text.toList k ∧
          h'.readText (pathIn content) =
            .ok (String.ofList (withLines [name] k text.toList))) := by
  obtain ⟨e, mid, opened, rest⟩ := bind_eq_ok_iff.mp done
  obtain ⟨rfl, text, l, rfl, leads, there⟩ := openAt_eq_ok opened
  have read := FileAction.readText_of_read (FileAction.read_eq_ok_iff.mpr ⟨l, leads, there⟩)
  refine ⟨text, read, ?_⟩
  split at rest
  · rename_i declared
    cases rest
    exact .inl ⟨has_ofContent.mp declared, rfl, rfl⟩
  · rename_i lacks
    have absent : name ∉ permissions text := fun declared => lacks (has_ofContent.mpr declared)
    have added := add_ofContent (pathIn content) absent
    obtain ⟨⟨n, e'⟩, last, written, returned⟩ := bind_eq_ok_iff.mp rest
    cases returned
    rw [added] at written
    obtain ⟨rendered, renders, written⟩ := writeOut_eq_ok (by simp) written
    obtain ⟨k, closing, rfl⟩ := exists_last_of_render (by simp) renders
    obtain ⟨edits, holds⟩ := FileAction.write_at sound leads written
    refine .inr ⟨absent, k, closing, FileAction.readText_of_read
      (FileAction.read_eq_ok_iff.mpr ⟨l, ?_, holds⟩)⟩
    rw [edits.resolve leads]

/-! ### A sample -/

/-- A descriptor without permissions, with a closing tag in a comment. -/
def sampleText : String :=
  "<manifest package=\"a.b\"><!-- </manifest> --></manifest>"

/-- A host with a descriptor in extracted content. -/
def sampleHost : Host where
  files :=
    { entries :=
        [([], .dir 0), (["app"], .dir 0),
          (["app", "AndroidManifest.xml"], .file sampleText.toUTF8 1)]
      distinct := by simp }
  workingDir := []
  tempDir := "/tmp"
  home := none
  now := 2

theorem sound_sampleHost : sampleHost.Sound where
  rooted := by
    refine FileTree.rooted_of_entries fun l member _ => ?_
    simp only [sampleHost, List.map_cons, List.map_nil, List.mem_cons, List.not_mem_nil,
      or_false] at member
    rcases member with rfl | rfl | rfl
    iterate 2 exact ⟨0, rfl⟩
    exact ⟨0, rfl⟩
  working := ⟨0, rfl⟩

/-- The same host with another descriptor. -/
def hostOf (text : String) : Host :=
  sampleHost.put ["app", "AndroidManifest.xml"] (.file text.toUTF8 1)

theorem sound_hostOf (text : String) : (hostOf text).Sound := by
  refine (Host.edits_put sound_sampleHost.rooted ?_ ?_).sound sound_sampleHost
  · intro m s there
    have below : ["app"] ++ ["AndroidManifest.xml"] = m ++ [s] := there
    obtain ⟨rfl, -⟩ := List.append_inj' below rfl
    exact ⟨0, rfl⟩
  · have file : sampleHost.files.content? ["app", "AndroidManifest.xml"] =
        some sampleText.toUTF8 := rfl
    exact FileTree.not_isDir_of_content? file

theorem readText_hostOf (text : String) : (hostOf text).readText (pathIn "/app") = .ok text :=
  FileAction.readText_of_read rfl

/-- **Rendering declares what is queued, and what is ensured is declared.** An editor puts its lines
in front of the last uncommented closing tag; with lines that stand apart, the text declares the
old permissions and the queued ones, and the old package. So to ensure a permission again changes
nothing. -/
theorem render_and_ensure :
    (∀ (e : Editor), (∃ k, IsClosing e.content.toList k) → (∀ n ∈ e.queued, IsPermission n) →
      (∀ k, IsLastClosing e.content.toList k → StandApart e.queued k e.content.toList) →
        ∃ k rendered, IsLastClosing e.content.toList k ∧ e.render = .ok rendered ∧
          Declares e.queued k e.content rendered) ∧
      ∀ (content : Path) (name : String) (changed : Bool) (h h' : Host), h.Sound →
        IsPermission name →
        (∀ text k, h.readText (pathIn content) = .ok text → name ∉ permissions text →
          IsLastClosing text.toList k → StandApart [name] k text.toList) →
        ensure content name h = .ok changed h' → ensure content name h' = .ok false h' := by
  constructor
  · rintro e ⟨_, closing⟩ named apart
    obtain ⟨k, last⟩ := closing.exists_last
    exact ⟨k, _, last, render_eq_ok last,
      declares_withLines last.closing named (apart k last) String.toList_ofList⟩
  · intro content name changed h h' sound named apart done
    obtain ⟨text, read, ⟨declared, -, rfl⟩ | ⟨absent, k, last, read'⟩⟩ := ensure_eq_ok sound done
    · exact ensure_of_declared read declared
    · have declares := declares_withLines last.closing (List.forall_mem_singleton.mpr named)
        (apart text k read absent last) String.toList_ofList
      exact ensure_of_declared read'
        ((declares.permissions name).mpr (.inr (List.mem_singleton.mpr rfl)))

theorem render_and_ensure_sample :
    (∃ rendered, (⟨"m.xml", sampleText, [], ["a.B", "c.D"]⟩ : Editor).render = .ok rendered ∧
      Declares ["a.B", "c.D"] 44 sampleText rendered) ∧
      ∃ h', ensure "/app" internetPermission sampleHost = .ok true h' ∧
        ensure "/app" internetPermission h' = .ok false h' := by
  obtain ⟨renders, ensures⟩ := render_and_ensure
  have last : IsLastClosing sampleText.toList 44 := by decide +kernel
  have only (k : Nat) (last' : IsLastClosing sampleText.toList k) : k = 44 :=
    Nat.le_antisymm (last.last k last'.closing) (last'.last 44 last.closing)
  constructor
  · obtain ⟨k, rendered, last', rendersOk, declares⟩ :=
      renders ⟨"m.xml", sampleText, [], ["a.B", "c.D"]⟩ ⟨44, last.closing⟩ (by decide)
        fun k last' => by
          cases only k last'
          decide +kernel
    cases only k last'
    exact ⟨rendered, rendersOk, declares⟩
  · have done : (match ensure "/app" internetPermission sampleHost with
        | .ok changed _ => changed
        | .error _ _ => false) = true := by
      decide +kernel
    split at done
    · rename_i changed h' ran
      subst done
      refine ⟨h', ran, ensures "/app" internetPermission true sampleHost h' sound_sampleHost
        (by decide) ?_ ran⟩
      intro text k read _ last'
      have holds : sampleHost.readText (pathIn "/app") = .ok sampleText :=
        FileAction.readText_of_read rfl
      cases read.symm.trans holds
      cases only k last'
      decide +kernel
    · cases done

end Tracepoint.Descriptor
