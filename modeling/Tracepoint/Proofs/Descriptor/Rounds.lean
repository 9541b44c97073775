import Tracepoint.Proofs.Descriptor.Ensuring

/-!
# Rounds of additions

An editor over one file takes names and writes them out, any number of times and in any order. Each
write-out puts in one batch: the names that were added in front of it and are neither declared nor
in an earlier batch, in order (`Rounds`). Text, declared names, queued names and file go together
through every command (`InStep`), since the lines of the earlier batches leave the closing tag where
it can be found again (`splitAtClosing?_withLines`). So at any time the file is the original text
with all batches in front of its last uncommented closing tag (`follow_rounds`).
-/

namespace Tracepoint.Descriptor

open Editor (line)

/-- An editor with the files that it works on, and what its write-outs have answered. -/
structure Desk where
  editor : Editor
  host : Host
  answers : List (Except Fault Nat)

/-- What an editor is asked to do. -/
inductive Command where
  | add (name : String)
  | writeOut
  deriving DecidableEq

/-- What a command leaves. A write-out that fails leaves the editor as it was. -/
def Command.apply (d : Desk) : Command → Desk
  | add name => { d with editor := d.editor.add name }
  | writeOut =>
    match d.editor.writeOut d.host with
    | .ok (n, e) h => ⟨e, h, d.answers ++ [.ok n]⟩
    | .error fault h => ⟨d.editor, h, d.answers ++ [.error fault]⟩

namespace Desk

/-- The editor of the text of a file. -/
def opened (p : Path) (text : String) (h : Host) : Desk :=
  ⟨.ofContent p text, h, []⟩

/-- What some commands leave. -/
def follow (d : Desk) (commands : List Command) : Desk :=
  commands.foldl Command.apply d

@[simp] theorem follow_concat (d : Desk) (commands : List Command) (c : Command) :
    d.follow (commands ++ [c]) = c.apply (d.follow commands) := by
  simp [follow]

end Desk

/-- The batches that some commands write out: for each write-out, in order, the names that were
added in front of it and are neither declared nor in an earlier batch. -/
inductive Rounds (declared : List String) : List Command → List (List String) → Prop where
  | nil : Rounds declared [] []
  | add {commands : List Command} {batches : List (List String)} {name : String}
      (earlier : Rounds declared commands batches) :
      Rounds declared (commands ++ [.add name]) batches
  | writeOut {commands : List Command} {batches : List (List String)} {batch : List String}
      (earlier : Rounds declared commands batches) (ordered : batch.Pairwise (· < ·))
      (names : ∀ n, n ∈ batch ↔ .add n ∈ commands ∧ n ∉ declared ∧ n ∉ batches.flatten) :
      Rounds declared (commands ++ [.writeOut]) (batches ++ [batch])

/-- A name is added in front of some write-out. -/
def IsWritten (commands : List Command) (name : String) : Prop :=
  ∃ front rest, commands = front ++ .writeOut :: rest ∧ .add name ∈ front

variable {declared : List String} {commands : List Command} {batches : List (List String)}
  {n name text : String} {p : Path} {l : Location} {k : Nat} {d : Desk} {h : Host}

/-! ### Batches -/

theorem Rounds.ordered (rounds : Rounds declared commands batches) :
    ∀ batch ∈ batches, batch.Pairwise (· < ·) := by
  induction rounds with
  | nil => simp
  | add _ ih => exact ih
  | writeOut _ ordered _ ih =>
    intro batch member
    rcases List.mem_append.mp member with earlier | last
    · exact ih batch earlier
    · rwa [List.mem_singleton.mp last]

theorem nodup_of_ordered {names : List String} (ordered : names.Pairwise (· < ·)) :
    names.Nodup := by
  refine List.Pairwise.imp (fun {a b} less => ?_) ordered
  rintro rfl
  exact String.lt_irrefl a less

/-- No name is in two batches, or twice in one. -/
theorem Rounds.nodup (rounds : Rounds declared commands batches) : batches.flatten.Nodup := by
  induction rounds with
  | nil => simp
  | add _ ih => exact ih
  | writeOut _ ordered names ih =>
    rw [List.flatten_concat, List.nodup_append]
    refine ⟨ih, nodup_of_ordered ordered, fun a earlier b last same => ?_⟩
    subst same
    exact ((names a).mp last).2.2 earlier

theorem isWritten_concat_add : IsWritten (commands ++ [.add name]) n ↔ IsWritten commands n := by
  constructor
  · rintro ⟨front, rest, split, member⟩
    rcases List.eq_nil_or_concat rest with rfl | ⟨rest, c, rfl⟩
    · cases (List.append_inj' split rfl).2
    · rw [List.concat_eq_append, ← List.cons_append, ← List.append_assoc] at split
      exact ⟨front, rest, (List.append_inj' split rfl).1, member⟩
  · rintro ⟨front, rest, rfl, member⟩
    exact ⟨front, rest ++ [.add name], by simp, member⟩

theorem isWritten_concat_writeOut :
    IsWritten (commands ++ [.writeOut]) n ↔ .add n ∈ commands := by
  constructor
  · rintro ⟨front, rest, split, member⟩
    have inside := List.mem_append_left (.writeOut :: rest) member
    rw [← split] at inside
    simpa using inside
  · exact fun member => ⟨commands, [], rfl, member⟩

theorem IsWritten.mem (written : IsWritten commands n) : .add n ∈ commands := by
  obtain ⟨front, rest, rfl, member⟩ := written
  exact List.mem_append_left _ member

/-- A name is in a batch if it is not declared and was added in front of some write-out. -/
theorem Rounds.mem_flatten_iff (rounds : Rounds declared commands batches) :
    n ∈ batches.flatten ↔ n ∉ declared ∧ IsWritten commands n := by
  induction rounds with
  | nil => simp [IsWritten]
  | add _ ih => rw [ih, isWritten_concat_add]
  | @writeOut _ batches _ _ _ names ih =>
    rw [List.flatten_concat, List.mem_append, names, isWritten_concat_writeOut]
    constructor
    · rintro (earlier | ⟨added, new, -⟩)
      · obtain ⟨new, written⟩ := ih.mp earlier
        exact ⟨new, written.mem⟩
      · exact ⟨new, added⟩
    · rintro ⟨new, added⟩
      by_cases earlier : n ∈ batches.flatten
      · exact .inl earlier
      · exact .inr ⟨added, new, earlier⟩

theorem mem_concat_add :
    Command.add n ∈ commands ++ [.add name] ↔ .add n ∈ commands ∨ n = name := by
  simp

theorem mem_concat_writeOut : Command.add n ∈ commands ++ [.writeOut] ↔ .add n ∈ commands := by
  simp

/-! ### Names in order -/

theorem pairwise_insertName {names : List String} (ordered : names.Pairwise (· < ·)) :
    (insertName name names).Pairwise (· < ·) := by
  induction ordered with
  | nil => simp [insertName]
  | @cons m rest least later ih =>
    rw [insertName]
    split
    · rename_i less
      refine .cons (fun a member => ?_) (.cons least later)
      rcases List.mem_cons.mp member with rfl | behind
      · exact less
      · exact String.lt_trans less (least a behind)
    · rename_i least'
      split
      · exact .cons least later
      · rename_i other
        refine .cons (fun a member => ?_) ih
        rcases mem_insertName.mp member with rfl | behind
        · by_contra least''
          exact other (String.le_antisymm (String.not_lt.mp least'') (String.not_lt.mp least'))
        · exact least a behind

/-! ### Additions -/

section Add

variable (e : Editor) (name : String)

@[simp] theorem path_add : (e.add name).path = e.path := by
  rw [Editor.add]
  split <;> rfl

@[simp] theorem content_add : (e.add name).content = e.content := by
  rw [Editor.add]
  split <;> rfl

@[simp] theorem declared_add : (e.add name).declared = e.declared := by
  rw [Editor.add]
  split <;> rfl

theorem mem_queued_add : n ∈ (e.add name).queued ↔ n ∈ e.queued ∨ n = name ∧ n ∉ e.declared := by
  rw [Editor.add]
  by_cases declared : name ∈ e.declared
  · rw [if_pos (List.contains_iff_mem.mpr declared)]
    refine ⟨.inl, ?_⟩
    rintro (queued | ⟨rfl, new⟩)
    · exact queued
    · exact absurd declared new
  · rw [if_neg (by simpa using declared), mem_insertName]
    constructor
    · rintro (rfl | queued)
      · exact .inr ⟨rfl, declared⟩
      · exact .inl queued
    · rintro (queued | ⟨rfl, -⟩)
      · exact .inr queued
      · exact .inl rfl

theorem pairwise_queued_add (ordered : e.queued.Pairwise (· < ·)) :
    (e.add name).queued.Pairwise (· < ·) := by
  rw [Editor.add]
  split
  · exact ordered
  · exact pairwise_insertName ordered

end Add

/-! ### Write-outs -/

theorem writeOut_of_nothing {e : Editor} (nothing : e.queued = []) :
    e.writeOut h = .ok (0, e) h := by
  rw [Editor.writeOut, if_pos (by simpa using nothing)]
  rfl

theorem writeOut_of_fault {e : Editor} {fault : Fault} (queued : e.queued ≠ [])
    (renders : e.render = .error fault) : e.writeOut h = .error fault h := by
  rw [Editor.writeOut, if_neg (by simpa using queued), renders]
  rfl

/-! ### The editor and its file -/

/-- An editor and its file are where some commands lead, which have written out some batches, when
the file had a text with its last closing tag at a place. -/
structure InStep (text : String) (p : Path) (l : Location) (k : Nat) (commands : List Command)
    (batches : List (List String)) (d : Desk) : Prop where
  rounds : Rounds (permissions text) commands batches
  path : d.editor.path = p
  content : d.editor.content = String.ofList (withLines batches.flatten k text.toList)
  declared : ∀ n, n ∈ d.editor.declared ↔ n ∈ permissions text ∨ n ∈ batches.flatten
  queued : ∀ n, n ∈ d.editor.queued ↔ .add n ∈ commands ∧ n ∉ d.editor.declared
  ordered : d.editor.queued.Pairwise (· < ·)
  sound : d.host.Sound
  leads : d.host.resolve p = .ok l
  file : d.host.files.content? l = some d.editor.content.toUTF8
  answers : d.answers = batches.map fun batch => .ok batch.length

namespace InStep

theorem opened (sound : h.Sound) (leads : h.resolve p = .ok l)
    (file : h.files.content? l = some text.toUTF8) (k : Nat) :
    InStep text p l k [] [] (.opened p text h) where
  rounds := .nil
  path := rfl
  content := by simp [Desk.opened, Editor.ofContent, withLines]
  declared n := by simp [Desk.opened, Editor.ofContent, mem_nameSet]
  queued n := by simp [Desk.opened, Editor.ofContent]
  ordered := .nil
  sound := sound
  leads := leads
  file := file
  answers := rfl

theorem has_iff (inStep : InStep text p l k commands batches d) :
    d.editor.has n = true ↔ n ∈ permissions text ∨ .add n ∈ commands := by
  simp only [Editor.has, Bool.or_eq_true, List.contains_iff_mem, inStep.queued, inStep.declared,
    inStep.rounds.mem_flatten_iff]
  constructor
  · rintro ((declared | ⟨-, written⟩) | ⟨added, -⟩)
    · exact .inl declared
    · exact .inr written.mem
    · exact .inr added
  · rintro (declared | added)
    · exact .inl (.inl declared)
    · tauto

/-- A name that is added joins the queue, if it is not declared. -/
theorem add (inStep : InStep text p l k commands batches d) (name : String) :
    InStep text p l k (commands ++ [.add name]) batches (Command.apply d (.add name)) :=
  { inStep with
    rounds := inStep.rounds.add
    path := by rw [Command.apply, path_add, inStep.path]
    content := by rw [Command.apply, content_add, inStep.content]
    declared := fun n => by rw [Command.apply, declared_add, inStep.declared]
    queued := fun n => by
      rw [Command.apply, mem_queued_add, declared_add, inStep.queued, mem_concat_add]
      tauto
    ordered := pairwise_queued_add d.editor name inStep.ordered
    file := by rw [Command.apply, content_add, inStep.file] }

/-- A write-out makes a batch of the queue. -/
theorem writeOut (inStep : InStep text p l k commands batches d)
    (last : IsLastClosing text.toList k) (plain : ∀ n, .add n ∈ commands → IsPlain n) :
    InStep text p l k (commands ++ [.writeOut]) (batches ++ [d.editor.queued])
      (Command.apply d .writeOut) := by
  have names (n : String) : n ∈ d.editor.queued ↔
      .add n ∈ commands ∧ n ∉ permissions text ∧ n ∉ batches.flatten := by
    rw [inStep.queued, inStep.declared, not_or]
  have rounds := inStep.rounds.writeOut inStep.ordered names
  by_cases nothing : d.editor.queued = []
  · have next : Command.apply d .writeOut = { d with answers := d.answers ++ [.ok 0] } := by
      simp only [Command.apply, writeOut_of_nothing nothing]
    have flat : (batches ++ [d.editor.queued]).flatten = batches.flatten := by simp [nothing]
    rw [next]
    exact { inStep with
      rounds := rounds
      content := by rw [flat]; exact inStep.content
      declared := fun n => by rw [flat]; exact inStep.declared n
      queued := fun n => by rw [mem_concat_writeOut]; exact inStep.queued n
      answers := by simp [inStep.answers, nothing] }
  · have kept : ∀ n ∈ batches.flatten, IsPlain n := fun n member =>
      plain n (inStep.rounds.mem_flatten_iff.mp member).2.mem
    have found : splitAtClosing? 0 d.editor.content.toList =
        some (text.toList.take k ++ batches.flatten.flatMap line, text.toList.drop k) := by
      rw [inStep.content, String.toList_ofList, splitAtClosing?_withLines last kept]
    obtain ⟨h', written, edits, holds⟩ := exists_writeOut inStep.sound nothing
      (render_of_some d.editor nothing found) (inStep.path ▸ inStep.leads) inStep.file
    have declared (n : String) :
        n ∈ d.editor.queued.foldl (fun s m => insertName m s) d.editor.declared ↔
          n ∈ permissions text ∨ n ∈ (batches ++ [d.editor.queued]).flatten := by
      rw [mem_foldl_insertName, inStep.declared, List.flatten_concat, List.mem_append, or_assoc]
    simp only [Command.apply, written]
    exact {
      rounds := rounds
      path := inStep.path
      content := by simp [Editor.commit, withLines]
      declared := declared
      queued := fun n => by
        rw [mem_concat_writeOut]
        simp only [Editor.commit, declared, List.flatten_concat, List.mem_append, names,
          List.not_mem_nil]
        tauto
      ordered := .nil
      sound := edits.sound inStep.sound
      leads := by rw [edits.resolve inStep.leads]
      file := holds
      answers := by simp [inStep.answers] }

/-- Commands that name plain names keep an editor in step with its file. -/
theorem follow (sound : h.Sound) (leads : h.resolve p = .ok l)
    (file : h.files.content? l = some text.toUTF8) (last : IsLastClosing text.toList k)
    (plain : ∀ n, .add n ∈ commands → IsPlain n) :
    ∃ batches, InStep text p l k commands batches ((Desk.opened p text h).follow commands) := by
  induction commands using List.reverseRecOn with
  | nil => exact ⟨[], opened sound leads file k⟩
  | append_singleton front c ih =>
    have plain' : ∀ n, .add n ∈ front → IsPlain n := fun n member =>
      plain n (List.mem_append_left _ member)
    obtain ⟨batches, inStep⟩ := ih plain'
    rw [Desk.follow_concat]
    cases c with
    | add name => exact ⟨batches, inStep.add name⟩
    | writeOut => exact ⟨_, inStep.writeOut last plain'⟩

end InStep

/-! ### Without a closing tag -/

/-- An editor of a text without a closing tag is where some commands lead: nothing has been
written, and nothing will be. -/
structure Stuck (text : String) (p : Path) (h : Host) (commands : List Command) (d : Desk) :
    Prop where
  host : d.host = h
  path : d.editor.path = p
  content : d.editor.content = text
  declared : ∀ n, n ∈ d.editor.declared ↔ n ∈ permissions text
  queued : ∀ n, n ∈ d.editor.queued ↔ .add n ∈ commands ∧ n ∉ permissions text
  fails : d.editor.queued ≠ [] → Command.apply d .writeOut =
    { d with answers := d.answers ++ [.error (.badInput (.noClosingTag p))] }

namespace Stuck

/-- A write-out fails if there is something to write. -/
theorem apply_writeOut (open' : ∀ k, ¬ IsClosing text.toList k) (path : d.editor.path = p)
    (content : d.editor.content = text) (queued : d.editor.queued ≠ []) :
    Command.apply d .writeOut =
      { d with answers := d.answers ++ [.error (.badInput (.noClosingTag p))] } := by
  have absent : splitAtClosing? 0 d.editor.content.toList = none := by
    rw [content, Option.eq_none_iff_forall_ne_some]
    rintro ⟨x, z⟩ found
    obtain ⟨k, last, -, -⟩ := splitAtClosing?_eq_some_iff.mp found
    exact open' k last.closing
  have renders := render_of_none d.editor queued absent
  rw [path] at renders
  simp only [Command.apply, writeOut_of_fault queued renders]

theorem opened (open' : ∀ k, ¬ IsClosing text.toList k) :
    Stuck text p h [] (.opened p text h) where
  host := rfl
  path := rfl
  content := rfl
  declared n := by simp [Desk.opened, Editor.ofContent, mem_nameSet]
  queued n := by simp [Desk.opened, Editor.ofContent]
  fails := apply_writeOut open' rfl rfl

theorem add (stuck : Stuck text p h commands d) (open' : ∀ k, ¬ IsClosing text.toList k)
    (name : String) : Stuck text p h (commands ++ [.add name]) (Command.apply d (.add name)) := by
  have path : (d.editor.add name).path = p := by rw [path_add, stuck.path]
  have content : (d.editor.add name).content = text := by rw [content_add, stuck.content]
  exact {
    host := stuck.host
    path := path
    content := content
    declared := fun n => by rw [Command.apply, declared_add, stuck.declared]
    queued := fun n => by
      rw [Command.apply, mem_queued_add, stuck.queued, stuck.declared, mem_concat_add]
      tauto
    fails := apply_writeOut open' path content }

theorem writeOut (stuck : Stuck text p h commands d) (open' : ∀ k, ¬ IsClosing text.toList k) :
    Stuck text p h (commands ++ [.writeOut]) (Command.apply d .writeOut) := by
  obtain ⟨answer, next⟩ : ∃ answer,
      Command.apply d .writeOut = { d with answers := d.answers ++ [answer] } := by
    by_cases nothing : d.editor.queued = []
    · exact ⟨.ok 0, by simp only [Command.apply, writeOut_of_nothing nothing]⟩
    · exact ⟨_, stuck.fails nothing⟩
  rw [next]
  exact { stuck with
    queued := fun n => by rw [mem_concat_writeOut, stuck.queued]
    fails := apply_writeOut open' stuck.path stuck.content }

/-- Commands leave an editor of a text without a closing tag stuck. -/
theorem follow (open' : ∀ k, ¬ IsClosing text.toList k) (commands : List Command) :
    Stuck text p h commands ((Desk.opened p text h).follow commands) := by
  induction commands using List.reverseRecOn with
  | nil => exact opened open'
  | append_singleton front c ih =>
    rw [Desk.follow_concat]
    cases c with
    | add name => exact ih.add open' name
    | writeOut => exact ih.writeOut open'

end Stuck

/-! ### Any commands -/

/-- Some commands have written out some batches, into a file with a text whose last closing tag is
at a place. -/
structure Keeps (text : String) (p : Path) (k : Nat) (commands : List Command)
    (batches : List (List String)) (d : Desk) : Prop where
  rounds : Rounds (permissions text) commands batches
  file : d.host.readText p = .ok (String.ofList (withLines batches.flatten k text.toList))
  ordered : ∀ batch ∈ batches, batch.Pairwise (· < ·)
  once : batches.flatten.Nodup
  names : ∀ n, n ∈ batches.flatten ↔ n ∉ permissions text ∧ IsWritten commands n
  answers : d.answers = batches.map fun batch => .ok batch.length
  has : ∀ n, d.editor.has n = true ↔ n ∈ permissions text ∨ .add n ∈ commands

theorem InStep.keeps (inStep : InStep text p l k commands batches d) :
    Keeps text p k commands batches d where
  rounds := inStep.rounds
  file := FileAction.readText_of_read (FileAction.read_eq_ok_iff.mpr
    ⟨l, inStep.leads, inStep.content ▸ inStep.file⟩)
  ordered := inStep.rounds.ordered
  once := inStep.rounds.nodup
  names _ := inStep.rounds.mem_flatten_iff
  answers := inStep.answers
  has _ := inStep.has_iff

/-- **An editor and its file keep step through any commands.** At any time the file is the text it
was opened with and, in front of the last uncommented closing tag, one batch of lines for each
write-out: in order, with no name twice, and with the names that are new and were added in front of
some write-out. Without such a tag a write-out of something fails and changes nothing. -/
theorem follow_rounds (sound : h.Sound) (file : h.readText p = .ok text)
    (commands : List Command) :
    Editor.openAt p h = .ok (Desk.opened p text h).editor h ∧
      ((∃ k, IsClosing text.toList k) → (∀ n, .add n ∈ commands → IsPlain n) →
        ∃ k batches, IsLastClosing text.toList k ∧
          Keeps text p k commands batches ((Desk.opened p text h).follow commands)) ∧
      ((∀ k, ¬ IsClosing text.toList k) →
        Stuck text p h commands ((Desk.opened p text h).follow commands)) := by
  refine ⟨openAt_of_readText file, ?_, fun open' => Stuck.follow open' commands⟩
  rintro ⟨_, closing⟩ plain
  obtain ⟨k, last⟩ := closing.exists_last
  obtain ⟨l, leads, holds⟩ := FileAction.read_eq_ok_iff.mp (FileAction.readText_eq_ok file)
  obtain ⟨batches, inStep⟩ := InStep.follow sound leads holds last plain
  exact ⟨k, batches, last, inStep.keeps⟩

/-- A host whose descriptor has no closing tag. -/
def openHost : Host :=
  hostOf "<manifest />"

theorem follow_rounds_sample :
    (∃ k batches, IsLastClosing sampleText.toList k ∧
      Keeps sampleText "/app/AndroidManifest.xml" k
        [.add "c.D", .add "a.B", .writeOut, .add "a.B", .add "b.C", .writeOut] batches
        ((Desk.opened "/app/AndroidManifest.xml" sampleText sampleHost).follow
          [.add "c.D", .add "a.B", .writeOut, .add "a.B", .add "b.C", .writeOut])) ∧
      Stuck "<manifest />" "/app/AndroidManifest.xml" openHost [.add "a.B", .writeOut]
        ((Desk.opened "/app/AndroidManifest.xml" "<manifest />" openHost).follow
          [.add "a.B", .writeOut]) := by
  constructor
  · refine (follow_rounds sound_sampleHost (FileAction.readText_of_read rfl) _).2.1
      ⟨44, by decide +kernel⟩ fun n added => ?_
    have either : n = "c.D" ∨ n = "a.B" ∨ n = "b.C" := by
      simp only [List.mem_cons, Command.add.injEq, List.not_mem_nil, reduceCtorEq, or_false,
        false_or] at added
      tauto
    rcases either with rfl | rfl | rfl <;> decide
  · refine (follow_rounds (sound_hostOf _) (FileAction.readText_of_read rfl) _).2.2
      fun k closing => ?_
    have absent : ∀ k < "<manifest />".toList.length, ¬ IsClosing "<manifest />".toList k := by
      decide +kernel
    exact absent k closing.lt_length closing

end Tracepoint.Descriptor
