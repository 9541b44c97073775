import Tracepoint.Proofs.Descriptor.Insertion

/-!
# Comments that are reworded

A comment that begins in no earlier one ends at its own closer, whatever it says, and what is in
front of it scans apart from it. So a text says the same with another comment in its place, and
its lines are put in at the same place of what is around the comment (`reworded`).
-/

namespace Tracepoint.Descriptor

open Editor (line)

/-- A text with a comment in it. -/
def commented (front remark back : String) : String :=
  front ++ "<!--" ++ remark ++ "-->" ++ back

/-- A text that can stand in a comment. -/
def IsRemark (remark : String) : Prop :=
  ¬ commentCloser <:+: remark.toList

/-- Two editors of texts that differ in a comment give the same answer: both fail, or both put the
same lines in at the same place in front of the comment or behind it. -/
inductive RendersAlike (front back remark remark' lines : String) :
    Except Fault String → Except Fault String → Prop where
  | neither (path path' : String) :
      RendersAlike front back remark remark' lines (.error (.badInput (.noClosingTag path)))
        (.error (.badInput (.noClosingTag path')))
  | inFront {x y : String} (split : front = x ++ y) :
      RendersAlike front back remark remark' lines
        (.ok (x ++ lines ++ commented y remark back)) (.ok (x ++ lines ++ commented y remark' back))
  | behind {x y : String} (split : back = x ++ y) :
      RendersAlike front back remark remark' lines
        (.ok (commented front remark x ++ lines ++ y))
        (.ok (commented front remark' x ++ lines ++ y))

instance {remark : String} : Decidable (IsRemark remark) :=
  inferInstanceAs (Decidable (¬ _))

section Scan

variable {cs x y front back remark : List Char}

/-! ### One comment -/

/-- A comment that says something. -/
def comment (remark : List Char) : List Char :=
  commentOpener ++ (remark ++ commentCloser)

theorem toList_commented (front remark back : String) :
    (commented front remark back).toList =
      front.toList ++ (comment remark.toList ++ back.toList) := by
  have opener : "<!--".toList = commentOpener := by decide
  have closer : "-->".toList = commentCloser := by decide
  simp [commented, comment, opener, closer]

theorem commented_eq (front remark back : String) : commented front remark back =
    String.ofList (front.toList ++ (comment remark.toList ++ back.toList)) := by
  rw [← toList_commented, String.ofList_toList]

/-- A closer behind a text that holds none is the first one: none begins in the text and ends
behind it. -/
theorem offset?_commentCloser (closed : ¬ commentCloser <:+: remark) :
    offset? commentCloser (remark ++ (commentCloser ++ y)) = some remark.length := by
  induction remark with
  | nil => rfl
  | cons c rest ih =>
    have later := ih fun inside => closed (List.infix_cons inside)
    have here : ¬ commentCloser <+: c :: (rest ++ (commentCloser ++ y)) := by
      rcases rest with _ | ⟨d, _ | ⟨e, rest⟩⟩
      · simp [commentCloser]
      · simp [commentCloser]
      · intro begun
        refine closed (List.IsPrefix.isInfix ?_)
        simpa [commentCloser] using begun
    rw [List.cons_append, offset?, if_neg (by rwa [List.isPrefixOf_iff_prefix]), later,
      List.length_cons, Option.map_some]

theorem commentLength?_comment (closed : ¬ commentCloser <:+: remark) (y : List Char) :
    commentLength? (comment remark ++ y) = some (comment remark).length := by
  rw [comment, List.append_assoc, List.append_assoc]
  refine commentLength?_eq_some_iff.mpr ⟨List.prefix_append _ _, remark.length, ?_, ?_⟩
  · exact offset?_commentCloser closed
  · simp [commentOpener, commentCloser]

theorem withoutComments_skip (x y : List Char) :
    withoutComments x.length (x ++ y) = withoutComments 0 y := by
  induction x with
  | nil => rfl
  | cons c x ih => rw [List.length_cons, List.cons_append, withoutComments, ih]

theorem splitAtClosing?_skip (x y : List Char) : splitAtClosing? x.length (x ++ y) =
    (splitAtClosing? 0 y).map fun s => (x ++ s.1, s.2) := by
  induction x with
  | nil => simp
  | cons c x ih =>
    rw [List.length_cons, List.cons_append, splitAtClosing?, ih, Option.map_map]
    rfl

theorem comment_eq_cons (remark : List Char) : ∃ rest, comment remark = '<' :: rest :=
  ⟨_, rfl⟩

/-- A comment is left out. -/
theorem withoutComments_comment (closed : ¬ commentCloser <:+: remark) (y : List Char) :
    withoutComments 0 (comment remark ++ y) = withoutComments 0 y := by
  have length := commentLength?_comment closed y
  obtain ⟨rest, cons⟩ := comment_eq_cons remark
  rw [cons, List.cons_append, List.length_cons] at length
  rw [cons, List.cons_append, withoutComments_cons_of_some length, Nat.add_sub_cancel,
    withoutComments_skip]

/-- A comment is passed over in search of the closing tag. -/
theorem splitAtClosing?_comment (closed : ¬ commentCloser <:+: remark) (y : List Char) :
    splitAtClosing? 0 (comment remark ++ y) =
      (splitAtClosing? 0 y).map fun s => (comment remark ++ s.1, s.2) := by
  have length := commentLength?_comment closed y
  obtain ⟨rest, cons⟩ := comment_eq_cons remark
  rw [cons, List.cons_append, List.length_cons] at length
  rw [cons, List.cons_append, splitAtClosing?_cons_of_some length, Nat.add_sub_cancel,
    splitAtClosing?_skip, Option.map_map]
  rfl

/-! ### A comment in a text -/

/-- What is in front of a comment scans apart from any other comment in its place: an opener in
front of it would be closed by it, so no comment that begins there is left open. -/
theorem scansApart_comment (closed : ¬ commentCloser <:+: remark)
    (clear : Clear 0 0 (front ++ (comment remark ++ back)) front.length) (remark' : List Char) :
    ScansApart (comment remark' ++ back) 0 front := by
  have behind : (front ++ (comment remark ++ back)).drop front.length = comment remark ++ back :=
    List.drop_left
  have apart := clear.scansApart (y := comment remark' ++ back) ?_ ?_ ?_
  · rwa [List.take_left] at apart
  · rw [behind]
    simp [comment, commentOpener, Aloof]
  · simp [comment, commentOpener, Aloof]
  · rw [behind]
    intro absent
    have first := offset?_commentCloser (y := back) closed
    simp only [comment, commentOpener, List.cons_append, List.nil_append, List.append_assoc,
      offset?_cons_eq_none_iff] at absent
    rw [absent.2.2.2.2] at first
    cases first

/-- A split in front of the last closing tag loses nothing. -/
theorem append_of_splitAtClosing? (found : splitAtClosing? 0 cs = some (x, y)) : x ++ y = cs := by
  obtain ⟨k, -, rfl, rfl⟩ := splitAtClosing?_eq_some_iff.mp found
  exact List.take_append_drop k cs

/-- The last closing tag of a text with a comment is the last one behind the comment, or else the
last one in front of it. -/
theorem splitAtClosing?_commented (closed : ¬ commentCloser <:+: remark)
    (apart : ScansApart (comment remark ++ back) 0 front) :
    splitAtClosing? 0 (front ++ (comment remark ++ back)) =
      match splitAtClosing? 0 back with
      | some s => some (front ++ (comment remark ++ s.1), s.2)
      | none => (splitAtClosing? 0 front).map fun s => (s.1, s.2 ++ (comment remark ++ back)) := by
  have behind := splitAtClosing?_comment closed back
  cases found : splitAtClosing? 0 back with
  | some s =>
    rw [found, Option.map_some] at behind
    rw [apart.splitAtClosing?_of_some behind]
  | none =>
    rw [found, Option.map_none] at behind
    exact apart.splitAtClosing?_of_none (by decide) behind

end Scan

/-! ### Rewording -/

section Render

variable {front remark remark' back : String}

/-- An editor of a text with a comment puts its lines in behind the comment, or else in front. -/
theorem render_commented (closed : IsRemark remark)
    (apart : ScansApart (comment remark.toList ++ back.toList) 0 front.toList) (path : String)
    (declared : List String) {queued : List String} (occupied : queued ≠ []) :
    (Editor.mk path (commented front remark back) declared queued).render =
      match splitAtClosing? 0 back.toList with
      | some s => .ok (commented front remark (String.ofList s.1) ++
          String.ofList (queued.flatMap line) ++ String.ofList s.2)
      | none =>
        match splitAtClosing? 0 front.toList with
        | some s => .ok (String.ofList s.1 ++ String.ofList (queued.flatMap line) ++
            commented (String.ofList s.2) remark back)
        | none => .error (.badInput (.noClosingTag path)) := by
  let e : Editor := ⟨path, commented front remark back, declared, queued⟩
  have split := splitAtClosing?_commented closed apart
  rw [← toList_commented] at split
  rcases behind : splitAtClosing? 0 back.toList with _ | s
  · rcases inFront : splitAtClosing? 0 front.toList with _ | s
    · rw [behind, inFront] at split
      exact render_of_none e occupied split
    · rw [behind, inFront] at split
      rw [render_of_some e occupied split]
      simp [e, commented_eq, String.ofList_append, String.append_assoc]
  · rw [behind] at split
    rw [render_of_some e occupied split]
    simp [e, commented_eq, String.ofList_append, String.append_assoc]

/-- Editors with the same names queued render alike. -/
theorem rendersAlike_commented (closed : IsRemark remark) (closed' : IsRemark remark')
    (apart : ∀ remark, ScansApart (comment remark ++ back.toList) 0 front.toList)
    (path path' : String) (declared declared' queued : List String) :
    RendersAlike front back remark remark' (String.ofList (queued.flatMap line))
      (Editor.mk path (commented front remark back) declared queued).render
      (Editor.mk path' (commented front remark' back) declared' queued).render := by
  have whole {cs x y : List Char} {text : String} (same : text.toList = cs)
      (found : splitAtClosing? 0 cs = some (x, y)) : text = String.ofList x ++ String.ofList y := by
    rw [← String.ofList_append, append_of_splitAtClosing? found, ← same, String.ofList_toList]
  by_cases nothing : queued = []
  · have unchanged (remark : String) : commented front remark back =
        front ++ String.ofList (queued.flatMap line) ++ commented "" remark back := by
      simp [nothing, commented, String.append_assoc]
    rw [Editor.render, if_pos (by simpa using nothing), Editor.render,
      if_pos (by simpa using nothing), unchanged, unchanged remark']
    exact .inFront (by simp)
  · rw [render_commented closed (apart _) path declared nothing,
      render_commented closed' (apart _) path' declared' nothing]
    cases behind : splitAtClosing? 0 back.toList with
    | some s => exact .behind (whole rfl behind)
    | none =>
      cases inFront : splitAtClosing? 0 front.toList with
      | some s => exact .inFront (whole rfl inFront)
      | none => exact .neither path path'

/-- **What a comment says does not matter**, if it begins in no comment before it: with another
remark in it the text declares the same permissions and the same package, and the same lines are
put in at the same place. -/
theorem reworded (closed : IsRemark remark) (closed' : IsRemark remark')
    (clear : Clear 0 0 (commented front remark back).toList front.toList.length) :
    permissions (commented front remark' back) = permissions (commented front remark back) ∧
      package? (commented front remark' back) = package? (commented front remark back) ∧
      ∀ (path path' : String) (declared declared' queued : List String),
        RendersAlike front back remark remark' (String.ofList (queued.flatMap line))
          (Editor.mk path (commented front remark back) declared queued).render
          (Editor.mk path' (commented front remark' back) declared' queued).render := by
  rw [toList_commented] at clear
  have apart := scansApart_comment closed clear
  have stripped {remark : String} (closed : IsRemark remark) :
      withoutComments 0 (commented front remark back).toList =
        withoutComments 0 front.toList ++ withoutComments 0 back.toList := by
    rw [toList_commented, (apart _).withoutComments_append, withoutComments_comment closed]
  refine ⟨?_, ?_, rendersAlike_commented closed closed' apart⟩
  · rw [permissions, permissions, stripped closed, stripped closed']
  · rw [package?, package?, stripped closed, stripped closed']

/-- A remark that declares, closes the document and opens a comment, and another one that does so
too, behind a comment. -/
theorem reworded_tags :
    let front := "<manifest package=\"a.b\"><!-- </manifest> -->"
    let remark := "<uses-permission android:name=\"a.B\"/></manifest><!--"
    let remark' := "-<manifest package=\"c.d\"></manifest>-"
    let back := "</manifest>"
    permissions (commented front remark' back) = permissions (commented front remark back) ∧
      package? (commented front remark' back) = package? (commented front remark back) ∧
      ∀ (path path' : String) (declared declared' queued : List String),
        RendersAlike front back remark remark' (String.ofList (queued.flatMap line))
          (Editor.mk path (commented front remark back) declared queued).render
          (Editor.mk path' (commented front remark' back) declared' queued).render :=
  reworded (by decide +kernel) (by decide +kernel) (by decide +kernel)

end Render

end Tracepoint.Descriptor
