import Tracepoint.Proofs.Probe.Weaving

/-!
# Labels and positions in the woven form

The woven form carries the labels of the body and, above them, one for each probe
(`labels_woven_perm`). The statement at a position comes to stand at its site; its front is
the position of its probe, or its site if it has none. Every position of the woven form is
one or the other (`front_or_site`), fronts keep the order of positions (`site_lt_front`), and
a reference to a statement leads to its front (`position?_lead`).
-/

namespace Tracepoint.Body

/-- The position at which the part for a statement starts in the woven form. -/
def front (statements : List Statement) (p : Nat) : Nat :=
  p + ordinaries (statements.take p)

/-- The position of a statement itself in the woven form. -/
def site (statements : List Statement) (p : Nat) : Nat :=
  p + ordinaries (statements.take (p + 1))

/-- The labels of some probes. -/
def probeLabels (n count : Nat) : List Label :=
  (List.range' n count).map Label.ofNat

variable {h : Hook} {f : Label → Label} {n : Nat} {a : Allocator} {s : Statement}
  {statements : List Statement} {p q : Nat} {b : Body}

/-! ### Labels -/

theorem probeLabels_succ (n count : Nat) :
    probeLabels n (count + 1) = .ofNat n :: probeLabels (n + 1) count := by
  rw [probeLabels, List.range'_succ, List.map_cons]
  rfl

theorem mem_probeLabels {count : Nat} {l : Label} (inRange : n + count ≤ 0x100000000) :
    l ∈ probeLabels n count ↔ n ≤ l.index.toNat ∧ l.index.toNat < n + count := by
  simp only [probeLabels, List.mem_map, List.mem_range'_1]
  constructor
  · rintro ⟨k, bounds, rfl⟩
    rwa [Label.toNat_ofNat (by omega)]
  · intro bounds
    exact ⟨l.index.toNat, bounds, Label.ext_toNat (Label.toNat_ofNat (by omega))⟩

theorem nodup_probeLabels {count : Nat} (inRange : n + count ≤ 0x100000000) :
    (probeLabels n count).Nodup := by
  refine List.pairwise_map.mpr ((List.nodup_range' 1).imp_of_mem ?_)
  intro j k first second different same
  rw [List.mem_range'_1] at first second
  apply different
  rw [← Label.toNat_ofNat (n := j) (by omega), same, Label.toNat_ofNat (by omega)]

theorem labels_weaveFrom_perm (h : Hook) (f : Label → Label) (n : Nat) (a : Allocator)
    (statements : List Statement) :
    ((weaveFrom h f n a statements).map Statement.label).Perm
      (statements.map Statement.label ++ probeLabels n (ordinaries statements)) := by
  induction statements generalizing n a with
  | nil => exact List.Perm.refl _
  | cons s rest ih =>
    cases kind : s.isIdentity with
    | true =>
      rw [weaveFrom_cons_identity kind, ordinaries_cons_identity kind]
      exact (ih n a).cons _
    | false =>
      rw [weaveFrom_cons_ordinary kind, ordinaries_cons_ordinary kind, probeLabels_succ,
        List.map_cons, List.map_cons, List.map_cons]
      have tail := ((ih (n + 1) a.next.2).cons s.label).cons (Label.ofNat n)
      have middle : (Label.ofNat n :: (s.label :: rest.map Statement.label ++
          probeLabels (n + 1) (ordinaries rest))).Perm
          (s.label :: rest.map Statement.label ++
            Label.ofNat n :: probeLabels (n + 1) (ordinaries rest)) := List.perm_middle.symm
      exact tail.trans middle

/-- The woven form carries the labels of the body and those of the probes. -/
theorem labels_woven_perm (h : Hook) (a : Allocator) (b : Body) :
    (b.woven h a).labels.Perm
      (b.labels ++ probeLabels (labelBound b.statements) (ordinaries b.statements)) :=
  labels_weaveFrom_perm _ _ _ _ _

theorem HasRoom.le (room : b.HasRoom) :
    labelBound b.statements + ordinaries b.statements ≤ 0x100000000 := by
  rw [HasRoom, Label.toNat_limit] at room
  omega

/-- The numbers that the probes take are the labels of no statement. -/
theorem HasRoom.ofNat_not_mem (room : b.HasRoom) (k : Nat) (low : labelBound b.statements ≤ k)
    (high : k < labelBound b.statements + ordinaries b.statements) :
    Label.ofNat k ∉ b.labels := by
  intro used
  have inRange := room.le
  have below := lt_labelBound used
  rw [Label.toNat_ofNat (by omega)] at below
  omega

theorem not_mem_probeLabels (room : b.HasRoom) {l : Label} (used : l ∈ b.labels) :
    l ∉ probeLabels (labelBound b.statements) (ordinaries b.statements) := by
  intro probe
  have above := ((mem_probeLabels room.le).mp probe).1
  have below := lt_labelBound used
  omega

theorem mem_labels_woven (room : b.HasRoom) {l : Label} :
    l ∈ (b.woven h a).labels ↔ l ∈ b.labels ∨
      (labelBound b.statements ≤ l.index.toNat ∧
        l.index.toNat < labelBound b.statements + ordinaries b.statements) := by
  rw [(labels_woven_perm h a b).mem_iff, List.mem_append, mem_probeLabels room.le]

theorem Labelled.nodup_woven (labelled : b.Labelled) (room : b.HasRoom) :
    (b.woven h a).labels.Nodup := by
  rw [(labels_woven_perm h a b).nodup_iff, List.nodup_append]
  refine ⟨labelled.distinct, nodup_probeLabels room.le, ?_⟩
  intro l used k probe same
  exact not_mem_probeLabels room used (same ▸ probe)

/-! ### Positions -/

theorem front_cons_succ (s : Statement) (rest : List Statement) (p : Nat) :
    front (s :: rest) (p + 1) = front rest p + if s.isIdentity then 1 else 2 := by
  cases kind : s.isIdentity <;> simp [front, ordinaries, kind] <;> omega

theorem site_cons_succ (s : Statement) (rest : List Statement) (p : Nat) :
    site (s :: rest) (p + 1) = site rest p + if s.isIdentity then 1 else 2 := by
  cases kind : s.isIdentity <;> simp [site, ordinaries, kind] <;> omega

/-- A statement without a probe is its own front. -/
theorem site_of_isIdentity (here : statements[p]? = some s) (identity : s.isIdentity) :
    site statements p = front statements p := by
  simp [site, front, ordinaries, List.take_add_one, here, identity]

/-- A probe stands right in front of its statement. -/
theorem site_of_ordinary (here : statements[p]? = some s) (ordinary : s.isIdentity = false) :
    site statements p = front statements p + 1 := by
  simp [site, front, ordinaries, List.take_add_one, here, ordinary]
  omega

theorem front_le_site (statements : List Statement) (p : Nat) :
    front statements p ≤ site statements p := by
  have more : ordinaries (statements.take p) ≤ ordinaries (statements.take (p + 1)) :=
    List.Sublist.countP_le (List.take_sublist_take_left (Nat.le_succ p))
  rw [front, site]
  omega

/-- The part for a statement ends where that for the next one starts. -/
theorem front_succ (statements : List Statement) (p : Nat) :
    front statements (p + 1) = site statements p + 1 := by
  rw [front, site]
  omega

theorem site_lt_front (less : p < q) : site statements p < front statements q := by
  induction q with
  | zero => omega
  | succ q ih =>
    rw [front_succ]
    rcases Nat.lt_or_eq_of_le (Nat.lt_succ_iff.mp less) with before | rfl
    · have step := ih before
      have within := front_le_site statements q
      omega
    · omega

theorem front_lt_front (less : p < q) : front statements p < front statements q :=
  Nat.lt_of_le_of_lt (front_le_site statements p) (site_lt_front less)

/-- Fronts are in the order of the positions. -/
theorem front_le_front_iff : front statements p ≤ front statements q ↔ p ≤ q := by
  constructor
  · intro least
    apply Nat.le_of_not_lt
    intro less
    exact absurd (front_lt_front less) (Nat.not_lt_of_le least)
  · intro least
    rcases Nat.lt_or_eq_of_le least with less | rfl
    · exact Nat.le_of_lt (front_lt_front less)
    · exact Nat.le_refl _

theorem front_lt_front_iff : front statements p < front statements q ↔ p < q := by
  rw [← Nat.not_le, front_le_front_iff, Nat.not_le]

/-- A site lies between its front and the next one. -/
theorem site_lt_front_iff : site statements p < front statements q ↔ p < q := by
  constructor
  · intro less
    exact front_lt_front_iff.mp (Nat.lt_of_le_of_lt (front_le_site statements p) less)
  · exact site_lt_front

theorem front_le_site_iff : front statements p ≤ site statements q ↔ p ≤ q := by
  rw [← Nat.not_lt, site_lt_front_iff, Nat.not_lt]

theorem site_lt_site (less : p < q) : site statements p < site statements q :=
  Nat.lt_of_lt_of_le (site_lt_front less) (front_le_site statements q)

theorem site_inj (same : site statements p = site statements q) : p = q := by
  rcases Nat.lt_trichotomy p q with less | equal | more
  · exact absurd same (Nat.ne_of_lt (site_lt_site less))
  · exact equal
  · exact absurd same.symm (Nat.ne_of_lt (site_lt_site more))

/-- The site of an ordinary statement is no front. -/
theorem site_ne_front (here : statements[p]? = some s) (ordinary : s.isIdentity = false)
    (q : Nat) : site statements p ≠ front statements q := by
  intro same
  have least : q ≤ p := front_le_site_iff.mp (Nat.le_of_eq same.symm)
  rcases Nat.lt_or_eq_of_le least with less | rfl
  · have later : site statements q < front statements p := site_lt_front less
    have within := front_le_site statements q
    have within' := front_le_site statements p
    omega
  · rw [site_of_ordinary here ordinary] at same
    omega

/-! ### Statements -/

/-- The statement at a position stands at its site, with its jump led. -/
theorem getElem?_site (here : statements[p]? = some s) :
    (weaveFrom h f n a statements)[site statements p]? = some (s.retarget f) := by
  induction statements generalizing n a p with
  | nil => simp at here
  | cons s₀ rest ih =>
    cases p with
    | zero =>
      rw [List.getElem?_cons_zero] at here
      cases here
      cases kind : s.isIdentity with
      | true => simp [site, ordinaries, kind, weaveFrom, Statement.retarget_of_isIdentity]
      | false => simp [site, ordinaries, kind, weaveFrom]
    | succ p =>
      rw [List.getElem?_cons_succ] at here
      rw [site_cons_succ]
      cases kind : s₀.isIdentity with
      | true => simpa [weaveFrom, kind] using ih here
      | false => simpa [weaveFrom, kind] using ih here

/-- The probe of an ordinary statement stands at its front. -/
theorem getElem?_front (here : statements[p]? = some s) (ordinary : s.isIdentity = false) :
    (weaveFrom h f n a statements)[front statements p]? =
      some ⟨.ofNat (n + ordinaries (statements.take p)),
        h.call (a.advance (ordinaries (statements.take p))).next.1⟩ := by
  induction statements generalizing n a p with
  | nil => simp at here
  | cons s₀ rest ih =>
    cases p with
    | zero =>
      rw [List.getElem?_cons_zero] at here
      cases here
      simp [front, ordinaries, weaveFrom, ordinary, Allocator.advance]
    | succ p =>
      rw [List.getElem?_cons_succ] at here
      rw [front_cons_succ, List.take_succ_cons]
      cases kind : s₀.isIdentity with
      | true => simpa [weaveFrom, kind, ordinaries_cons_identity kind] using ih here
      | false =>
        rw [ordinaries_cons_ordinary kind, Allocator.advance]
        simpa [weaveFrom, kind, Nat.add_right_comm, Nat.add_assoc, Nat.add_comm 1] using
          ih (n := n + 1) (a := a.next.2) here

/-- Every position of the woven form is a site or the front of an ordinary statement. -/
theorem front_or_site (inside : q < (weaveFrom h f n a statements).length) :
    ∃ p s, statements[p]? = some s ∧
      (q = site statements p ∨ q = front statements p ∧ s.isIdentity = false) := by
  induction statements generalizing n a q with
  | nil => simp [weaveFrom] at inside
  | cons s rest ih =>
    -- a position behind the part for the first statement belongs to a later one
    have later {m : Nat} {a' : Allocator} {q' : Nat}
        (width : q = q' + if s.isIdentity then 1 else 2)
        (within : q' < (weaveFrom h f m a' rest).length) :
        ∃ p t, (s :: rest)[p]? = some t ∧
          (q = site (s :: rest) p ∨ q = front (s :: rest) p ∧ t.isIdentity = false) := by
      obtain ⟨p, t, here, place⟩ := ih within
      refine ⟨p + 1, t, by simpa using here, ?_⟩
      rw [site_cons_succ, front_cons_succ, width]
      rcases place with rfl | ⟨rfl, ordinary⟩
      · exact .inl rfl
      · exact .inr ⟨rfl, ordinary⟩
    cases kind : s.isIdentity with
    | true =>
      rw [weaveFrom_cons_identity kind, List.length_cons] at inside
      cases q with
      | zero => exact ⟨0, s, rfl, .inl (by simp [site, ordinaries, kind])⟩
      | succ q => exact later (by rw [kind, if_pos rfl]) (Nat.lt_of_succ_lt_succ inside)
    | false =>
      rw [weaveFrom_cons_ordinary kind, List.length_cons, List.length_cons] at inside
      rcases q with _ | _ | q
      · exact ⟨0, s, rfl, .inr ⟨by simp [front, ordinaries], kind⟩⟩
      · exact ⟨0, s, rfl, .inl (by simp [site, ordinaries, kind])⟩
      · exact later (by rw [kind]; rfl) (Nat.lt_of_succ_lt_succ (Nat.lt_of_succ_lt_succ inside))

/-- A reference to a statement leads to the label at its front. -/
theorem leadFrom_eq (distinct : (statements.map Statement.label).Nodup)
    (here : statements[p]? = some s) :
    leadFrom n statements s.label =
      if s.isIdentity then s.label else .ofNat (n + ordinaries (statements.take p)) := by
  induction statements generalizing n p with
  | nil => simp at here
  | cons s₀ rest ih =>
    rw [List.map_cons, List.nodup_cons] at distinct
    cases p with
    | zero =>
      rw [List.getElem?_cons_zero] at here
      cases here
      have unnamed : ∀ t ∈ rest, t.isIdentity = false → s.label ≠ t.label := by
        intro t member _ same
        exact distinct.1 (List.mem_map.mpr ⟨t, member, same.symm⟩)
      cases kind : s.isIdentity with
      | true => rw [leadFrom_cons_identity kind, leadFrom_of_not_mem n unnamed, if_pos rfl]
      | false => simp [leadFrom, kind, ordinaries]
    | succ p =>
      rw [List.getElem?_cons_succ] at here
      have different : s.label ≠ s₀.label := by
        intro same
        exact distinct.1 (List.mem_map.mpr ⟨s, List.mem_of_getElem? here, same⟩)
      rw [List.take_succ_cons]
      cases kind : s₀.isIdentity with
      | true => rw [leadFrom_cons_identity kind, ih distinct.2 here, ordinaries_cons_identity kind]
      | false =>
        rw [leadFrom, if_neg (by simp [kind]), if_neg different, ih distinct.2 here,
          ordinaries_cons_ordinary kind, Nat.add_right_comm, Nat.add_assoc]

/-! ### References -/

/-- The label at the front of a statement is the one that references to it lead to. -/
theorem Labelled.getElem?_labels_front (labelled : b.Labelled) (here : b.statements[p]? = some s) :
    (b.woven h a).labels[front b.statements p]? = some (b.lead s.label) := by
  rw [labels, List.getElem?_map, lead, leadFrom_eq labelled.distinct here]
  cases kind : s.isIdentity with
  | true =>
    rw [← site_of_isIdentity here kind]
    simp [woven, getElem?_site here]
  | false => simp [woven, getElem?_front here kind]

theorem getElem?_labels_site (here : b.statements[p]? = some s) :
    (b.woven h a).labels[site b.statements p]? = some s.label := by
  simp [labels, woven, getElem?_site here]

theorem getElem?_labels_iff {l : Label} :
    b.labels[p]? = some l ↔ ∃ s, b.statements[p]? = some s ∧ s.label = l := by
  simp [labels]

theorem Labelled.position?_label (labelled : b.Labelled) (here : b.statements[p]? = some s) :
    b.position? s.label = some p := by
  rw [position?_eq_some_iff labelled.distinct, getElem?_labels_iff]
  exact ⟨s, here, rfl⟩

/-- **A reference to a statement leads to its front.** -/
theorem Labelled.position?_lead (labelled : b.Labelled) (room : b.HasRoom) {l : Label}
    (named : b.position? l = some p) :
    (b.woven h a).position? (b.lead l) = some (front b.statements p) := by
  rw [position?_eq_some_iff labelled.distinct, getElem?_labels_iff] at named
  obtain ⟨s, here, rfl⟩ := named
  rw [position?_eq_some_iff (labelled.nodup_woven room)]
  exact labelled.getElem?_labels_front here

/-- A statement is found at its site. -/
theorem Labelled.position?_site (labelled : b.Labelled) (room : b.HasRoom) {l : Label}
    (named : b.position? l = some p) :
    (b.woven h a).position? l = some (site b.statements p) := by
  rw [position?_eq_some_iff labelled.distinct, getElem?_labels_iff] at named
  obtain ⟨s, here, rfl⟩ := named
  rw [position?_eq_some_iff (labelled.nodup_woven room)]
  exact getElem?_labels_site here

/-- A reference that names no statement stays as it is. -/
theorem lead_of_not_mem {l : Label} (unused : l ∉ b.labels) : b.lead l = l :=
  leadFrom_of_not_mem _ fun s member _ same =>
    unused (List.mem_map.mpr ⟨s, member, same.symm⟩)

/-- The probe of an ordinary statement carries a label that was not in use. -/
theorem exists_probe (room : b.HasRoom) (here : b.statements[p]? = some s)
    (ordinary : s.isIdentity = false) : ∃ l id,
      (b.woven h a).statements[front b.statements p]? = some ⟨l, h.call id⟩ ∧ l ∉ b.labels := by
  refine ⟨_, _, getElem?_front here ordinary, ?_⟩
  intro used
  have few : ordinaries (b.statements.take p) ≤ ordinaries b.statements :=
    List.Sublist.countP_le (List.take_sublist p b.statements)
  have below := lt_labelBound used
  rw [HasRoom, Label.toNat_limit] at room
  rw [Label.toNat_ofNat (by omega)] at below
  omega

end Tracepoint.Body
