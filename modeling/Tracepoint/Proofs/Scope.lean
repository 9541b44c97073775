import Mathlib.Data.List.DropRight
import Tracepoint.Proofs.Files.Places
import Tracepoint.Proofs.Probe.Insertions

/-!
# The scope of an application

A policy that is limited to an application compares the root of its namespace with the text of a
signature. The root begins the namespace and ends where a segment ends (`scopeRoot_begins`), but the
comparison goes by characters: a method is in scope if its unit stands at the root or below it, and
also if its unit stands at or below a neighbour of the root, whose last segment is longer
(`Meets`). So an injection changes units at or below the root, and such ones (`scopedTo_meets`).
-/

namespace Tracepoint

open Text (segments)

variable {sep : Char} {x y last s : List Char} {front rest : List (List Char)}
  {ns root unit : String} {m : Method} {p : Policy}

/-! ### Segments -/

namespace Text

theorem segments_eq_splitOn (sep : Char) (x : List Char) : segments sep x = x.splitOn sep := by
  induction x with
  | nil => rfl
  | cons c x ih =>
    rw [List.splitOn_cons_eq_if_modifyHead, ← ih, segments]
    by_cases same : c = sep
    · rw [if_pos same, if_pos (by simpa using same)]
    · rw [if_neg same, if_neg (by simpa using same)]
      have occupied := List.splitOn_ne_nil sep x
      rw [← ih] at occupied
      split
      · contradiction
      · rename_i split
        rw [split]
        rfl

theorem segments_ne_nil (sep : Char) (x : List Char) : segments sep x ≠ [] := by
  rw [segments_eq_splitOn]
  exact List.splitOn_ne_nil sep x

theorem intercalate_segments (sep : Char) (x : List Char) :
    [sep].intercalate (segments sep x) = x := by
  rw [segments_eq_splitOn, List.intercalate_splitOn]

theorem segments_intercalate {parts : List (List Char)} (occupied : parts ≠ [])
    (bare : ∀ s ∈ parts, sep ∉ s) : segments sep ([sep].intercalate parts) = parts := by
  rw [segments_eq_splitOn, List.splitOn_intercalate sep bare occupied]

theorem intercalate_cons (sep : Char) (s : List Char) (rest : List (List Char)) :
    [sep].intercalate (s :: rest) = s ++ rest.flatMap (sep :: ·) := by
  induction rest generalizing s with
  | nil => simp
  | cons t rest ih => simp [List.intercalate_cons_cons, ih]

/-- Parts are joined apart, on both sides of a place in one of them. -/
theorem intercalate_append_cons (sep : Char) (front : List (List Char)) (last s : List Char)
    (rest : List (List Char)) : [sep].intercalate (front ++ (last ++ s) :: rest) =
      [sep].intercalate (front ++ [last]) ++ [sep].intercalate (s :: rest) := by
  cases front <;> simp [intercalate_cons]

/-- A text begins another one if its segments are the first of the other, where the last may be
longer. -/
theorem prefix_iff_segments (split : segments sep x = front ++ [last]) :
    x <+: y ↔ ∃ more rest, segments sep y = front ++ (last ++ more) :: rest := by
  have whole := intercalate_segments sep x
  rw [split] at whole
  constructor
  · rintro ⟨z, rfl⟩
    obtain ⟨more, rest, split'⟩ := List.exists_cons_of_ne_nil (segments_ne_nil sep z)
    refine ⟨more, rest, ?_⟩
    have joined := intercalate_append_cons sep front last more rest
    rw [whole, ← split', intercalate_segments] at joined
    rw [← joined]
    refine segments_intercalate (by simp) fun s member => ?_
    have bare : ∀ s ∈ front ++ [last], sep ∉ s := fun s member =>
      Path.not_mem_of_mem_segments (split ▸ member)
    have bare' : ∀ s ∈ more :: rest, sep ∉ s := fun s member =>
      Path.not_mem_of_mem_segments (split' ▸ member)
    simp only [List.forall_mem_append, List.forall_mem_cons] at bare bare'
    rcases List.mem_append.mp member with early | late
    · exact bare.1 s early
    · rcases List.mem_cons.mp late with rfl | later
      · simp [bare.2.1, bare'.1]
      · exact bare'.2 s later
  · rintro ⟨more, rest, split'⟩
    rw [← intercalate_segments sep y, split', intercalate_append_cons, whole]
    exact List.prefix_append _ _

end Text

/-! ### Roots and units -/

/-- A unit stands at a root or below it. -/
def Under (root unit : String) : Prop :=
  unit = root ∨ root.toList ++ ['.'] <+: unit.toList

/-- A unit stands at or below a neighbour of a root: a name whose last segment is longer than that
of the root. -/
def Neighbours (root unit : String) : Prop :=
  ∃ front last more rest, more ≠ [] ∧ segments '.' root.toList = front ++ [last] ∧
    segments '.' unit.toList = front ++ (last ++ more) :: rest

/-- What stands behind the unit in the signature of a method. -/
def Method.behindUnit (m : Method) : List Char :=
  (": " ++ m.ret.render ++ " " ++ m.name ++ "(" ++
    String.intercalate "," (m.params.map ValueType.render) ++ ")>").toList

/-- How a root begins the signature of a method of a unit. -/
inductive Meets (root unit : String) (m : Method) : Prop where
  | under (under : Under root unit)
  | neighbours (neighbours : Neighbours root unit)
  | overruns {t : List Char} (occupied : t ≠ []) (root : root.toList = unit.toList ++ t)
      (behind : t <+: m.behindUnit)

instance : Decidable (Under root unit) :=
  inferInstanceAs (Decidable (unit = root ∨ root.toList ++ ['.'] <+: unit.toList))

theorem toList_signature (m : Method) (unit : String) :
    (m.signature unit).toList = '<' :: (unit.toList ++ m.behindUnit) := by
  simp [Method.signature, Method.reference, MethodRef.render, Method.behindUnit]

/-- A unit at or below a root has its segments and may have more. -/
theorem under_iff_segments : Under root unit ↔
    ∃ rest, segments '.' unit.toList = segments '.' root.toList ++ rest := by
  constructor
  · rintro (rfl | ⟨z, split⟩)
    · exact ⟨[], by simp⟩
    · refine ⟨segments '.' z, ?_⟩
      rw [← split, List.append_assoc, List.singleton_append, Path.segments_append_sep]
  · rintro ⟨rest, split⟩
    have whole := Text.intercalate_segments '.' unit.toList
    have root' := Text.intercalate_segments '.' root.toList
    rw [split] at whole
    cases rest with
    | nil =>
      rw [List.append_nil, root'] at whole
      exact .inl (String.toList_inj.mp whole.symm)
    | cons t rest =>
      obtain ⟨s, front, split'⟩ := List.exists_cons_of_ne_nil (Text.segments_ne_nil '.' root.toList)
      rw [split', Text.intercalate_cons] at root'
      rw [split', List.cons_append, Text.intercalate_cons, List.flatMap_append, List.flatMap_cons,
        ← List.append_assoc, root'] at whole
      exact .inr ⟨t ++ rest.flatMap ('.' :: ·), by simp [← whole]⟩

/-- A root begins a unit if the unit stands at or below it or a neighbour of it. -/
theorem prefix_iff_under_or_neighbours :
    root.toList <+: unit.toList ↔ Under root unit ∨ Neighbours root unit := by
  obtain ⟨front, last, split⟩ : ∃ front last, segments '.' root.toList = front ++ [last] :=
    ⟨_, _, (List.dropLast_append_getLast (Text.segments_ne_nil '.' root.toList)).symm⟩
  rw [Text.prefix_iff_segments split, under_iff_segments]
  constructor
  · rintro ⟨more, rest, split'⟩
    by_cases same : more = []
    · exact .inl ⟨rest, by simp [split', split, same]⟩
    · exact .inr ⟨front, last, more, rest, same, split, split'⟩
  · rintro (⟨rest, split'⟩ | ⟨front', last', more, rest, -, split', split''⟩)
    · exact ⟨[], rest, by simp [split', split]⟩
    · rw [split] at split'
      obtain ⟨rfl, same⟩ := List.append_inj' split' rfl
      cases same
      exact ⟨more, rest, split''⟩

/-- Where a root begins a signature. -/
theorem meets_iff : Meets root unit m ↔ root.toList <+: unit.toList ++ m.behindUnit := by
  constructor
  · rintro (under | neighbours | ⟨-, split, behind⟩)
    · exact (prefix_iff_under_or_neighbours.mpr (.inl under)).trans (List.prefix_append _ _)
    · exact (prefix_iff_under_or_neighbours.mpr (.inr neighbours)).trans (List.prefix_append _ _)
    · rw [split]
      exact (List.prefix_append_right_inj _).mpr behind
  · rintro ⟨z, split⟩
    rcases List.append_eq_append_iff.mp split with ⟨t, unit', -⟩ | ⟨t, root', behind⟩
    · rcases prefix_iff_under_or_neighbours.mp ⟨t, unit'.symm⟩ with under | neighbours
      · exact .under under
      · exact .neighbours neighbours
    · by_cases nothing : t = []
      · rw [nothing, List.append_nil] at root'
        exact .under (.inl (String.toList_inj.mp root'.symm))
      · exact .overruns nothing root' ⟨z, behind.symm⟩

theorem inScope_scopedTo : (p.scopedTo ns).inScope (m.signature unit) = true ↔
    Meets (scopeRoot ns) unit m := by
  rw [meets_iff, Policy.scopedTo, Policy.withScope, Policy.inScope]
  dsimp only
  rw [toList_signature]
  exact List.isPrefixOf_iff_prefix

/-! ### The root of a namespace -/

theorem dropEnd_isPrefix (c : Char) (x : List Char) : Text.dropEnd c x <+: x := by
  rw [Text.dropEnd, ← List.reverse_suffix, List.reverse_reverse]
  exact List.dropWhile_suffix _

theorem dropEnd_of_named (named : ∀ s ∈ segments sep x, s ≠ []) : Text.dropEnd sep x = x := by
  rcases List.eq_nil_or_concat x with rfl | ⟨front, c, rfl⟩
  · rfl
  · have other : c ≠ sep := by
      rintro rfl
      refine named [] ?_ rfl
      rw [List.concat_eq_append, Path.segments_append_sep]
      exact List.mem_append_right _ List.mem_cons_self
    rw [Text.dropEnd, List.concat_eq_append, List.reverse_concat,
      List.dropWhile_cons_of_neg (by simpa using other), List.reverse_cons, List.reverse_reverse]

/-- The root of a namespace is the namespace, if it has at most two segments, and the first two
segments otherwise. -/
theorem scopeRoot_cases (ns : String) :
    scopeRoot ns = ns ∧ (segments '.' (Text.dropEnd '.' ns.toList)).length ≤ 2 ∨
      ∃ first second third rest,
        segments '.' (Text.dropEnd '.' ns.toList) = first :: second :: third :: rest ∧
          segments '.' (scopeRoot ns).toList = [first, second] := by
  rw [scopeRoot]
  split
  · rename_i first second third rest long
    have bare : ∀ s ∈ first :: second :: third :: rest, '.' ∉ s := fun s member =>
      Path.not_mem_of_mem_segments (long ▸ member)
    simp only [List.forall_mem_cons] at bare
    refine .inr ⟨first, second, third, rest, long, ?_⟩
    rw [String.toList_ofList, Path.segments_append_sep, Path.segments_of_not_mem bare.1,
      Path.segments_of_not_mem bare.2.1]
    rfl
  · rename_i short
    refine .inl ⟨rfl, Nat.le_of_not_lt fun long => ?_⟩
    match parts : segments '.' (Text.dropEnd '.' ns.toList), long with
    | first :: second :: third :: rest, _ => exact short first second third rest parts

/-- A namespace begins with its root. -/
theorem scopeRoot_isPrefix (ns : String) : (scopeRoot ns).toList <+: ns.toList := by
  rcases scopeRoot_cases ns with ⟨same, -⟩ | ⟨first, second, third, rest, long, root⟩
  · simp only [same, List.prefix_refl]
  · refine List.IsPrefix.trans ?_ (dropEnd_isPrefix '.' ns.toList)
    have root' : segments '.' (scopeRoot ns).toList = [first] ++ [second] := root
    exact (Text.prefix_iff_segments root').mpr ⟨[], third :: rest, by simpa using long⟩

/-- The root of a namespace without empty segments is its first two segments, or its only one. -/
theorem segments_scopeRoot (named : ∀ s ∈ segments '.' ns.toList, s ≠ []) :
    segments '.' (scopeRoot ns).toList = (segments '.' ns.toList).take 2 := by
  have whole := dropEnd_of_named named
  rcases scopeRoot_cases ns with ⟨same, short⟩ | ⟨first, second, third, rest, long, root⟩
  · rw [whole] at short
    rw [same, List.take_of_length_le short]
  · rw [whole] at long
    rw [root, long]
    rfl

theorem segments_replicate (c : Char) (n : Nat) :
    segments c (List.replicate n c) = List.replicate (n + 1) [] := by
  induction n with
  | zero => rfl
  | succ n ih =>
    rw [List.replicate_succ, segments, if_pos rfl, ih]
    rfl

/-- The separators at the end of a text are ends of empty segments. -/
theorem exists_segments_dropEnd (c : Char) (x : List Char) :
    ∃ n, segments c x = segments c (Text.dropEnd c x) ++ List.replicate n [] := by
  have whole := List.takeWhile_append_dropWhile (p := (· = c)) (l := x.reverse)
  have dropped : x.reverse.takeWhile (· = c) =
      List.replicate (x.reverse.takeWhile (· = c)).length c :=
    List.eq_replicate_iff.mpr ⟨rfl, fun d member => by simpa using List.mem_takeWhile_imp member⟩
  generalize (x.reverse.takeWhile (· = c)).length = n at dropped
  have split : x = Text.dropEnd c x ++ List.replicate n c := by
    rw [← List.reverse_inj, ← whole, dropped, Text.dropEnd]
    simp
  refine ⟨n, ?_⟩
  cases n with
  | zero => simpa using congrArg (segments c) split
  | succ n =>
    conv_lhs => rw [split, List.replicate_succ, Path.segments_append_sep, segments_replicate]

theorem scopeRoot_of_short (short : (segments '.' (Text.dropEnd '.' ns.toList)).length ≤ 2) :
    scopeRoot ns = ns := by
  rcases scopeRoot_cases ns with ⟨same, -⟩ | ⟨first, second, third, rest, long, -⟩
  · exact same
  · simp [long] at short

/-- The root of a namespace is the root of itself. -/
theorem scopeRoot_scopeRoot (ns : String) : scopeRoot (scopeRoot ns) = scopeRoot ns := by
  rcases scopeRoot_cases ns with ⟨same, -⟩ | ⟨first, second, third, rest, -, root⟩
  · rw [same, same]
  · apply scopeRoot_of_short
    obtain ⟨n, split⟩ := exists_segments_dropEnd '.' (scopeRoot ns).toList
    have count := congrArg List.length split
    rw [root, List.length_append] at count
    simp only [List.length_cons, List.length_nil] at count
    omega

/-- Behind the unit, a signature goes on with a colon. -/
theorem Method.exists_behindUnit (m : Method) : ∃ rest, m.behindUnit = ':' :: rest := by
  simp [behindUnit]

/-- The root of a namespace without colons ends in the name of a unit. -/
theorem meets_scopeRoot_iff (plain : ':' ∉ ns.toList) : Meets (scopeRoot ns) unit m ↔
    Under (scopeRoot ns) unit ∨ Neighbours (scopeRoot ns) unit := by
  constructor
  · rintro (under | neighbours | ⟨occupied, root, z, behind⟩)
    · exact .inl under
    · exact .inr neighbours
    · obtain ⟨c, t, rfl⟩ := List.exists_cons_of_ne_nil occupied
      obtain ⟨rest, starts⟩ := m.exists_behindUnit
      rw [starts, List.cons_append, List.cons.injEq] at behind
      refine absurd ((scopeRoot_isPrefix ns).subset ?_) plain
      simp [root, behind.1]
  · rintro (under | neighbours)
    · exact .under under
    · exact .neighbours neighbours

/-- **The root of a namespace begins it.** It is the first two segments if there are more than two,
where empty ones at the end do not count, and the whole namespace otherwise. So a policy that is
limited to an application admits all units that its namespace begins. -/
theorem scopeRoot_begins (ns : String) :
    (scopeRoot ns).toList <+: ns.toList ∧ scopeRoot (scopeRoot ns) = scopeRoot ns ∧
      (scopeRoot ns).toList =
        (if 2 < ((ns.toList.rdropWhile (· = '.')).splitOn '.').length then
          ['.'].intercalate ((ns.toList.splitOn '.').take 2)
        else ns.toList) ∧
      ∀ (p : Policy) (unit : String) (m : Method), ns.toList <+: unit.toList →
        (p.scopedTo ns).inScope (m.signature unit) = true := by
  have begins := scopeRoot_isPrefix ns
  refine ⟨begins, scopeRoot_scopeRoot ns, ?_, fun p unit m declared => ?_⟩
  · have trimmed : ns.toList.rdropWhile (· = '.') = Text.dropEnd '.' ns.toList := rfl
    rw [trimmed, ← Text.segments_eq_splitOn, ← Text.segments_eq_splitOn]
    rcases scopeRoot_cases ns with ⟨same, short⟩ | ⟨first, second, third, rest, long, root⟩
    · rw [if_neg (Nat.not_lt.mpr short), same]
    · obtain ⟨n, split⟩ := exists_segments_dropEnd '.' ns.toList
      rw [long] at split
      rw [if_pos (by simp [long]), split, ← Text.intercalate_segments '.' (scopeRoot ns).toList,
        root]
      rfl
  · rw [inScope_scopedTo, meets_iff]
    exact (begins.trans declared).trans (List.prefix_append _ _)

/-- Of three segments, of which the second one is empty, the root ends in a dot. -/
example : scopeRoot "com..example." = "com." := by decide

/-! ### What an injection changes -/

namespace Injector

variable {α : Type} {P : α → Prop} {xs ys : List α}

theorem eq_or_exists_of_forall₂ (each : List.Forall₂ (fun x y => y = x ∨ P x) xs ys) :
    ys = xs ∨ ∃ x ∈ xs, P x := by
  induction each with
  | nil => exact .inl rfl
  | cons here _ ih =>
    rcases here with rfl | holds
    · rcases ih with rfl | ⟨x, member, holds⟩
      · exact .inl rfl
      · exact .inr ⟨x, List.mem_cons_of_mem _ member, holds⟩
    · exact .inr ⟨_, List.mem_cons_self, holds⟩

/-- An injection changes a method only if it is in scope. -/
theorem probeMethod_eq_or_inScope (i : Injector) (unit : String) (m : Method) (p : Progress) :
    (i.probeMethod unit m p).1 = m ∨ i.policy.inScope (m.signature unit) = true := by
  rw [probeMethod]
  split
  · exact .inl rfl
  · split
    · rename_i inside
      exact .inr inside
    · exact .inl rfl

/-- An injection changes a unit only if some method of it is in scope. -/
theorem probeUnit_eq_or_inScope (i : Injector) (u : CodeUnit) (p : Progress) :
    (i.probeUnit u p).1 = u ∨ ∃ m ∈ u.methods, i.policy.inScope (m.signature u.name) = true := by
  rw [probeUnit]
  split
  · exact .inl rfl
  · rw [probeMethods_eq_sweep]
    refine (eq_or_exists_of_forall₂ (forall₂_sweep (fun _ => .inl rfl)
      (i.probeMethod_eq_or_inScope u.name) u.methods p)).imp (fun same => ?_) id
    simp only [same]

/-- An injection, whatever comes of it, changes only units with a method in scope. -/
theorem inject_eq_or_inScope (i : Injector) (r : Registry) (a : Allocator) :
    List.Forall₂ (fun u v => v = u ∨
      ∃ m ∈ u.methods, i.policy.inScope (m.signature u.name) = true)
      r.units (i.inject r a).registry.units := by
  rw [inject, probeUnits_eq_sweep]
  exact forall₂_sweep (fun _ => .inl rfl) i.probeUnit_eq_or_inScope r.units (.start a)

end Injector

/-- **A policy goes by the text of the root of an application**, which is the first two segments of
its namespace. So a method is in scope if its unit stands at or below the root, or at or below a
neighbour of it, and an injection changes units with such a method and no others. -/
theorem scopedTo_meets (named : ∀ s ∈ segments '.' ns.toList, s ≠ []) (p : Policy) :
    segments '.' (scopeRoot ns).toList = (segments '.' ns.toList).take 2 ∧
      (∀ (unit : String) (m : Method), (p.scopedTo ns).inScope (m.signature unit) = true ↔
        Meets (scopeRoot ns) unit m) ∧
      (':' ∉ ns.toList → ∀ (unit : String) (m : Method), Meets (scopeRoot ns) unit m ↔
        Under (scopeRoot ns) unit ∨ Neighbours (scopeRoot ns) unit) ∧
      ∀ (i : Injector) (r : Registry) (a : Allocator), i.policy = p.scopedTo ns →
        List.Forall₂ (fun u v => v = u ∨ ∃ m ∈ u.methods, Meets (scopeRoot ns) u.name m)
          r.units (i.inject r a).registry.units := by
  refine ⟨segments_scopeRoot named, fun _ _ => inScope_scopedTo,
    fun plain _ _ => meets_scopeRoot_iff plain, fun i r a limited => ?_⟩
  have changes := i.inject_eq_or_inScope r a
  rw [limited] at changes
  refine changes.imp fun u v => Or.imp_right ?_
  rintro ⟨m, member, inside⟩
  exact ⟨m, member, inScope_scopedTo.mp inside⟩

/-- An injector that is limited to one application. -/
def Injector.application : Injector :=
  { Injector.sample with
    policy := (⟨[], Policy.defaultExcluded, none⟩ : Policy).scopedTo "com.example.app" }

/-- A registry with one unit, below a neighbour of the root of an application. -/
def Registry.neighbour : Registry where
  units := [⟨"com.examples.Foo", [⟨"f", [], .void, some .sample⟩]⟩]
  support := []
  hook := none

theorem scopedTo_meets_sample :
    Meets (scopeRoot "com.example.app") "com.examples.Foo" ⟨"f", [], .void, none⟩ ∧
      List.Forall₂ (fun u v => v = u ∨
        ∃ m ∈ u.methods, Meets (scopeRoot "com.example.app") u.name m)
        Registry.neighbour.units
        (Injector.application.inject .neighbour (.counter 0)).registry.units := by
  have named : ∀ s ∈ segments '.' "com.example.app".toList, s ≠ [] := by decide +kernel
  obtain ⟨-, inside, -, changes⟩ :=
    scopedTo_meets named (⟨[], Policy.defaultExcluded, none⟩ : Policy)
  exact ⟨(inside _ _).mp (by decide +kernel), changes .application _ _ rfl⟩

/-- An application's policy lets probes into a unit that is not below its root. -/
theorem exists_neighbour_probed :
    (∀ s ∈ segments '.' "com.example.app".toList, s ≠ []) ∧
      ¬ Under (scopeRoot "com.example.app") "com.examples.Foo" ∧
      Injector.application.policy.inScope
        ((⟨"f", [], .void, none⟩ : Method).signature "com.examples.Foo") = true ∧
      ∃ records report, (Injector.application.inject .neighbour (.counter 0)).result =
        .ok (records, report) ∧ records.length = 4 :=
  ⟨by decide +kernel, by decide +kernel, by decide +kernel, _, _, rfl, by decide +kernel⟩

end Tracepoint
