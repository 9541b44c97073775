import Mathlib.Data.List.Nodup
import Tracepoint.Probe.Hook

/-!
# Loading units into a registry

The index of a registry gives the position of each unit under its name, and nothing else
(`Registry.Indexed`), whatever is added. So a registry has one unit for each name: the last one
that was added under it (`Registry.unit?_loaded`), at the place where the name came first. A name
that was added as support is one of the support from then on.
-/

namespace Tracepoint

namespace Registry

/-- The names of the units, in order. -/
def names (r : Registry) : List String :=
  r.units.map CodeUnit.name

/-- The index leads to the unit of a name, and to no other. -/
def Indexed (r : Registry) : Prop :=
  ∀ name i, r.index.lookup name = some i ↔ r.names[i]? = some name

variable {r s : Registry} {u v : CodeUnit} {units : List CodeUnit} {name : String}

/-! ### The index -/

theorem getElem?_names {i : Nat} :
    r.names[i]? = some name ↔ ∃ u, r.units[i]? = some u ∧ u.name = name := by
  rw [names, List.getElem?_map, Option.map_eq_some_iff]

theorem indexed_empty : empty.Indexed := by
  intro name i
  simp [empty, names]

/-- The invariant reads names and index alone. -/
theorem Indexed.of_eq (h : r.Indexed) (names : s.names = r.names) (index : s.index = r.index) :
    s.Indexed := by
  intro name i
  rw [names, index]
  exact h name i

theorem Indexed.nodup_names (h : r.Indexed) : r.names.Nodup := by
  refine List.nodup_iff_injective_getElem.mpr fun i j same => ?_
  have same : r.names[i] = r.names[j] := same
  have here : r.index.lookup r.names[i] = some ↑i := (h _ _).mpr (List.getElem?_eq_getElem i.isLt)
  have there : r.index.lookup r.names[j] = some ↑j := (h _ _).mpr (List.getElem?_eq_getElem j.isLt)
  rw [same, there] at here
  exact Fin.ext (Option.some.inj here).symm

theorem Indexed.lookup_eq_none_iff (h : r.Indexed) :
    r.index.lookup name = none ↔ name ∉ r.names := by
  rw [Option.eq_none_iff_forall_ne_some, List.mem_iff_getElem?, not_exists]
  exact forall_congr' fun i => not_congr (h name i)

theorem Indexed.unit?_eq_some_iff (h : r.Indexed) :
    r.unit? name = some u ↔ u ∈ r.units ∧ u.name = name := by
  rw [unit?, Option.bind_eq_some_iff]
  constructor
  · rintro ⟨i, found, here⟩
    obtain ⟨v, there, named⟩ := getElem?_names.mp ((h name i).mp found)
    cases here.symm.trans there
    exact ⟨List.mem_of_getElem? here, named⟩
  · rintro ⟨member, named⟩
    obtain ⟨i, here⟩ := List.mem_iff_getElem?.mp member
    exact ⟨i, (h name i).mpr (getElem?_names.mpr ⟨u, here, named⟩), here⟩

theorem Indexed.isSome_unit?_iff (h : r.Indexed) : (r.unit? name).isSome ↔ name ∈ r.names := by
  rw [Option.isSome_iff_exists, names, List.mem_map]
  exact exists_congr fun u => h.unit?_eq_some_iff

/-! ### One unit -/

/-- A unit whose name is in use takes the place of the one that has it. -/
theorem add_of_mem (h : r.Indexed) (used : u.name ∈ r.names) :
    ∃ i, r.names[i]? = some u.name ∧ r.add u = { r with units := r.units.set i u } := by
  cases found : r.index.lookup u.name with
  | none => exact absurd used (h.lookup_eq_none_iff.mp found)
  | some i => exact ⟨i, (h u.name i).mp found, by rw [add, found]⟩

/-- A unit of a new name comes last. -/
theorem add_of_not_mem (h : r.Indexed) (unused : u.name ∉ r.names) :
    r.add u = { r with
      index := r.index ++ [(u.name, r.units.length)]
      units := r.units ++ [u] } := by
  rw [add, h.lookup_eq_none_iff.mpr unused]

theorem names_add (h : r.Indexed) :
    (r.add u).names = if u.name ∈ r.names then r.names else r.names ++ [u.name] := by
  split
  · rename_i used
    obtain ⟨i, here, added⟩ := add_of_mem h used
    obtain ⟨inside, here⟩ := List.getElem?_eq_some_iff.mp here
    rw [added, names, List.map_set, ← here]
    exact List.set_getElem_self inside
  · rename_i unused
    simp [add_of_not_mem h unused, names]

theorem Indexed.add (h : r.Indexed) : (r.add u).Indexed := by
  by_cases used : u.name ∈ r.names
  · obtain ⟨i, -, added⟩ := add_of_mem h used
    exact h.of_eq (by rw [names_add h, if_pos used]) (by rw [added])
  · intro name i
    have length : r.names.length = r.units.length := List.length_map _
    have last : (r.names ++ [u.name])[i]? = some name ↔
        r.names[i]? = some name ∨ name ∉ r.names ∧ name = u.name ∧ r.units.length = i := by
      grind
    rw [names_add h, if_neg used, last, add_of_not_mem h used, List.lookup_append,
      Option.or_eq_some_iff, h name i, h.lookup_eq_none_iff]
    have single : [(u.name, r.units.length)].lookup name = some i ↔
        name = u.name ∧ r.units.length = i := by
      rw [List.lookup_cons]
      cases new : name == u.name <;> simp_all
    rw [single]

/-- Of the units that were there, those of another name are left. -/
theorem mem_units_add (h : r.Indexed) :
    v ∈ (r.add u).units ↔ v = u ∨ v ∈ r.units ∧ v.name ≠ u.name := by
  by_cases used : u.name ∈ r.names
  · obtain ⟨i, here, added⟩ := add_of_mem h used
    obtain ⟨w, place, named⟩ := getElem?_names.mp here
    -- The position of the name is the only one at which it stands.
    have only {j : Nat} {v : CodeUnit} (there : r.units[j]? = some v) :
        v.name = u.name ↔ j = i := by
      constructor
      · intro same
        have found := (h u.name j).mpr (getElem?_names.mpr ⟨v, there, same⟩)
        rw [(h u.name i).mpr here] at found
        exact (Option.some.inj found).symm
      · rintro rfl
        cases place.symm.trans there
        exact named
    have inside : i < r.units.length := (List.getElem?_eq_some_iff.mp place).1
    rw [added, List.mem_iff_getElem?, List.mem_iff_getElem?]
    constructor
    · rintro ⟨j, there⟩
      by_cases here : i = j
      · subst here
        exact .inl (by simpa [inside, eq_comm] using there)
      · have there : r.units[j]? = some v := by simpa [here] using there
        exact .inr ⟨⟨j, there⟩, fun same => here ((only there).mp same).symm⟩
    · rintro (rfl | ⟨⟨j, there⟩, other⟩)
      · exact ⟨i, by simp [inside]⟩
      · have apart : i ≠ j := fun here => other ((only there).mpr here.symm)
        exact ⟨j, by simpa [apart] using there⟩
  · rw [add_of_not_mem h used, List.mem_append, List.mem_singleton, or_comm]
    have other (there : v ∈ r.units) : v.name ≠ u.name := fun same =>
      used (same ▸ List.mem_map_of_mem there)
    exact or_congr_right (and_iff_left_of_imp other).symm

theorem unit?_add (h : r.Indexed) :
    (r.add u).unit? name = if u.name = name then some u else r.unit? name := by
  ext v
  rw [h.add.unit?_eq_some_iff, mem_units_add h]
  split
  · rename_i same
    grind
  · rw [h.unit?_eq_some_iff]
    grind

theorem addSupport_eq : r.addSupport u = { r.add u with
    support := if u.name ∈ r.support then r.support else r.support ++ [u.name] } := by
  rw [addSupport, Registry.add, Registry.add]
  dsimp only
  split <;> rfl

@[simp] theorem names_addSupport : (r.addSupport u).names = (r.add u).names := by
  rw [addSupport_eq, names, names]

@[simp] theorem unit?_addSupport : (r.addSupport u).unit? name = (r.add u).unit? name := by
  rw [addSupport_eq, unit?, unit?]

theorem Indexed.addSupport (h : r.Indexed) : (r.addSupport u).Indexed :=
  h.add.of_eq names_addSupport (by rw [addSupport_eq])

@[simp] theorem support_add : (r.add u).support = r.support := by
  rw [add]
  split <;> rfl

@[simp] theorem hook_add : (r.add u).hook = r.hook := by
  rw [add]
  split <;> rfl

@[simp] theorem hook_addSupport : (r.addSupport u).hook = r.hook := by
  rw [addSupport_eq, hook_add]

@[simp] theorem mem_support_addSupport :
    name ∈ (r.addSupport u).support ↔ name ∈ r.support ∨ name = u.name := by
  rw [addSupport_eq]
  dsimp only
  split
  · rename_i there
    exact ⟨.inl, fun h => h.elim id fun same => same ▸ there⟩
  · simp

/-! ### Many units -/

theorem Indexed.foldl {add : Registry → CodeUnit → Registry}
    (step : ∀ {r : Registry} {u}, r.Indexed → (add r u).Indexed) (units : List CodeUnit)
    (h : r.Indexed) : (units.foldl add r).Indexed :=
  List.foldlRecOn units add h fun _ indexed _ _ => step indexed

/-- The last unit of a name is the one that is found, whatever was there before. -/
theorem unit?_foldl {add : Registry → CodeUnit → Registry}
    (indexed : ∀ {r : Registry} {u}, r.Indexed → (add r u).Indexed)
    (step : ∀ {r : Registry} {u}, r.Indexed →
      (add r u).unit? name = if u.name = name then some u else r.unit? name)
    (units : List CodeUnit) (h : r.Indexed) :
    (units.foldl add r).unit? name =
      (units.reverse.find? fun u => u.name = name).or (r.unit? name) := by
  induction units generalizing r with
  | nil => rfl
  | cons u rest ih =>
    rw [List.foldl_cons, ih (indexed h), step h, List.reverse_cons, List.find?_append,
      Option.or_assoc]
    by_cases same : u.name = name <;> simp [same]

theorem mem_support_foldl_addSupport (units : List CodeUnit) (r : Registry) :
    name ∈ (units.foldl addSupport r).support ↔
      name ∈ r.support ∨ name ∈ units.map CodeUnit.name := by
  induction units generalizing r with
  | nil => simp
  | cons u rest ih =>
    rw [List.foldl_cons, ih, mem_support_addSupport, List.map_cons, List.mem_cons, or_assoc]

/-! ### An application and its tracing support -/

/-- The registry that the units of an application and then those of its tracing support are
loaded into. -/
def loaded (units support : List CodeUnit) : Registry :=
  support.foldl addSupport (units.foldl add .empty)

variable {support : List CodeUnit}

theorem indexed_loaded : (loaded units support).Indexed :=
  (indexed_empty.foldl Indexed.add units).foldl Indexed.addSupport support

theorem unit?_loaded :
    (loaded units support).unit? name =
      (units ++ support).reverse.find? fun u => u.name = name := by
  have support_step {r : Registry} {u} (h : r.Indexed) :
      (r.addSupport u).unit? name = if u.name = name then some u else r.unit? name := by
    rw [unit?_addSupport, unit?_add h]
  rw [loaded, unit?_foldl Indexed.addSupport support_step _ (indexed_empty.foldl Indexed.add _),
    unit?_foldl Indexed.add unit?_add _ indexed_empty, List.reverse_append, List.find?_append]
  simp [empty, unit?]

theorem mem_names_loaded :
    name ∈ (loaded units support).names ↔ name ∈ (units ++ support).map CodeUnit.name := by
  rw [← indexed_loaded.isSome_unit?_iff, unit?_loaded, List.find?_isSome]
  simp [or_and_right, exists_or, or_comm]

theorem mem_support_loaded :
    name ∈ (loaded units support).support ↔ name ∈ support.map CodeUnit.name := by
  have none : (units.foldl add .empty).support = [] :=
    List.foldlRecOn (motive := fun r : Registry => r.support = []) units add rfl
      fun _ none _ _ => support_add.trans none
  rw [loaded, mem_support_foldl_addSupport, none]
  simp

theorem hook_loaded : (loaded units support).hook = none := by
  rw [loaded]
  refine List.foldlRecOn (motive := fun r : Registry => r.hook = none) support addSupport ?_
    fun _ fresh _ _ => hook_addSupport.trans fresh
  exact List.foldlRecOn (motive := fun r : Registry => r.hook = none) units add rfl
    fun _ fresh _ _ => hook_add.trans fresh

end Registry

/-! ### Finding the hook -/

namespace Hook

variable {r r' : Registry} {owner method channel : String} {copiesToLog : Bool} {hook : Hook}

/-- Finding the hook changes nothing else. -/
theorem frame_resolve (done : resolve r owner method channel copiesToLog = .ok (hook, r')) :
    r'.units = r.units ∧ r'.index = r.index ∧ r'.support = r.support := by
  rw [resolve, Registry.resolveHook] at done
  grind

/-- The hook that is found is a method of the unit that declares it, if none was found before. -/
theorem resolve_eq_ok (fresh : r.hook = none)
    (done : resolve r owner method channel copiesToLog = .ok (hook, r')) :
    ∃ u m, r.unit? owner = some u ∧ u.methodNamed? method = some m ∧
      hook.method = m.reference owner := by
  rw [resolve, Registry.resolveHook, fresh] at done
  cases found : (r.unit? owner).bind fun u => u.methodNamed? method with
  | none => simp [found] at done
  | some m =>
    simp only [found, Option.filter_none, Except.ok.injEq, Prod.mk.injEq] at done
    obtain ⟨rfl, -⟩ := done
    obtain ⟨u, unit, declared⟩ := Option.bind_eq_some_iff.mp found
    exact ⟨u, m, unit, declared, rfl⟩

end Hook

end Tracepoint
