import Mathlib.Algebra.Group.Nat.Defs
import Mathlib.Data.List.Nodup
import Tracepoint.Proofs.Probe.Weaving

/-!
# Identifiers are told apart

Different identifiers are shown differently (`ProbeId.render_injective`): the digits of a number
and those of a token are read back, and only tokens are shown with hyphens. What an allocator hands
out is a list (`Allocator.ids`), in which a counter has no identifier twice before it comes round
(`Allocator.nodup_ids_counter`).
-/

namespace Tracepoint

/-! ### How identifiers are shown -/

namespace ProbeId

theorem toList_render_counter (n : UInt64) :
    (counter n).render.toList = Nat.toDigits 10 n.toNat := by
  simp [render, toString, Nat.repr]

theorem length_tokenDigits (bits : BitVec 128) : (tokenDigits bits).length = 32 := by
  simp [tokenDigits]

/-- A hexadecimal digit is no hyphen, and says which number it is. -/
theorem digitChar_of_lt {m n : Nat} (small : m < 16) (small' : n < 16) :
    Nat.digitChar m ≠ '-' ∧ (Nat.digitChar m = Nat.digitChar n → m = n) :=
  (by decide : ∀ m < 16, ∀ n < 16, Nat.digitChar m ≠ '-' ∧
    (Nat.digitChar m = Nat.digitChar n → m = n)) m small n small'

theorem ne_hyphen_of_mem_tokenDigits {bits : BitVec 128} {c : Char}
    (member : c ∈ tokenDigits bits) : c ≠ '-' := by
  obtain ⟨i, -, rfl⟩ := List.mem_map.mp member
  have small : bits.toNat / Nat.pow 16 (31 - i) % 16 < 16 := Nat.mod_lt _ (by decide)
  exact (digitChar_of_lt small small).1

/-- Without its hyphens, a token is shown as its digits. -/
theorem filter_render_token (bits : BitVec 128) :
    (token bits).render.toList.filter (· ≠ '-') = tokenDigits bits := by
  have plain (start count : Nat) : (((tokenDigits bits).drop start).take count).filter (· ≠ '-') =
      ((tokenDigits bits).drop start).take count := by
    refine List.filter_eq_self.mpr fun c member => ?_
    simpa using ne_hyphen_of_mem_tokenDigits (List.mem_of_mem_drop (List.mem_of_mem_take member))
  have onward (start count : Nat) : ((tokenDigits bits).drop start).take count ++
      (tokenDigits bits).drop (start + count) = (tokenDigits bits).drop start := by
    rw [← List.drop_drop, List.take_append_drop]
  have last : ((tokenDigits bits).drop 20).take 12 = (tokenDigits bits).drop 20 :=
    List.take_of_length_le (by simp [length_tokenDigits])
  simp only [render, String.toList_ofList, List.filter_append, List.filter_cons, ne_eq,
    not_true_eq_false, decide_false, Bool.false_eq_true, if_false]
  simp only [ne_eq] at plain
  rw [plain, plain, plain, plain, plain, last, List.append_assoc, List.append_assoc,
    List.append_assoc, onward 16 4, onward 12 4, onward 8 4, onward 0 8, List.drop_zero]

/-- A token is known by its digits. -/
theorem tokenDigits_injective : Function.Injective tokenDigits := by
  intro bits bits' same
  have digit (k : Nat) (bound : k < 32) :
      bits.toNat / 16 ^ k % 16 = bits'.toNat / 16 ^ k % 16 := by
    have here := congrArg (·[31 - k]?) same
    have place : 31 - (31 - k) = k := by omega
    simp only [tokenDigits, List.getElem?_map, List.getElem?_range (show 31 - k < 32 by omega),
      Option.map_some, Option.some.injEq, place] at here
    exact (digitChar_of_lt (Nat.mod_lt _ (by decide)) (Nat.mod_lt _ (by decide))).2 here
  have low (k : Nat) (bound : k ≤ 32) : bits.toNat % 16 ^ k = bits'.toNat % 16 ^ k := by
    induction k with
    | zero => rw [Nat.pow_zero, Nat.mod_one, Nat.mod_one]
    | succ k ih =>
      rw [Nat.mod_pow_succ, Nat.mod_pow_succ, ih (by omega), digit k (by omega)]
  have whole := low 32 (Nat.le_refl 32)
  have wide : 2 ^ 128 = 16 ^ 32 := by decide
  rw [← wide, Nat.mod_eq_of_lt bits.isLt, Nat.mod_eq_of_lt bits'.isLt] at whole
  exact BitVec.eq_of_toNat_eq whole

theorem hyphen_mem_render_token (bits : BitVec 128) : '-' ∈ (token bits).render.toList := by
  simp [render]

theorem hyphen_not_mem_render_counter (n : UInt64) : '-' ∉ (counter n).render.toList := by
  intro member
  rw [toList_render_counter] at member
  have digit := Nat.isDigit_of_mem_toDigits (by decide) (Nat.le_refl 10) member
  exact absurd digit (by decide)

/-- **Different identifiers are shown differently.** -/
theorem render_injective : Function.Injective render := by
  intro x y same
  have chars := congrArg String.toList same
  cases x with
  | counter m =>
    cases y with
    | counter n =>
      rw [toList_render_counter, toList_render_counter] at chars
      have number := congrArg (Nat.ofDigitChars 10 · 0) chars
      simp only [Nat.ofDigitChars_ten_toDigits] at number
      rw [UInt64.toNat_inj.mp number]
    | token bits =>
      exact absurd (chars ▸ hyphen_mem_render_token bits) (hyphen_not_mem_render_counter m)
  | token bits =>
    cases y with
    | counter n =>
      exact absurd (chars ▸ hyphen_mem_render_token bits) (hyphen_not_mem_render_counter n)
    | token bits' =>
      have digits := congrArg (List.filter (· ≠ '-')) chars
      rw [filter_render_token, filter_render_token] at digits
      rw [tokenDigits_injective digits]

example : (token 0x0123456789abcdef0123456789abcdef#128).render =
    "01234567-89ab-cdef-0123-456789abcdef" := by
  decide

end ProbeId

/-! ### What an allocator hands out -/

namespace Allocator

/-- The first identifiers that an allocator hands out. -/
def ids (a : Allocator) : Nat → List ProbeId
  | 0 => []
  | n + 1 => a.next.1 :: a.next.2.ids n

theorem length_ids (a : Allocator) (n : Nat) : (a.ids n).length = n := by
  induction n generalizing a with
  | zero => rfl
  | succ n ih => rw [ids, List.length_cons, ih]

theorem ids_add (a : Allocator) (m n : Nat) : a.ids (m + n) = a.ids m ++ (a.advance m).ids n := by
  induction m generalizing a with
  | zero => rw [Nat.zero_add]; rfl
  | succ m ih => rw [Nat.add_right_comm, ids, ids, ih, advance, List.cons_append]

theorem advance_add (a : Allocator) (m n : Nat) : a.advance (m + n) = (a.advance m).advance n := by
  induction m generalizing a with
  | zero => rw [Nat.zero_add]; rfl
  | succ m ih => rw [Nat.add_right_comm, advance, ih, advance]

theorem ids_counter (start : UInt64) (n : Nat) :
    (counter start).ids n = (List.range n).map fun k => .counter (start + .ofNat k) := by
  induction n generalizing start with
  | zero => rfl
  | succ n ih =>
    have later : (counter start).next.2.ids n =
        (List.range n).map fun k => .counter (start + .ofNat (k + 1)) := by
      rw [next, ih]
      refine List.map_congr_left fun k _ => ?_
      rw [Nat.add_comm k 1, UInt64.ofNat_add, UInt64.add_assoc]
      rfl
    rw [ids, later, List.range_succ_eq_map, List.map_cons, List.map_map]
    simp [next, Function.comp_def]

/-- **A counter hands out no identifier twice** until all numbers are used. -/
theorem nodup_ids_counter (start : UInt64) {n : Nat} (bound : n ≤ 2 ^ 64) :
    ((counter start).ids n).Nodup := by
  rw [ids_counter]
  refine List.nodup_range.map_on fun k below l below' same => ?_
  rw [List.mem_range] at below below'
  have offset : UInt64.ofNat k = .ofNat l := by simpa using same
  have numbers := congrArg UInt64.toNat offset
  rw [UInt64.toNat_ofNat', UInt64.toNat_ofNat'] at numbers
  omega

end Allocator

end Tracepoint
