import Mathlib.Algebra.Group.Nat.Defs
import Tracepoint.Json.Decode
import Tracepoint.Json.Parser
import Tracepoint.Proofs.Json.Text

/-!
# Values are read from their text

The values that can be read and held are the well-formed ones (`Json.WellFormed`): numbers are in
range, strings have a text, and containers are closed and nested to a known depth. Documents are
made of regular values (`Json.Regular`), whose numbers are integers of 64 bits; they are
well-formed. No two numbers follow each other in the tokens of a well-formed value, and the machine
over tokens takes them as one value, whatever containers are open around it
(`Json.WellFormed.taken`). Together, any text that its tokens are laid out in is that value and
nothing else (`Json.WellFormed.read_layout`). A well-formed value can be held wherever its depth
is within the limit (`Json.WellFormed.holdable`).
-/

namespace Tracepoint

/-! ### Numbers in range -/

namespace Number

/-- Digits whose number fits in 64 bits all fit. -/
theorem leading_of_lt {v : Nat} {ds : List Nat}
    (fits : ds.foldl (fun n d => 10 * n + d) v < 2 ^ 64) :
    leading v ds = (ds.foldl (fun n d => 10 * n + d) v, 0) := by
  induction ds generalizing v with
  | nil => rfl
  | cons d ds ih =>
    have grows (n : Nat) : n ≤ ds.foldl (fun n d => 10 * n + d) n := by
      clear ih fits
      induction ds generalizing n with
      | nil => exact Nat.le_refl n
      | cons e ds ih => exact Nat.le_trans (by omega) (ih (10 * n + e))
    have here : 10 * v + d < Nat.pow 2 64 :=
      Nat.lt_of_le_of_lt (grows _) (by simpa using fits)
    rw [leading, if_pos here, ih fits]
    rfl

/-- An integer of 64 bits is far from the end of the range of double precision. -/
theorem overflows_ofInt {i : Int} (range : i.natAbs < 2 ^ 64) : (ofInt i).overflows = false := by
  have digits : ((Nat.toDigits 10 i.natAbs).map fun c => c.toNat - '0'.toNat).foldl
      (fun n d => 10 * n + d) 0 = i.natAbs := by
    rw [List.foldl_map]
    exact Nat.ofDigitChars_ten_toDigits
  have whole := leading_of_lt (v := 0) (by rw [digits]; exact range)
  rw [digits] at whole
  simp only [overflows, ofInt, whole, leading, Option.getD_none, List.length_nil]
  simp

end Number

namespace Json

/-- The values that documents are made of, with containers no deeper than a number. -/
inductive Regular : Nat → Json → Prop where
  | null {n : Nat} : Regular n .null
  | bool {n : Nat} (b : Bool) : Regular n (.bool b)
  | int {n : Nat} {i : Int} (range : i.natAbs < 2 ^ 64) : Regular n (.int i)
  | text {n : Nat} (s : String) : Regular n (.text s)
  | list {n : Nat} {items : List Json} (each : ∀ v ∈ items, Regular n v) :
      Regular (n + 1) (.list items)
  | record {n : Nat} {members : List (String × Json)} (each : ∀ m ∈ members, Regular n m.2) :
      Regular (n + 1) (.record members)

/-- The values that can stand in a text and be held: numbers are in the range of double precision,
strings have a text, and containers are closed and no deeper than a number. -/
inductive WellFormed : Nat → Json → Prop where
  | null {n : Nat} : WellFormed n .null
  | bool {n : Nat} (b : Bool) : WellFormed n (.bool b)
  | number {n : Nat} {m : Number} (finite : m.overflows = false) : WellFormed n (.number m)
  | text {n : Nat} (s : String) : WellFormed n (.text s)
  | list {n : Nat} {items : List Json} (each : ∀ v ∈ items, WellFormed n v) :
      WellFormed (n + 1) (.list items)
  | record {n : Nat} {members : List (String × Json)} (each : ∀ m ∈ members, WellFormed n m.2) :
      WellFormed (n + 1) (.record members)

theorem Regular.wellFormed {n : Nat} {v : Json} (h : Regular n v) : WellFormed n v := by
  induction h with
  | null => exact .null
  | bool b => exact .bool b
  | int range => exact .number (Number.overflows_ofInt range)
  | text s => exact .text s
  | list _ ih => exact .list ih
  | record _ ih => exact .record ih

/-- The members of a record with their keys as texts. -/
def keyed (members : List (String × Json)) : List (Option String × Json) :=
  members.map fun m => (some m.1, m.2)

theorem keyed_cons (m : String × Json) (ms : List (String × Json)) :
    keyed (m :: ms) = (some m.1, m.2) :: keyed ms := rfl

theorem record_eq (members : List (String × Json)) :
    record members = .object (keyed members) true := rfl

/-! ### From the text to the tokens -/

open Token in
theorem apart_itemTokens {items : List Json} (each : ∀ v ∈ items, Apart v.tokens) :
    Apart (itemTokens items) := by
  induction items with
  | nil => exact apart_nil
  | cons v vs ih =>
    obtain ⟨head, tail⟩ := List.forall_mem_cons.mp each
    cases vs with
    | nil => exact head
    | cons w vs => exact head.append_cons rfl (ih tail)

open Token in
theorem apart_memberTokens {members : List (String × Json)}
    (each : ∀ m ∈ members, Apart m.2.tokens) : Apart (memberTokens (keyed members)) := by
  induction members with
  | nil => exact apart_nil
  | cons m ms ih =>
    obtain ⟨head, tail⟩ := List.forall_mem_cons.mp each
    cases ms with
    | nil => exact (head.cons rfl).cons rfl
    | cons m' ms => exact ((head.append_cons rfl (ih tail)).cons rfl).cons rfl

open Token in
/-- The tokens of a value have something else between two numbers. -/
theorem WellFormed.apart {n : Nat} {v : Json} (h : WellFormed n v) : Apart v.tokens := by
  induction h with
  | null | bool | number | text => exact List.isChain_singleton _
  | list _ ih => exact ((apart_itemTokens ih).append_cons rfl apart_nil).cons rfl
  | record _ ih => exact ((apart_memberTokens ih).append_cons rfl apart_nil).cons rfl

/-! ### From the tokens to the value -/

open Expecting

/-- The tokens of the value are taken as the value, inside any open containers. -/
def Taken (v : Json) : Prop :=
  ∀ stack rest, run (.value stack) (v.tokens ++ rest) = run (complete v stack) rest

theorem run_cons {e next : Expecting} {t : Token} (read : step e t = some next) (ts : List Token) :
    run e (t :: ts) = run next ts := by
  rw [run, read]

/-- No value begins with the end of an array, so that a first item is read like any value. -/
theorem run_firstItem (v : Json) (stack : List Frame) (rest : List Token) :
    run (.firstItem stack) (v.tokens ++ rest) =
      run (.value (.items [] :: stack)) (v.tokens ++ rest) := by
  cases v <;> rfl

/-- The items of an array after those that are done, up to its end. -/
theorem run_itemTokens {v : Json} {vs : List Json} (each : ∀ w ∈ v :: vs, w.Taken)
    (done : List Json) (stack : List Frame) (rest : List Token) :
    run (.value (.items done :: stack)) (itemTokens (v :: vs) ++ .closeArray :: rest) =
      run (complete (.array (done.reverse ++ v :: vs) true) stack) rest := by
  induction vs generalizing v done with
  | nil =>
    rw [itemTokens, each v List.mem_cons_self, complete, run_cons rfl]
    simp
  | cons w vs ih =>
    obtain ⟨head, tail⟩ := List.forall_mem_cons.mp each
    rw [itemTokens, List.append_assoc, List.cons_append, head, complete, run_cons rfl,
      ih tail (v :: done)]
    simp

/-- The members of an object after those that are done, up to its end. -/
theorem run_memberTokens {m : String × Json} {ms : List (String × Json)}
    (each : ∀ w ∈ m :: ms, w.2.Taken) (done : List (Option String × Json)) (stack : List Frame)
    (rest : List Token) :
    run (.nextKey done stack) (memberTokens (keyed (m :: ms)) ++ .closeObject :: rest) =
      run (complete (.object (done.reverse ++ keyed (m :: ms)) true) stack) rest := by
  induction ms generalizing m done with
  | nil =>
    simp only [keyed, List.map_cons, List.map_nil, memberTokens, List.cons_append]
    rw [run_cons rfl, run_cons rfl, each m List.mem_cons_self, complete, run_cons rfl]
    simp
  | cons m' ms ih =>
    obtain ⟨head, tail⟩ := List.forall_mem_cons.mp each
    have later := ih tail ((some m.1, m.2) :: done)
    simp only [keyed, List.map_cons, memberTokens, List.cons_append, List.append_assoc]
      at later ⊢
    rw [run_cons rfl, run_cons rfl, head, complete, run_cons rfl, later]
    simp

theorem taken_list {items : List Json} (each : ∀ v ∈ items, v.Taken) : (list items).Taken := by
  intro stack rest
  cases items with
  | nil => rfl
  | cons v vs =>
    have items := run_itemTokens each [] stack rest
    have first : run (.firstItem stack) (itemTokens (v :: vs) ++ .closeArray :: rest) =
        run (.value (.items [] :: stack)) (itemTokens (v :: vs) ++ .closeArray :: rest) := by
      cases vs with
      | nil => exact run_firstItem v stack _
      | cons w vs =>
        rw [itemTokens, List.append_assoc]
        exact run_firstItem v stack _
    simp only [list, tokens, if_true, List.cons_append, List.append_assoc, List.nil_append]
    rw [run_cons rfl, first, items]
    rfl

theorem taken_record {members : List (String × Json)} (each : ∀ m ∈ members, m.2.Taken) :
    (record members).Taken := by
  intro stack rest
  cases members with
  | nil => rfl
  | cons m ms =>
    have members := run_memberTokens each [] stack rest
    have first : run (.firstKey stack) (memberTokens (keyed (m :: ms)) ++ .closeObject :: rest) =
        run (.nextKey [] stack) (memberTokens (keyed (m :: ms)) ++ .closeObject :: rest) := by
      cases ms <;> rfl
    simp only [record, tokens, if_true, List.cons_append, List.append_assoc, List.nil_append]
    rw [run_cons rfl]
    exact first.trans members

/-- The tokens of a well-formed value are taken as that value. -/
theorem WellFormed.taken {n : Nat} {v : Json} (h : WellFormed n v) : v.Taken := by
  induction h with
  | null => exact fun _ _ => rfl
  | bool => exact fun _ _ => rfl
  | number => exact fun _ _ => rfl
  | text => exact fun _ _ => rfl
  | list _ ih => exact taken_list ih
  | record _ ih => exact taken_record ih

/-- The tokens of a well-formed value are that value and nothing else. -/
theorem WellFormed.run_tokens {n : Nat} {v : Json} (h : WellFormed n v) :
    run (.value []) v.tokens = (.nothing v, true) := by
  have taken := h.taken [] []
  rw [List.append_nil] at taken
  rw [taken]
  rfl

/-- **Reading any form of a value**: whichever way its tokens are written, and with any white
space between them, the text of a well-formed value is that value and nothing else. -/
theorem WellFormed.read_layout {n : Nat} {v : Json} (h : WellFormed n v) {s : String}
    (layout : Token.Layout v.tokens s.toList) : read s = ⟨some v, true⟩ := by
  rw [read, layout.scan h.apart]
  simp only [h.run_tokens]
  rfl

/-! ### Holding a value before its place is known -/

theorem holdableItems_of_forall {n : Nat} {items : List Json}
    (each : ∀ v ∈ items, v.holdable n) : holdableItems n items := by
  induction items with
  | nil => rfl
  | cons v vs ih =>
    obtain ⟨head, tail⟩ := List.forall_mem_cons.mp each
    rw [holdableItems, head, ih tail]
    rfl

theorem holdableMembers_of_forall {n : Nat} {members : List (String × Json)}
    (each : ∀ m ∈ members, m.2.holdable n) : holdableMembers n (keyed members) := by
  induction members with
  | nil => rfl
  | cons m ms ih =>
    obtain ⟨head, tail⟩ := List.forall_mem_cons.mp each
    rw [keyed_cons, holdableMembers, head]
    exact ih tail

/-- A well-formed value can be held where its depth is within the limit. -/
theorem WellFormed.holdable {n : Nat} {v : Json} (h : WellFormed n v) : v.holdable n := by
  induction h with
  | null => simp [Json.holdable]
  | bool => simp [Json.holdable]
  | number finite => simp [Json.holdable, finite]
  | text => simp [Json.text, Json.holdable]
  | list _ ih => exact holdableItems_of_forall ih
  | record _ ih => exact holdableMembers_of_forall ih

end Json

end Tracepoint
