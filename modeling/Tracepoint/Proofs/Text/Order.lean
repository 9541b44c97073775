import Mathlib.Data.List.Basic
import Tracepoint.Text.Segments

/-!
# The order of texts

Texts are ordered by their code points, which is the order of the bytes that encode them: where
two texts first differ, so do the bytes of the two characters there, and the smaller character
has the smaller byte (`Text.bytes_lt_bytes`). Sorting gives the same whatever the order was
that the texts came in (`Text.sort_eq_of_perm`).
-/

namespace Tracepoint.Text

variable {a b : String} {texts texts' rest : List String}

/-! ### Bytes -/

/-- The bytes that encode a text. -/
def bytes (s : String) : List UInt8 :=
  s.toUTF8.data.toList

theorem bytes_eq (s : String) : bytes s = s.toList.flatMap String.utf8EncodeChar := by
  have encoded : s.toUTF8 = s.toList.utf8Encode := by
    conv_lhs => rw [← String.ofList_toList (s := s)]
    exact String.toByteArray_ofList
  rw [bytes, encoded, List.utf8Encode, List.data_toByteArray]

theorem leadingByte {k n : Nat} (below : k ≤ n) (bound : n < 1114112) :
    (k / 262144 % 8 + 240) % 256 = k / 262144 + 240 := by
  omega

theorem continuationByte (k : Nat) : (k % 64 + 128) % 256 = k % 64 + 128 := by
  omega

/-- The bytes of the smaller of two characters come first, whatever follows. -/
theorem utf8EncodeChar_append_lt {c d : Char} (less : c < d) (x y : List UInt8) :
    String.utf8EncodeChar c ++ x < String.utf8EncodeChar d ++ y := by
  have values : c.val.toNat < d.val.toNat := less
  have bound : d.val.toNat < 1114112 := by
    rcases d.valid with low | high
    · exact Nat.lt_trans low (by decide)
    · exact high.2
  have leading := leadingByte (Nat.le_of_lt values) bound
  have leading' := leadingByte (Nat.le_refl _) bound
  simp only [String.utf8EncodeChar]
  -- A longer encoding has a greater first byte; of two that are equally long the numbers decide.
  repeat' split
  all_goals
    simp only [List.cons_append, List.nil_append, List.cons_lt_cons_iff, UInt8.lt_iff_toNat_lt,
      ← UInt8.toNat_inj, UInt8.toNat_ofNat', Nat.reducePow, continuationByte, leading, leading']
    clear leading leading'
    omega

/-- Where two texts first differ, their bytes do. -/
theorem flatMap_utf8EncodeChar_lt {cs ds : List Char} (less : cs < ds) :
    cs.flatMap String.utf8EncodeChar < ds.flatMap String.utf8EncodeChar := by
  induction less with
  | nil =>
    rename_i d ds
    obtain ⟨b, bs, encoded⟩ := List.exists_cons_of_ne_nil (l := String.utf8EncodeChar d) (by simp)
    rw [List.flatMap_nil, List.flatMap_cons, encoded, List.cons_append]
    exact List.nil_lt_cons _ _
  | rel less =>
    rw [List.flatMap_cons, List.flatMap_cons]
    exact utf8EncodeChar_append_lt less _ _
  | cons _ ih =>
    rw [List.flatMap_cons, List.flatMap_cons]
    exact List.append_left_lt ih

/-- **Of two texts the smaller one has the smaller bytes.** -/
theorem bytes_lt_bytes (less : a < b) : bytes a < bytes b := by
  rw [bytes_eq, bytes_eq]
  exact flatMap_utf8EncodeChar_lt (String.lt_iff.mp less)

/-- A text comes in front of those that it begins. -/
theorem bytes_lt_bytes_append {suffix : String} (occupied : suffix ≠ "") (a : String) :
    bytes a < bytes (a ++ suffix) := by
  obtain ⟨c, cs, chars⟩ : ∃ c cs, suffix.toList = c :: cs :=
    List.exists_cons_of_ne_nil fun empty => occupied (String.toList_eq_nil_iff.mp empty)
  apply bytes_lt_bytes
  have longer : a.toList ++ [] < a.toList ++ c :: cs := List.append_left_lt (List.nil_lt_cons c cs)
  rw [List.append_nil] at longer
  rwa [String.lt_iff, String.toList_append, chars]

/-! ### Sorting -/

theorem le_iff : le a b ↔ a ≤ b := by
  rw [le, ← String.not_lt]
  simp

theorem lt_of_le_of_ne (le : a ≤ b) (differ : a ≠ b) : a < b := by
  by_contra notLess
  exact differ (String.le_antisymm le (String.not_lt.mp notLess))

theorem sort_perm (texts : List String) : (sort texts).Perm texts :=
  List.mergeSort_perm _ _

theorem pairwise_sort (texts : List String) : (sort texts).Pairwise (· ≤ ·) := by
  have trans (a b c : String) (first : le a b) (next : le b c) : le a c :=
    le_iff.mpr (String.le_trans (le_iff.mp first) (le_iff.mp next))
  have total (a b : String) : le a b || le b a := by
    simp [le_iff, String.le_total]
  exact (List.pairwise_mergeSort trans total texts).imp le_iff.mp

/-- The first of sorted texts is the least of them. -/
theorem least_of_sort_eq_cons (sorted : sort texts = a :: rest) :
    a ∈ texts ∧ ∀ b ∈ texts, b ≠ a → bytes a < bytes b := by
  have members : ∀ b, b ∈ a :: rest ↔ b ∈ texts := fun b => sorted ▸ (sort_perm texts).mem_iff
  have ordered := pairwise_sort texts
  rw [sorted, List.pairwise_cons] at ordered
  refine ⟨(members a).mp List.mem_cons_self, fun b member other => ?_⟩
  rcases List.mem_cons.mp ((members b).mpr member) with same | later
  · exact absurd same other
  · exact bytes_lt_bytes (lt_of_le_of_ne (ordered.1 b later) (Ne.symm other))

/-- Sorted texts do not show what order they came in. -/
theorem sort_eq_of_perm (same : texts.Perm texts') : sort texts = sort texts' :=
  List.Perm.eq_of_pairwise (fun _ _ _ _ => String.le_antisymm) (pairwise_sort _) (pairwise_sort _)
    (((sort_perm texts).trans same).trans (sort_perm texts').symm)

/-- Distinct texts are sorted by their bytes, from the least on. -/
theorem pairwise_bytes_sort (distinct : texts.Nodup) :
    (sort texts).Pairwise fun a b => bytes a < bytes b := by
  have differ : (sort texts).Pairwise (· ≠ ·) := (sort_perm texts).nodup_iff.mpr distinct
  exact ((pairwise_sort texts).and differ).imp fun pair =>
    bytes_lt_bytes (lt_of_le_of_ne pair.1 pair.2)

end Tracepoint.Text
