import Mathlib.Tactic.SplitIfs
import PathLabels.Text.Utf8

/-!
# The order of texts is the order of their bytes

Texts are compared character by character. A longer UTF-8 form begins with a greater byte, and forms
of one length are numerals in base 64, so comparing the bytes gives the same result.
-/

namespace PathLabels.Text

theorem cons_ofNat_lt_iff {m n : Nat} (hm : m < 256) (hn : n < 256) {x y : List UInt8} :
    UInt8.ofNat m :: x < UInt8.ofNat n :: y ↔ m < n ∨ m = n ∧ x < y := by
  rw [List.cons_lt_cons_iff, UInt8.lt_iff_toNat_lt, ← UInt8.toNat_inj, UInt8.toNat_ofNat',
    UInt8.toNat_ofNat', Nat.mod_eq_of_lt hm, Nat.mod_eq_of_lt hn]

/-- A smaller character has the smaller form, whatever follows. -/
theorem utf8EncodeChar_append_lt {c d : Char} (h : c < d) (x y : List UInt8) :
    String.utf8EncodeChar c ++ x < String.utf8EncodeChar d ++ y := by
  have hlt : c.val.toNat < d.val.toNat := h
  have hmax : d.val.toNat < 0x110000 := by
    rcases d.valid with h | h <;> omega
  rw [String.utf8EncodeChar, String.utf8EncodeChar]
  generalize c.val.toNat = m at *
  generalize d.val.toNat = n at *
  have hdiv (v : Nat) : v / 4096 = v / 64 / 64 ∧ v / 262144 = v / 64 / 64 / 64 := by omega
  -- one case for each pair of lengths
  simp only [hdiv]
  split_ifs <;> simp only [List.cons_append, List.nil_append] <;>
    simp (disch := omega) only [cons_ofNat_lt_iff] <;> omega

theorem nil_lt_bytesOf_cons (c : Char) (s : List Char) : [] < bytesOf (c :: s) := by
  rw [bytesOf, List.flatMap_cons]
  cases h : String.utf8EncodeChar c with
  | nil => exact absurd h String.utf8EncodeChar_ne_nil
  | cons b bs => exact List.nil_lt_cons b _

theorem bytesOf_lt_bytesOf {s t : List Char} (h : s < t) : bytesOf s < bytesOf t := by
  induction s generalizing t with
  | nil =>
    cases t with
    | nil => exact absurd h (List.lt_irrefl [])
    | cons d t => exact nil_lt_bytesOf_cons d t
  | cons c s ih =>
    cases t with
    | nil => exact absurd h (List.not_lt_nil _)
    | cons d t =>
      rw [bytesOf, bytesOf, List.flatMap_cons, List.flatMap_cons]
      rcases List.cons_lt_cons_iff.mp h with hcd | ⟨rfl, hst⟩
      · exact utf8EncodeChar_append_lt hcd _ _
      · exact List.append_left_lt (ih hst)

/-- **Texts are ordered as their bytes are.** -/
theorem bytes_lt_bytes_iff {s t : String} : bytes s < bytes t ↔ s < t := by
  refine ⟨fun h => ?_, bytesOf_lt_bytesOf⟩
  by_cases hst : s < t
  · exact hst
  · exfalso
    by_cases hts : t < s
    · exact List.lt_asymm h (bytesOf_lt_bytesOf hts)
    · rw [String.le_antisymm hts hst] at h
      exact List.lt_irrefl _ h

theorem bytes_le_bytes_iff {s t : String} : bytes s ≤ bytes t ↔ s ≤ t :=
  not_congr bytes_lt_bytes_iff

end PathLabels.Text
