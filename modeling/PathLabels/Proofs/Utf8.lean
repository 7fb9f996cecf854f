import Mathlib.Tactic.IntervalCases
import PathLabels.Text.Utf8

/-!
# Reading undoes writing

The first byte of a character says how many bytes follow and which second bytes may, so that no text
has two forms. A character as it is written meets these bounds: the narrower ones keep out exactly
the numbers that have a shorter form, the surrogates, and what lies above the last character.
-/

namespace PathLabels.Text

variable {n v : Nat} {b b₂ b₃ b₄ : UInt8} {lead : Lead} {rest : List UInt8}

theorem toNat_ofNat (h : n < 256) : (UInt8.ofNat n).toNat = n := by
  rw [UInt8.toNat_ofNat', Nat.mod_eq_of_lt h]

/-! ## First bytes -/

/-- A first byte says the length, the highest bits, and the bounds of the second byte. -/
structure Lead.IsOf (lead : Lead) (b : UInt8) (length bits low high : Nat) : Prop where
  ofByte? : Lead.ofByte? b = some lead
  length : lead.length = length
  bits : lead.bits = bits
  low : lead.low.toNat = low
  high : lead.high.toNat = high

theorem Lead.exists_two (h : 0xC2 ≤ n) (h' : n ≤ 0xDF) :
    ∃ lead : Lead, lead.IsOf (UInt8.ofNat n) 2 (n - 0xC0) 0x80 0xBF := by
  interval_cases n <;> exact ⟨_, rfl, rfl, rfl, rfl, rfl⟩

theorem Lead.exists_three (h : 0xE0 ≤ n) (h' : n ≤ 0xEF) :
    ∃ lead : Lead, lead.IsOf (UInt8.ofNat n) 3 (n - 0xE0) (if n = 0xE0 then 0xA0 else 0x80)
      (if n = 0xED then 0x9F else 0xBF) := by
  interval_cases n <;> exact ⟨_, rfl, rfl, rfl, rfl, rfl⟩

theorem Lead.exists_four (h : 0xF0 ≤ n) (h' : n ≤ 0xF4) :
    ∃ lead : Lead, lead.IsOf (UInt8.ofNat n) 4 (n - 0xF0) (if n = 0xF0 then 0x90 else 0x80)
      (if n = 0xF4 then 0x8F else 0xBF) := by
  interval_cases n <;> exact ⟨_, rfl, rfl, rfl, rfl, rfl⟩

/-- A second byte stands within its bounds. -/
theorem Lead.IsOf.second {length bits low high : Nat} (h : lead.IsOf b length bits low high)
    (hlow : low ≤ n) (hhigh : n ≤ high) :
    (UInt8.ofNat n < lead.low || lead.high < UInt8.ofNat n) = false := by
  rw [← h.low] at hlow
  rw [← h.high] at hhigh
  have hn : n < 256 := Nat.lt_of_le_of_lt hhigh lead.high.toNat_lt
  rw [Bool.or_eq_false_iff, decide_eq_false_iff_not, decide_eq_false_iff_not,
    UInt8.lt_iff_toNat_lt, UInt8.lt_iff_toNat_lt, toNat_ofNat hn]
  exact ⟨Nat.not_lt.mpr hlow, Nat.not_lt.mpr hhigh⟩

/-! ## Characters of several bytes -/

theorem ofNat_lt (h : n < 0x80) : UInt8.ofNat n < 0x80 := by
  rw [UInt8.lt_iff_toNat_lt, toNat_ofNat (by omega)]
  exact h

theorem not_ofNat_lt (h : 0x80 ≤ n) (h' : n < 256) : ¬UInt8.ofNat n < 0x80 := by
  rw [UInt8.lt_iff_toNat_lt, toNat_ofNat h']
  exact Nat.not_lt.mpr h

theorem isContinuation_ofNat (h : n < 64) : isContinuation (UInt8.ofNat (n + 0x80)) = true := by
  rw [isContinuation, Bool.and_eq_true, decide_eq_true_eq, decide_eq_true_eq,
    UInt8.le_iff_toNat_le, UInt8.le_iff_toNat_le, toNat_ofNat (by omega)]
  exact ⟨Nat.le_add_left _ _, show n + 128 ≤ 191 by omega⟩

theorem addBits_ofNat (bits : Nat) (h : n < 64) :
    addBits bits (UInt8.ofNat (n + 0x80)) = bits * 64 + n := by
  rw [addBits, toNat_ofNat (by omega)]
  omega

namespace Piece

theorem first_one (hb : b < 0x80) : first b rest = .scalar (Char.ofNat b.toNat) 1 := by
  rw [first, if_pos hb]

theorem first_two (hb : ¬b < 0x80) (hlead : Lead.ofByte? b = some lead) (hlength : lead.length = 2)
    (hsecond : (b₂ < lead.low || lead.high < b₂) = false) :
    first b (b₂ :: rest) = .scalar (Char.ofNat (addBits lead.bits b₂)) 2 := by
  simp [first, if_neg hb, hlead, hsecond, hlength]

theorem first_three (hb : ¬b < 0x80) (hlead : Lead.ofByte? b = some lead)
    (hlength : lead.length = 3) (hsecond : (b₂ < lead.low || lead.high < b₂) = false)
    (hthird : isContinuation b₃ = true) :
    first b (b₂ :: b₃ :: rest)
      = .scalar (Char.ofNat (addBits (addBits lead.bits b₂) b₃)) 3 := by
  simp [first, if_neg hb, hlead, hsecond, hlength, hthird]

theorem first_four (hb : ¬b < 0x80) (hlead : Lead.ofByte? b = some lead)
    (hlength : lead.length = 4) (hsecond : (b₂ < lead.low || lead.high < b₂) = false)
    (hthird : isContinuation b₃ = true) (hfourth : isContinuation b₄ = true) :
    first b (b₂ :: b₃ :: b₄ :: rest)
      = .scalar (Char.ofNat (addBits (addBits (addBits lead.bits b₂) b₃) b₄)) 4 := by
  simp [first, if_neg hb, hlead, hsecond, hlength, hthird, hfourth]

end Piece

/-! ## Written characters -/

/-- What a written character begins with is that character. -/
theorem exists_first_utf8EncodeChar (c : Char) (rest : List UInt8) :
    ∃ b bs, String.utf8EncodeChar c = b :: bs
      ∧ Piece.first b (bs ++ rest) = .scalar c (bs.length + 1) := by
  have hchar : Char.ofNat c.val.toNat = c := Char.ofNat_toNat c
  have hvalid : c.val.toNat < 0xD800 ∨ 0xDFFF < c.val.toNat ∧ c.val.toNat < 0x110000 := c.valid
  rw [String.utf8EncodeChar]
  generalize c.val.toNat = v at *
  split
  · refine ⟨_, [], rfl, ?_⟩
    rw [Piece.first_one (ofNat_lt (by omega)), toNat_ofNat (by omega), hchar]
    rfl
  split
  · refine ⟨_, [_], rfl, ?_⟩
    obtain ⟨lead, h⟩ := Lead.exists_two (n := v / 64 % 32 + 192) (by omega) (by omega)
    have hv : (v / 64 % 32 + 192 - 0xC0) * 64 + v % 64 = v := by omega
    rw [List.cons_append, Piece.first_two (not_ofNat_lt (by omega) (by omega)) h.ofByte? h.length
      (h.second (by omega) (by omega)), addBits_ofNat _ (by omega), h.bits, hv, hchar]
    rfl
  split
  · refine ⟨_, [_, _], rfl, ?_⟩
    obtain ⟨lead, h⟩ := Lead.exists_three (n := v / 4096 % 16 + 224) (by omega) (by omega)
    have hv : ((v / 4096 % 16 + 224 - 0xE0) * 64 + v / 64 % 64) * 64 + v % 64 = v := by omega
    rw [List.cons_append, List.cons_append,
      Piece.first_three (not_ofNat_lt (by omega) (by omega)) h.ofByte? h.length
        (h.second (by split <;> omega) (by split <;> omega)) (isContinuation_ofNat (by omega)),
      addBits_ofNat _ (by omega), addBits_ofNat _ (by omega), h.bits, hv, hchar]
    rfl
  · refine ⟨_, [_, _, _], rfl, ?_⟩
    obtain ⟨lead, h⟩ := Lead.exists_four (n := v / 262144 % 8 + 240) (by omega) (by omega)
    have hv : (((v / 262144 % 8 + 240 - 0xF0) * 64 + v / 4096 % 64) * 64 + v / 64 % 64) * 64
        + v % 64 = v := by omega
    rw [List.cons_append, List.cons_append, List.cons_append,
      Piece.first_four (not_ofNat_lt (by omega) (by omega)) h.ofByte? h.length
        (h.second (by split <;> omega) (by split <;> omega)) (isContinuation_ofNat (by omega))
        (isContinuation_ofNat (by omega)),
      addBits_ofNat _ (by omega), addBits_ofNat _ (by omega), addBits_ofNat _ (by omega), h.bits,
      hv, hchar]
    rfl

/-- The bytes of a character outside ASCII are none of ASCII. -/
theorem le_of_mem_utf8EncodeChar {c : Char} (hc : 0x80 ≤ c.val.toNat) :
    ∀ b ∈ String.utf8EncodeChar c, 0x80 ≤ b.toNat := by
  have hbyte {n : Nat} (hle : 0x80 ≤ n) (hlt : n < 256) : 0x80 ≤ (UInt8.ofNat n).toNat :=
    (toNat_ofNat hlt).symm ▸ hle
  have hlast {n : Nat} : 0x80 ≤ (UInt8.ofNat (n % 64 + 128)).toNat := hbyte (by omega) (by omega)
  rw [String.utf8EncodeChar]
  generalize c.val.toNat = v at *
  rw [if_neg (by omega)]
  split
  · simp only [List.forall_mem_cons]
    exact ⟨hbyte (by omega) (by omega), hlast, List.forall_mem_nil _⟩
  split
  · simp only [List.forall_mem_cons]
    exact ⟨hbyte (by omega) (by omega), hlast, hlast, List.forall_mem_nil _⟩
  · simp only [List.forall_mem_cons]
    exact ⟨hbyte (by omega) (by omega), hlast, hlast, hlast, List.forall_mem_nil _⟩

/-! ## ASCII -/

section

variable {a c : Char}

theorem utf8EncodeChar_of_lt (h : c.toNat < 0x80) :
    String.utf8EncodeChar c = [UInt8.ofNat c.toNat] := by
  have h : c.val.toNat ≤ 0x7F := Nat.le_of_lt_succ h
  rw [String.utf8EncodeChar, if_pos h]
  rfl

/-- The byte of an ASCII character is part of no other character. -/
theorem mem_utf8EncodeChar_iff (ha : a.toNat < 0x80) :
    UInt8.ofNat a.toNat ∈ String.utf8EncodeChar c ↔ c = a := by
  constructor
  · intro hmem
    by_cases hc : c.toNat < 0x80
    · rw [utf8EncodeChar_of_lt hc, List.mem_singleton] at hmem
      have hvalue := congrArg UInt8.toNat hmem
      rw [toNat_ofNat (by omega), toNat_ofNat (by omega)] at hvalue
      exact (Char.toNat_inj.mp hvalue).symm
    · have hlarge := le_of_mem_utf8EncodeChar (Nat.not_lt.mp hc) _ hmem
      rw [toNat_ofNat (by omega)] at hlarge
      omega
  · rintro rfl
    rw [utf8EncodeChar_of_lt ha]
    exact List.mem_singleton_self _

theorem mem_bytesOf_iff (ha : a.toNat < 0x80) {s : List Char} :
    UInt8.ofNat a.toNat ∈ bytesOf s ↔ a ∈ s := by
  rw [bytesOf, List.mem_flatMap]
  simp only [mem_utf8EncodeChar_iff ha, exists_eq_right]

/-- An ASCII character is as often in a text as its byte in the bytes of the text. -/
theorem count_bytesOf (ha : a.toNat < 0x80) (s : List Char) :
    (bytesOf s).count (UInt8.ofNat a.toNat) = s.count a := by
  induction s with
  | nil => rfl
  | cons c s ih =>
    rw [bytesOf, List.flatMap_cons, ← bytesOf, List.count_append, ih]
    by_cases hc : c = a
    · subst hc
      rw [utf8EncodeChar_of_lt ha, List.count_cons_self, List.count_cons_self, List.count_nil]
      omega
    · have hnone := mt (mem_utf8EncodeChar_iff ha).mp hc
      rw [List.count_eq_zero_of_not_mem hnone, List.count_cons_of_ne hc, Nat.zero_add]

end

/-! ## Written texts -/

theorem pieces_utf8EncodeChar_append (c : Char) (rest : List UInt8) :
    ∃ width, pieces (String.utf8EncodeChar c ++ rest) = .scalar c width :: pieces rest := by
  obtain ⟨b, bs, hbytes, hfirst⟩ := exists_first_utf8EncodeChar c rest
  refine ⟨bs.length + 1, ?_⟩
  rw [hbytes, List.cons_append, pieces, hfirst]
  dsimp only
  rw [Nat.add_sub_cancel, List.drop_left]

theorem decodePieces_bytesOf (index : Nat) (s : List Char) :
    decodePieces index (pieces (bytesOf s)) = .ok s := by
  induction s generalizing index with
  | nil => simp [bytesOf, pieces, decodePieces]
  | cons c s ih =>
    obtain ⟨width, hpieces⟩ := pieces_utf8EncodeChar_append c (bytesOf s)
    rw [bytesOf, List.flatMap_cons, ← bytesOf, hpieces, decodePieces, ih]
    rfl

/-- **Reading undoes writing.** -/
theorem decode_bytes (s : String) : decode (bytes s) = .ok s := by
  rw [decode, bytes, decodePieces_bytesOf]
  exact congrArg Except.ok (String.ofList_toList)

theorem map_toChar_of_decodePieces {ps : List Piece} {index : Nat} {s : List Char}
    (h : decodePieces index ps = .ok s) : ps.map Piece.toChar = s := by
  induction ps generalizing index s with
  | nil => cases h; rfl
  | cons p ps ih =>
    cases p with
    | scalar c width =>
      rw [decodePieces] at h
      cases hrest : decodePieces (index + width) ps with
      | error e => rw [hrest] at h; cases h
      | ok rest =>
        rw [hrest] at h
        cases h
        rw [List.map_cons, ih hrest]
        rfl
    | malformed width => cases h
    | truncated => cases h

/-- Bytes that are text are read as that text either way. -/
theorem decodeLossy_of_decode {bs : List UInt8} {text : String} (h : decode bs = .ok text) :
    decodeLossy bs = text := by
  unfold decode at h
  cases hchars : decodePieces 0 (pieces bs) with
  | error e => rw [hchars] at h; cases h
  | ok s =>
    rw [hchars] at h
    cases h
    rw [decodeLossy, map_toChar_of_decodePieces hchars]

end PathLabels.Text
