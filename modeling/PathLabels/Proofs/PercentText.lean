import PathLabels.Http.Percent
import PathLabels.Proofs.Utf8

/-!
# What percent-encoded text stands for

A part of an address is written by encoding the characters that may not stand in it, and is read by
decoding. Encoding leaves a percent sign alone, so decoding does not give back every text that has
been encoded: it gives back what the text stood for before. A text without escapes stands for
itself, and no text stands for a longer one.
-/

namespace PathLabels

/-! ## The number of pieces -/

namespace Text

/-- How many bytes a piece has. -/
def Piece.width : Piece → Nat
  | .scalar _ width => width
  | .malformed width => width
  | .truncated => 0

/-- A second byte is none that begins a character. -/
theorem Lead.bounds {b x : UInt8} {lead : Lead} (h : Lead.ofByte? b = some lead)
    (hx : (x < lead.low || lead.high < x) = false) : isContinuation x = true := by
  have hlead : (0x80 : UInt8) ≤ lead.low ∧ lead.high ≤ 0xBF := by
    unfold Lead.ofByte? at h
    dsimp only at h
    repeat' split at h
    all_goals cases h <;> exact ⟨of_decide_eq_true rfl, of_decide_eq_true rfl⟩
  simp only [Bool.or_eq_false_iff, decide_eq_false_iff_not, UInt8.not_lt] at hx
  rw [isContinuation, Bool.and_eq_true, decide_eq_true_eq, decide_eq_true_eq]
  exact ⟨UInt8.le_trans hlead.1 hx.1, UInt8.le_trans hx.2 hlead.2⟩

/-- Behind its first byte, a piece has only bytes that begin no character. -/
theorem Piece.isContinuation_of_first {b : UInt8} {rest : List UInt8} :
    ∀ x ∈ rest.take ((Piece.first b rest).width - 1), isContinuation x = true := by
  unfold Piece.first
  split
  · simp [Piece.width]
  cases hlead : Lead.ofByte? b with
  | none => simp [Piece.width]
  | some lead =>
    rcases rest with _ | ⟨b₂, rest⟩
    · simp [Piece.width]
    dsimp only
    split
    · simp [Piece.width]
    rename_i h₂
    have h₂ := Lead.bounds hlead (Bool.not_eq_true _ ▸ h₂)
    split
    · simpa [Piece.width] using h₂
    rcases rest with _ | ⟨b₃, rest⟩
    · simp [Piece.width]
    dsimp only
    split
    · simpa [Piece.width] using h₂
    rename_i h₃
    have h₃ : isContinuation b₃ = true := by simpa using h₃
    split
    · simp [Piece.width, h₂, h₃]
    rcases rest with _ | ⟨b₄, rest⟩
    · simp [Piece.width]
    dsimp only
    split
    · simp [Piece.width, h₂, h₃]
    · rename_i h₄
      have h₄ : isContinuation b₄ = true := by simpa using h₄
      simp [Piece.width, h₂, h₃, h₄]

theorem pieces_cons_of_isContinuation {b : UInt8} (h : isContinuation b = true)
    (rest : List UInt8) : pieces (b :: rest) = .malformed 1 :: pieces rest := by
  obtain ⟨hlow, hhigh⟩ : 0x80 ≤ b.toNat ∧ b.toNat ≤ 0xBF := by
    simpa [isContinuation, UInt8.le_iff_toNat_le] using h
  have hbyte : ¬b < 0x80 := by
    rw [UInt8.lt_iff_toNat_lt]
    exact Nat.not_lt.mpr hlow
  have hlead : Lead.ofByte? b = none := by
    have : ¬0xC2 ≤ b.toNat := by omega
    grind [Lead.ofByte?]
  have hfirst : Piece.first b rest = .malformed 1 := by
    rw [Piece.first, if_neg hbyte, hlead]
  rw [pieces, hfirst]
  rfl

/-- Without bytes that begin no character there are no more pieces than with them. -/
theorem length_pieces_drop_le {n : Nat} {rest : List UInt8}
    (h : ∀ b ∈ rest.take n, isContinuation b = true) :
    (pieces (rest.drop n)).length ≤ (pieces rest).length := by
  induction n generalizing rest with
  | zero => exact Nat.le_refl _
  | succ n ih =>
    cases rest with
    | nil => exact Nat.le_refl _
    | cons b rest =>
      rw [List.take_succ_cons, List.forall_mem_cons] at h
      rw [pieces_cons_of_isContinuation h.1, List.length_cons, List.drop_succ_cons]
      exact Nat.le_succ_of_le (ih h.2)

/-- **One more byte in front makes one more piece at most**, whatever it makes of the others. -/
theorem length_pieces_cons_le (b : UInt8) (rest : List UInt8) :
    (pieces (b :: rest)).length ≤ (pieces rest).length + 1 := by
  have hdrop : (pieces (rest.drop ((Piece.first b rest).width - 1))).length
      ≤ (pieces rest).length := length_pieces_drop_le Piece.isContinuation_of_first
  rw [pieces]
  cases hfirst : Piece.first b rest with
  | scalar c width =>
    rw [hfirst] at hdrop
    exact Nat.succ_le_succ hdrop
  | malformed width =>
    rw [hfirst] at hdrop
    exact Nat.succ_le_succ hdrop
  | truncated => exact Nat.succ_le_succ (Nat.zero_le _)

end Text

namespace Http.Percent

/-! ## Digits -/

/-- The value of a character as a hexadecimal digit. -/
def hexOf? (c : Char) : Option Nat :=
  if c.toNat < 0x80 then hexValue? (UInt8.ofNat c.toNat) else none

theorem hexOf?_digit {n : Nat} (h : n < 16) : hexOf? (digit n) = some n := by
  interval_cases n <;> rfl

variable {c : Char} {rest : List UInt8}

/-- A digit is written as one byte of the same value. -/
theorem utf8EncodeChar_of_hexOf? {n : Nat} (h : hexOf? c = some n) :
    ∃ b, String.utf8EncodeChar c = [b] ∧ hexValue? b = some n := by
  unfold hexOf? at h
  split at h
  · rename_i hascii
    exact ⟨_, Text.utf8EncodeChar_of_lt hascii, h⟩
  · cases h

theorem hexValue?_of_le {b : UInt8} (h : 0x80 ≤ b.toNat) : hexValue? b = none := by
  grind [hexValue?]

/-- What is no digit is written with a first byte that is none. -/
theorem utf8EncodeChar_of_hexOf?_none (h : hexOf? c = none) :
    ∃ b bs, String.utf8EncodeChar c = b :: bs ∧ hexValue? b = none := by
  unfold hexOf? at h
  split at h
  · rename_i hascii
    exact ⟨_, [], Text.utf8EncodeChar_of_lt hascii, h⟩
  · rename_i hother
    obtain ⟨b, bs, hbytes, -⟩ := Text.exists_first_utf8EncodeChar c []
    refine ⟨b, bs, hbytes, hexValue?_of_le ?_⟩
    refine Text.le_of_mem_utf8EncodeChar (Nat.not_lt.mp hother) b ?_
    rw [hbytes]
    exact List.mem_cons_self

/-! ## Decoding -/

theorem decodeBytes_escape {a b : UInt8} {x y : Nat} (hx : hexValue? a = some x)
    (hy : hexValue? b = some y) (rest : List UInt8) :
    decodeBytes (0x25 :: a :: b :: rest) = UInt8.ofNat (x * 16 + y) :: decodeBytes rest := by
  rw [decodeBytes, hx, hy]

/-- A percent sign without two digits behind it stands for itself. -/
theorem decodeBytes_percent {rest : List UInt8}
    (h : ∀ a b rest', rest = a :: b :: rest' → hexValue? a = none ∨ hexValue? b = none) :
    decodeBytes (0x25 :: rest) = 0x25 :: decodeBytes rest := by
  rcases rest with _ | ⟨a, _ | ⟨b, rest⟩⟩
  · rfl
  · rfl
  · rw [decodeBytes]
    rcases h a b rest rfl with h | h
    · rw [h]
    · rw [h]
      cases hexValue? a <;> rfl

theorem decodeBytes_cons {b : UInt8} (h : b ≠ 0x25) (rest : List UInt8) :
    decodeBytes (b :: rest) = b :: decodeBytes rest := by
  rw [decodeBytes]
  exact fun a => by simp [h]

theorem decodeBytes_append {front : List UInt8} (h : 0x25 ∉ front) (rest : List UInt8) :
    decodeBytes (front ++ rest) = front ++ decodeBytes rest := by
  induction front with
  | nil => rfl
  | cons b front ih =>
    rw [List.mem_cons, not_or] at h
    rw [List.cons_append, decodeBytes_cons (Ne.symm h.1), ih h.2, List.cons_append]

theorem not_mem_utf8EncodeChar (h : c ≠ '%') : 0x25 ∉ String.utf8EncodeChar c :=
  mt (Text.mem_utf8EncodeChar_iff (a := '%') (by decide)).mp h

/-- **An encoded byte is decoded to itself.** -/
theorem decodeBytes_encodeByte (b : UInt8) (rest : List UInt8) :
    decodeBytes (Text.bytesOf (encodeByte b) ++ rest) = b :: decodeBytes rest := by
  have hb : b.toNat < 256 := b.toNat_lt
  obtain ⟨high, hhigh, hx⟩ := utf8EncodeChar_of_hexOf? (hexOf?_digit (n := b.toNat / 16) (by omega))
  obtain ⟨low, hlow, hy⟩ := utf8EncodeChar_of_hexOf? (hexOf?_digit (n := b.toNat % 16) (by omega))
  have hbytes : Text.bytesOf (encodeByte b) = [0x25, high, low] := by
    simp [Text.bytesOf, encodeByte, hhigh, hlow, Text.utf8EncodeChar_of_lt]
  have hvalue : UInt8.ofNat (b.toNat / 16 * 16 + b.toNat % 16) = b := by
    rw [Nat.div_add_mod', UInt8.ofNat_toNat]
  rw [hbytes]
  exact (decodeBytes_escape hx hy rest).trans (by rw [hvalue])

/-! ## What texts stand for -/

/-- The bytes that a text stands for: an escape for one byte, any other character for its own. -/
def unescaped : List Char → List UInt8
  | '%' :: a :: b :: s =>
    match hexOf? a, hexOf? b with
    | some x, some y => UInt8.ofNat (x * 16 + y) :: unescaped s
    | _, _ => 0x25 :: unescaped (a :: b :: s)
  | c :: s => String.utf8EncodeChar c ++ unescaped s
  | [] => []

/-- A set of characters that can be encoded without a change to the escapes that are there. -/
def SparesEscapes (set : Char → Bool) : Prop :=
  ∀ c, set c = true → c ≠ '%' ∧ hexOf? c = none

section

variable {set : Char → Bool}

theorem bytesOf_encode_cons_of_mem (h : set c = true) (s : List Char) :
    Text.bytesOf (encode set (c :: s))
      = (String.utf8EncodeChar c).flatMap (fun b => Text.bytesOf (encodeByte b))
        ++ Text.bytesOf (encode set s) := by
  simp [encode, h, Text.bytesOf, List.flatMap_assoc]

theorem bytesOf_encode_cons_of_not_mem (h : set c = false) (s : List Char) :
    Text.bytesOf (encode set (c :: s))
      = String.utf8EncodeChar c ++ Text.bytesOf (encode set s) := by
  simp [encode, h, Text.bytesOf]

variable (hset : SparesEscapes set)
include hset

theorem SparesEscapes.bytesOf_digit {n : Nat} (h : hexOf? c = some n) (s : List Char) :
    ∃ b, Text.bytesOf (encode set (c :: s)) = b :: Text.bytesOf (encode set s)
      ∧ hexValue? b = some n := by
  have hc : set c = false := by
    rw [← Bool.not_eq_true]
    intro hmem
    rw [(hset c hmem).2] at h
    cases h
  obtain ⟨b, hbytes, hvalue⟩ := utf8EncodeChar_of_hexOf? h
  exact ⟨b, by rw [bytesOf_encode_cons_of_not_mem hc, hbytes, List.singleton_append], hvalue⟩

omit hset in
theorem bytesOf_other (set : Char → Bool) (h : hexOf? c = none) (s : List Char) :
    ∃ b bs, Text.bytesOf (encode set (c :: s)) = b :: bs ∧ hexValue? b = none := by
  obtain ⟨b, bs, hbytes, hvalue⟩ := utf8EncodeChar_of_hexOf?_none h
  cases hc : set c with
  | true =>
    rw [bytesOf_encode_cons_of_mem hc, hbytes]
    exact ⟨0x25, _, rfl, rfl⟩
  | false =>
    rw [bytesOf_encode_cons_of_not_mem hc, hbytes]
    exact ⟨b, _, rfl, hvalue⟩

/-- Encoding makes no escape behind a percent sign that had none. -/
theorem SparesEscapes.decodeBytes_percent {s : List Char}
    (h : ∀ a b s' x y, s = a :: b :: s' → hexOf? a = some x → hexOf? b ≠ some y) :
    decodeBytes (0x25 :: Text.bytesOf (encode set s))
      = 0x25 :: decodeBytes (Text.bytesOf (encode set s)) := by
  refine Percent.decodeBytes_percent fun x y rest hbytes => ?_
  rcases s with _ | ⟨a, s⟩
  · cases hbytes
  cases ha : hexOf? a with
  | none =>
    obtain ⟨x', bs, hother, hvalue⟩ := bytesOf_other set ha s
    rw [hother] at hbytes
    exact Or.inl ((List.cons.inj hbytes).1 ▸ hvalue)
  | some n =>
    obtain ⟨x', hdigit, -⟩ := hset.bytesOf_digit ha s
    rw [hdigit] at hbytes
    rcases s with _ | ⟨b, s⟩
    · cases (List.cons.inj hbytes).2
    have hb : hexOf? b = none :=
      Option.eq_none_iff_forall_ne_some.mpr fun m => h a b s n m rfl ha
    obtain ⟨y', bs, hother, hvalue⟩ := bytesOf_other set hb s
    rw [hother] at hbytes
    exact Or.inr ((List.cons.inj (List.cons.inj hbytes).2).1 ▸ hvalue)

omit hset in
theorem decodeBytes_encode_cons (h : c ≠ '%') (s : List Char) :
    decodeBytes (Text.bytesOf (encode set (c :: s)))
      = String.utf8EncodeChar c ++ decodeBytes (Text.bytesOf (encode set s)) := by
  cases hc : set c with
  | true =>
    rw [bytesOf_encode_cons_of_mem hc]
    induction String.utf8EncodeChar c with
    | nil => rfl
    | cons b bs ih =>
      rw [List.flatMap_cons, List.append_assoc, decodeBytes_encodeByte, ih, List.cons_append]
  | false => rw [bytesOf_encode_cons_of_not_mem hc, decodeBytes_append (not_mem_utf8EncodeChar h)]

/-- **What an encoded text stands for is what the text stands for.** -/
theorem SparesEscapes.decodeBytes_encode (s : List Char) :
    decodeBytes (Text.bytesOf (encode set s)) = unescaped s := by
  have hpercent (s : List Char) :
      Text.bytesOf (encode set ('%' :: s)) = 0x25 :: Text.bytesOf (encode set s) := by
    have hc : set '%' = false := by
      rw [← Bool.not_eq_true]
      exact fun hmem => (hset '%' hmem).1 rfl
    exact bytesOf_encode_cons_of_not_mem hc s
  fun_induction unescaped s with
  | case1 a b s x y hy hx ih =>
    obtain ⟨b₁, h₁, hx'⟩ := hset.bytesOf_digit hx (b :: s)
    obtain ⟨b₂, h₂, hy'⟩ := hset.bytesOf_digit hy s
    rw [hpercent, h₁, h₂, decodeBytes_escape hx' hy', ih]
  | case2 a b s hnone ih =>
    rw [hpercent, hset.decodeBytes_percent, ih]
    intro a' b' s' x y hs ha hb
    cases hs
    exact hnone x y ha hb
  | case3 c s hc ih =>
    by_cases hp : c = '%'
    · subst hp
      rw [hpercent, hset.decodeBytes_percent, ih]
      · rfl
      · exact fun a b s' x y hs _ _ => hc a b s' rfl hs
    · rw [decodeBytes_encode_cons hp, ih]
  | case4 => rfl

end

theorem sparesEscapes_inPath : SparesEscapes inPath := by
  have hascii : ∀ n < 0x80, hexValue? (UInt8.ofNat n) = none ∨ inPath (Char.ofNat n) = false := by
    decide
  intro c hc
  refine ⟨fun heq => absurd hc (by rw [heq]; decide), ?_⟩
  rw [hexOf?]
  split
  · rename_i hlt
    refine (hascii _ hlt).resolve_right ?_
    rw [Char.ofNat_toNat, hc]
    nofun
  · rfl

/-- Text as it is stands for the same as text that is encoded. -/
theorem decodeBytes_bytesOf (s : List Char) : decodeBytes (Text.bytesOf s) = unescaped s := by
  have hself : encode (fun _ => false) s = s := List.flatMap_singleton' s
  have hnone : SparesEscapes fun _ => false := fun _ h => by cases h
  have hdecode := hnone.decodeBytes_encode s
  rwa [hself] at hdecode

/-- **Decoding gives back what the text stood for before it was encoded.** -/
theorem decode_encode (s : List Char) : decode (encode inPath s) = decode s := by
  rw [decode, decode, sparesEscapes_inPath.decodeBytes_encode, decodeBytes_bytesOf]

/-- Without a percent sign there is nothing to decode. -/
theorem decode_of_not_mem {s : List Char} (h : '%' ∉ s) : decode s = s := by
  have hpercent : 0x25 ∉ Text.bytesOf s := by
    rw [Text.bytesOf, List.mem_flatMap]
    rintro ⟨c, hc, hmem⟩
    exact not_mem_utf8EncodeChar (fun heq => h (heq ▸ hc)) hmem
  have hbytes : decodeBytes (Text.bytesOf s) = Text.bytesOf s := by
    simpa [decodeBytes] using decodeBytes_append hpercent []
  have hread := Text.decode_bytes (String.ofList s)
  rw [Text.bytes, String.toList_ofList] at hread
  rw [decode, hbytes, Text.decodeLossy_of_decode hread, String.toList_ofList]

theorem length_pieces_unescaped_le (s : List Char) :
    (Text.pieces (unescaped s)).length ≤ s.length := by
  fun_induction unescaped s with
  | case1 a b s x y _ _ ih =>
    refine (Text.length_pieces_cons_le _ _).trans ?_
    simp only [List.length_cons]
    omega
  | case2 a b s _ ih =>
    refine (Text.length_pieces_cons_le _ _).trans ?_
    simp only [List.length_cons] at ih ⊢
    omega
  | case3 c s _ ih =>
    obtain ⟨width, hpieces⟩ := Text.pieces_utf8EncodeChar_append c (unescaped s)
    rw [hpieces]
    exact Nat.succ_le_succ ih
  | case4 =>
    rw [Text.pieces]
    exact Nat.le_refl _

/-- **No text stands for a longer one.** -/
theorem length_decode_le (s : List Char) : (decode s).length ≤ s.length := by
  rw [decode, decodeBytes_bytesOf, Text.decodeLossy, String.toList_ofList, List.length_map]
  exact length_pieces_unescaped_le s

end Http.Percent

end PathLabels
