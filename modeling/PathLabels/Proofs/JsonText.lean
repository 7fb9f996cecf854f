import Mathlib.Tactic.IntervalCases
import PathLabels.Json.Reading
import PathLabels.Json.Writing

/-!
# Written strings are read back

A string is written with its quotes, backslashes and control characters escaped. So the quote that
ends it is the first one that a reader meets as such, and no line ends within it. This file reads
back what has been written, from a character to an array of strings: each reader takes exactly what
its writer has put there and leaves what follows.
-/

namespace PathLabels

namespace Text.Reader

variable {α β : Type} {r : Reader α}

theorem bind_apply (r : Reader α) (f : α → Reader β) (s : List Char) :
    (r >>= f) s = (r s).bind fun found => f found.1 found.2 := rfl

theorem map_apply (f : α → β) (r : Reader α) (s : List Char) :
    (f <$> r) s = (r s).map fun found => (f found.1, found.2) := by
  cases h : r s with
  | none => simp [Functor.map, StateT.map, h]
  | some found => simp [Functor.map, StateT.map, h]

theorem discard_apply (r : Reader α) (s : List Char) :
    (discard r : Reader Unit) s = (r s).map fun found => ((), found.2) := map_apply _ r s

theorem orElse_apply (r r' : Reader α) (s : List Char) :
    (r <|> r') s = (r s <|> r' s) := rfl

/-- What is written piece by piece is read so, up to where no further piece can be read. Whether a
piece is read may depend on what stands after it. -/
theorem many_flatMap {write : β → List Char} {f : β → α} (ends : List Char → Prop)
    (hread : ∀ b rest, ends rest → r (write b ++ rest) = some (f b, rest))
    (hends : ∀ b rest, ends (write b ++ rest)) (hne : ∀ b, write b ≠ []) {rest : List Char}
    (hrest : ends rest) (hstop : r rest = none) (items : List β) :
    many r (items.flatMap write ++ rest) = some (items.map f, rest) := by
  induction items with
  | nil => rw [List.flatMap_nil, List.nil_append, many, hstop, List.map_nil]
  | cons b items ih =>
    have hnext : ends (items.flatMap write ++ rest) := by
      cases items with
      | nil => exact hrest
      | cons b' items =>
        rw [List.flatMap_cons, List.append_assoc]
        exact hends b' _
    -- a piece is not empty, so the reader does not take it for the end
    have hshorter : (items.flatMap write ++ rest).length
        < (write b ++ (items.flatMap write ++ rest)).length := by
      have hpos := List.length_pos_iff.mpr (hne b)
      simp only [List.length_append]
      omega
    rw [List.flatMap_cons, List.append_assoc, many, hread b _ hnext]
    dsimp only
    rw [if_pos hshorter, ih]
    rfl

theorem separated_of_some {separator : Reader β} {s rest rest' : List Char} {a : α} {as : List α}
    (ha : r s = some (a, rest))
    (has : many (do discard separator; r) rest = some (as, rest')) :
    separated r separator s = some (a :: as, rest') := by
  simp only [separated, orElse_apply, bind_apply, ha, has, Option.bind_some]
  rfl

theorem separated_of_none {separator : Reader β} {s : List Char} (h : r s = none) :
    separated r separator s = some ([], s) := by
  simp only [separated, orElse_apply, bind_apply, h, Option.bind_none]
  rfl

end Text.Reader

namespace Json

open Text.Reader

variable {c : Char} {rest : List Char}

/-! ## Characters -/

theorem hexValue?_digitChar {n : Nat} (h : n < 16) : hexValue? (Nat.digitChar n) = some n := by
  interval_cases n <;> rfl

theorem hexDigit_digitChar {n : Nat} (h : n < 16) (rest : List Char) :
    hexDigit (Nat.digitChar n :: rest) = some (n, rest) := by
  rw [hexDigit, hexValue?_digitChar h]
  rfl

/-- A number below 256 is read back from its four digits. -/
theorem hexQuad_hexPair {n : Nat} (h : n < 256) (rest : List Char) :
    hexQuad ('0' :: '0' :: (hexPair n ++ rest)) = some (n, rest) := by
  have hzero : ∀ rest, hexDigit ('0' :: rest) = some (0, rest) := fun rest => rfl
  have hn : n / 16 * 16 + n % 16 = n := by omega
  simp only [hexQuad, bind_apply, hzero, hexPair, List.cons_append, List.nil_append,
    hexDigit_digitChar (show n / 16 < 16 by omega), hexDigit_digitChar (show n % 16 < 16 by omega),
    Option.bind_some, Nat.zero_mul, Nat.zero_add, hn]
  rfl

theorem numbered_hexPair (h : c.toNat < 0x20) (rest : List Char) :
    numbered ('0' :: '0' :: (hexPair c.toNat ++ rest)) = some (c, rest) := by
  rw [numbered, bind_apply, hexQuad_hexPair (by omega), Option.bind_some]
  dsimp only
  rw [if_neg (by omega), if_neg (by omega), Char.ofNat_toNat]
  rfl

/-- An escaped character is a backslash and a letter, a backslash and a number, or itself. -/
theorem escaped_cases (c : Char) :
    (∃ d, escaped c = ['\\', d] ∧ 0x20 ≤ d.toNat ∧ d.toNat < 0x80
        ∧ ∀ rest, afterBackslash (d :: rest) = some (c, rest))
      ∨ (escaped c = '\\' :: 'u' :: '0' :: '0' :: hexPair c.toNat ∧ c.toNat < 0x20)
      ∨ (escaped c = [c] ∧ isPlain c = true) := by
  rw [escaped]
  -- seven characters are written with one character behind the backslash
  iterate 7
    split
    · rename_i h
      subst h
      exact Or.inl ⟨_, rfl, by decide, by decide, fun _ => rfl⟩
  split
  · rename_i h
    exact Or.inr (Or.inl ⟨rfl, h⟩)
  · rename_i hquote hbackslash _ _ _ _ _ hcontrol
    refine Or.inr (Or.inr ⟨rfl, ?_⟩)
    simp [isPlain, hquote, hbackslash, Nat.le_of_not_lt hcontrol]

theorem stringChar_plain (h : isPlain c = true) (rest : List Char) :
    stringChar (c :: rest) = some (c, rest) := by
  rw [stringChar]
  · rw [if_pos h]
  · rintro rfl
    cases h

/-- **An escaped character is read back.** -/
theorem stringChar_escaped (c : Char) (rest : List Char) :
    stringChar (escaped c ++ rest) = some (c, rest) := by
  rcases escaped_cases c with ⟨d, h, -, -, hread⟩ | ⟨h, hcontrol⟩ | ⟨h, hplain⟩
  · rw [h]
    exact hread rest
  · -- the first two digits of the number are zeros
    rw [h]
    exact numbered_hexPair hcontrol rest
  · rw [h]
    exact stringChar_plain hplain rest

theorem escaped_ne_nil (c : Char) : escaped c ≠ [] := by
  rcases escaped_cases c with ⟨d, h, -⟩ | ⟨h, -⟩ | ⟨h, -⟩
  all_goals
    rw [h]
    exact List.cons_ne_nil _ _

theorem le_toNat_digitChar {n : Nat} (h : n < 16) : 0x20 ≤ (Nat.digitChar n).toNat := by
  interval_cases n <;> decide

/-- **No control character is left in an escaped one.** -/
theorem le_toNat_of_mem_escaped {d : Char} (h : d ∈ escaped c) : 0x20 ≤ d.toNat := by
  rcases escaped_cases c with ⟨e, heq, he, -⟩ | ⟨heq, hcontrol⟩ | ⟨heq, hplain⟩
  · rw [heq] at h
    rcases List.mem_cons.mp h with rfl | h
    · decide
    · rw [List.mem_singleton.mp h]
      exact he
  · rw [heq] at h
    have hhigh := le_toNat_digitChar (n := c.toNat / 16) (by omega)
    have hlow := le_toNat_digitChar (n := c.toNat % 16) (by omega)
    have hall : ∀ d ∈ '\\' :: 'u' :: '0' :: '0' :: hexPair c.toNat, 0x20 ≤ d.toNat := by
      simp [hexPair, hhigh, hlow]
    exact hall d h
  · rw [heq, List.mem_singleton] at h
    subst h
    simp only [isPlain, Bool.and_eq_true, decide_eq_true_eq] at hplain
    exact hplain.1.1

/-! ## Strings -/

theorem stringBody_stringText (s : String) (rest : List Char) :
    stringBody (stringText s ++ rest) = some (s, rest) := by
  have hchars : many stringChar (s.toList.flatMap escaped ++ '"' :: rest)
      = some (s.toList.map id, '"' :: rest) :=
    many_flatMap (fun _ => True) (fun c rest _ => stringChar_escaped c rest) (fun _ _ => trivial)
      escaped_ne_nil trivial rfl s.toList
  have hquote : ∀ rest, Text.Reader.char '"' ('"' :: rest) = some ((), rest) := fun _ => rfl
  rw [stringText, List.cons_append, List.append_assoc, List.singleton_append]
  simp only [stringBody, bind_apply, hquote, hchars, Option.bind_some, List.map_id,
    String.ofList_toList]
  rfl

/-! ## Items between brackets -/

/-- No blank stands at the beginning of a text. -/
def Unspaced (s : List Char) : Prop := s.dropWhile isSpace = s

theorem unspaced_nil : Unspaced [] := rfl

theorem unspaced_cons (h : isSpace c = false) (s : List Char) : Unspaced (c :: s) := by
  rw [Unspaced, List.dropWhile_cons_of_neg (by rw [h]; exact Bool.false_ne_true)]

theorem spaces_apply {s : List Char} (h : Unspaced s) : spaces s = some ((), s) :=
  congrArg (fun s => some ((), s)) h

theorem spaced_apply {α : Type} {r : Text.Reader α} {s : List Char} {a : α} (hs : Unspaced s)
    (hrest : Unspaced rest) (h : r s = some (a, rest)) : spaced r s = some (a, rest) := by
  simp only [spaced, bind_apply, spaces_apply hs, Option.bind_some, h, spaces_apply hrest]
  rfl

theorem char_apply (c d : Char) (s : List Char) :
    Text.Reader.char c (d :: s) = if d == c then some ((), s) else none := by
  rw [Text.Reader.char, discard_apply, Text.Reader.satisfy]
  split
  · rfl
  · rfl

theorem char_of_ne {c d : Char} (h : d ≠ c) (s : List Char) :
    Text.Reader.char c (d :: s) = none := by
  rw [char_apply, if_neg (by simpa using h)]

/-- Items between two brackets, with commas between them. -/
def between (opening closing : Char) (items : List (List Char)) : List Char :=
  opening :: ([','].intercalate items ++ [closing])

theorem between_append (opening closing : Char) (items : List (List Char)) (rest : List Char) :
    between opening closing items ++ rest
      = opening :: ([','].intercalate items ++ closing :: rest) := by
  rw [between, List.cons_append, List.append_assoc, List.singleton_append]

theorem intercalate_comma (item : List Char) (items : List (List Char)) :
    [','].intercalate (item :: items) = item ++ items.flatMap (',' :: ·) := by
  induction items generalizing item with
  | nil => simp
  | cons next items ih => rw [List.intercalate_cons_cons, ih, List.flatMap_cons]; simp

section

variable {α β : Type} {opening closing : Char} {r : Text.Reader α} {write : β → List Char}
  {f : β → α}

theorem enclosed_apply {s : List Char} {items : List α} (hs : Unspaced s)
    (h : separated (spaced r) (Text.Reader.char ',') s = some (items, closing :: rest)) :
    enclosed opening closing r (opening :: s) = some (items, rest) := by
  simp only [enclosed, bind_apply, char_apply, beq_self_eq_true, if_true, spaces_apply hs, h,
    Option.bind_some]
  rfl

/-- **What is written between brackets is read item by item.** An item is read if something stands
behind it that can end it, which a comma and the closing bracket can. -/
theorem enclosed_items (ends : List Char → Prop)
    (hread : ∀ b rest, ends rest → r (write b ++ rest) = some (f b, rest))
    (hwrite : ∀ b rest, Unspaced (write b ++ rest)) (hends : ∀ rest, ends rest → Unspaced rest)
    (hcomma : ∀ rest, ends (',' :: rest)) (hclosing : ∀ rest, ends (closing :: rest))
    (hstop : ∀ rest, spaced r (closing :: rest) = none) (hne : closing ≠ ',') (items : List β)
    (rest : List Char) :
    enclosed opening closing r (between opening closing (items.map write) ++ rest)
      = some (items.map f, rest) := by
  have hnext (b : β) (rest : List Char) (h : ends rest) :
      spaced r (write b ++ rest) = some (f b, rest) :=
    spaced_apply (hwrite b rest) (hends rest h) (hread b rest h)
  rw [between_append]
  cases items with
  | nil => exact enclosed_apply (hends _ (hclosing rest)) (separated_of_none (hstop rest))
  | cons b items =>
    have hcommas (b : β) (rest : List Char) (h : ends rest) :
        (do discard (Text.Reader.char ','); spaced r) (',' :: write b ++ rest)
          = some (f b, rest) := hnext b rest h
    have hlast : (do discard (Text.Reader.char ','); spaced r) (closing :: rest) = none := by
      rw [bind_apply, discard_apply, char_of_ne hne]
      rfl
    have hmany : many (do discard (Text.Reader.char ','); spaced r)
        ((items.flatMap fun b => ',' :: write b) ++ closing :: rest)
          = some (items.map f, closing :: rest) :=
      many_flatMap ends hcommas (fun _ _ => hcomma _) (fun _ => List.cons_ne_nil _ _)
        (hclosing rest) hlast items
    have hbehind : ends ((items.flatMap fun b => ',' :: write b) ++ closing :: rest) := by
      cases items with
      | nil => exact hclosing rest
      | cons b items => exact hcomma _
    rw [List.map_cons, intercalate_comma, List.flatMap_map, List.append_assoc]
    exact enclosed_apply (hwrite b _) (separated_of_some (hnext b _ hbehind) hmany)

end

/-! ## Arrays of strings -/

theorem unspaced_stringText (s : String) (rest : List Char) : Unspaced (stringText s ++ rest) :=
  unspaced_cons rfl _

theorem unspaced_ofStrings (items : List String) : Unspaced (compactChars (.ofStrings items)) := by
  cases items with
  | nil => exact unspaced_cons rfl _
  | cons s items => exact unspaced_cons rfl _

theorem value_stringText (depth : Nat) (s : String) (rest : List Char) :
    value depth (stringText s ++ rest) = some (.string s, rest) := by
  have hscalar : scalar (stringText s ++ rest) = some (.string s, rest) := by
    simp only [scalar, orElse_apply, map_apply, stringBody_stringText]
    rfl
  cases depth with
  | zero => exact hscalar
  | succ depth =>
    rw [value, orElse_apply, orElse_apply, hscalar]
    rfl

/-- No value begins with the end of an array. -/
theorem value_closing (depth : Nat) (rest : List Char) :
    spaced (value depth) (']' :: rest) = none := by
  cases depth with
  | zero => rfl
  | succ depth => rfl

theorem compactItems_strings (items : List String) :
    compactItems (items.map .string)
      = (items.flatMap fun s => ',' :: stringText s) ++ [']'] := by
  induction items with
  | nil => rfl
  | cons s items ih =>
    rw [List.map_cons, compactItems, compactChars, ih, List.flatMap_cons, List.append_assoc]
    rfl

theorem compactChars_ofStrings (items : List String) :
    compactChars (.ofStrings items) = between '[' ']' (items.map stringText) := by
  cases items with
  | nil => rfl
  | cons s items =>
    rw [between, List.map_cons, intercalate_comma, List.flatMap_map, List.append_assoc,
      Value.ofStrings, List.map_cons, compactChars, compactChars, compactItems_strings]

theorem enclosed_strings (depth : Nat) (items : List String) (rest : List Char) :
    enclosed '[' ']' (value depth) (compactChars (.ofStrings items) ++ rest)
      = some (items.map .string, rest) := by
  rw [compactChars_ofStrings]
  exact enclosed_items Unspaced (fun s rest _ => value_stringText depth s rest) unspaced_stringText
    (fun _ h => h) (fun _ => unspaced_cons rfl _) (fun _ => unspaced_cons rfl _)
    (value_closing depth) (by decide) items rest

theorem value_ofStrings (depth : Nat) (items : List String) (rest : List Char) :
    value (depth + 1) (compactChars (.ofStrings items) ++ rest)
      = some (.ofStrings items, rest) := by
  -- a scalar does not begin with a bracket
  have hscalar : scalar (compactChars (.ofStrings items) ++ rest) = none := by
    cases items with
    | nil => rfl
    | cons => rfl
  rw [value, orElse_apply, orElse_apply, map_apply, enclosed_strings, hscalar]
  rfl

/-- **An array of strings is read back.** -/
theorem Value.ofText?_compact (items : List String) :
    Value.ofText? (Value.ofStrings items).compact = some (.ofStrings items) := by
  have hvalue := value_ofStrings 126 items []
  rw [List.append_nil] at hvalue
  have hspaced : spaced (value depthLimit) (compactChars (.ofStrings items))
      = some (.ofStrings items, []) :=
    spaced_apply (unspaced_ofStrings items) unspaced_nil hvalue
  rw [Value.ofText?, Value.compact, String.toList_ofList, Value.ofChars?, Text.Reader.parse,
    hspaced]

theorem le_toNat_of_mem_stringText {s : String} (h : c ∈ stringText s) : 0x20 ≤ c.toNat := by
  rcases List.mem_cons.mp h with rfl | h
  · decide
  rcases List.mem_append.mp h with h | h
  · obtain ⟨d, -, hd⟩ := List.mem_flatMap.mp h
    exact le_toNat_of_mem_escaped hd
  · rw [List.mem_singleton.mp h]
    decide

/-- **No control character stands in an array of strings**, so no line ends there. -/
theorem Value.le_toNat_of_mem_compact {items : List String}
    (h : c ∈ (Value.ofStrings items).compact.toList) : 0x20 ≤ c.toNat := by
  rw [Value.compact, String.toList_ofList, Value.ofStrings] at h
  cases items with
  | nil =>
    rcases List.mem_cons.mp h with rfl | h
    · decide
    · rw [List.mem_singleton.mp h]
      decide
  | cons s items =>
    rw [List.map_cons, compactChars, compactChars, compactItems_strings] at h
    rcases List.mem_cons.mp h with rfl | h
    · decide
    rcases List.mem_append.mp h with h | h
    · exact le_toNat_of_mem_stringText h
    rcases List.mem_append.mp h with h | h
    · obtain ⟨s, -, hs⟩ := List.mem_flatMap.mp h
      rcases List.mem_cons.mp hs with rfl | hs
      · decide
      · exact le_toNat_of_mem_stringText hs
    · rw [List.mem_singleton.mp h]
      decide

end Json

end PathLabels
