import Mathlib.Computability.Language
import PathLabels.Glob.Token

/-!
# The paths that a glob matches

A token matches a set of byte sequences, and tokens in a row match what their sets concatenate to.
Matching works from the last token to the first with one verdict for each suffix of the path, so the
invariant that relates the two is about verdicts: `Says L s v` is that the verdicts `v` tell of each
suffix of `s` whether it is in the language `L`. Each way to combine verdicts then stands for one way
to combine languages.
-/

namespace PathLabels.Glob

/-! ## Languages of tokens -/

/-- One byte that satisfies `p`. -/
def oneOf (p : UInt8 → Bool) : Language UInt8 := {w | ∃ b, p b = true ∧ w = [b]}

/-- Any number of bytes that satisfy `p`. -/
def manyOf (p : UInt8 → Bool) : Language UInt8 := {w | ∀ b ∈ w, p b = true}

/-- Any bytes. -/
def anything : Language UInt8 := manyOf fun _ => true

/-- The bytes `u` and no others. -/
def only (u : List UInt8) : Language UInt8 := {w | w = u}

mutual

/-- What a token matches. -/
def Token.language : Token → Language UInt8
  | .literal c => only (Text.bytesOf [c])
  | .any => oneOf (· != slash)
  | .star => manyOf (· != slash)
  | .leading => 1 + anything * only [slash]
  | .trailing => only [slash] * anything
  | .between => only [slash] * (1 + anything * only [slash])
  | .charClass negated ranges => oneOf fun b => inRanges ranges b != negated
  | .alternates branches => if allVoid branches then 1 else branchesLanguage branches

/-- What tokens in a row match. -/
def sequenceLanguage : List Token → Language UInt8
  | [] => 1
  | t :: ts => t.language * sequenceLanguage ts

/-- What one of several branches matches; void branches are passed over. -/
def branchesLanguage : List (List Token) → Language UInt8
  | [] => 0
  | b :: bs =>
    if branchIsVoid b then branchesLanguage bs else sequenceLanguage b + branchesLanguage bs

end

theorem sequenceLanguage_append (ts us : List Token) :
    sequenceLanguage (ts ++ us) = sequenceLanguage ts * sequenceLanguage us := by
  induction ts with
  | nil => rw [List.nil_append, sequenceLanguage, one_mul]
  | cons t ts ih => rw [List.cons_append, sequenceLanguage, sequenceLanguage, ih, mul_assoc]

/-! ## The first byte of a concatenation -/

section

variable {p : UInt8 → Bool} {L : Language UInt8} {b : UInt8} {s : List UInt8}

theorem nil_notMem_oneOf_mul : [] ∉ oneOf p * L := by
  rintro ⟨_, ⟨c, _, rfl⟩, _, _, h⟩
  cases h

theorem cons_mem_oneOf_mul : b :: s ∈ oneOf p * L ↔ p b = true ∧ s ∈ L := by
  constructor
  · rintro ⟨_, ⟨c, hc, rfl⟩, w, hw, h⟩
    cases h
    exact ⟨hc, hw⟩
  · rintro ⟨hb, hs⟩
    exact ⟨[b], ⟨b, hb, rfl⟩, s, hs, rfl⟩

theorem nil_mem_manyOf_mul : [] ∈ manyOf p * L ↔ [] ∈ L := by
  constructor
  · rintro ⟨u, _, w, hw, h⟩
    rw [(List.append_eq_nil_iff.mp h).2] at hw
    exact hw
  · intro h
    exact ⟨[], by simp [manyOf], [], h, rfl⟩

/-- Either no byte is taken, or the first one is. -/
theorem cons_mem_manyOf_mul :
    b :: s ∈ manyOf p * L ↔ b :: s ∈ L ∨ (p b = true ∧ s ∈ manyOf p * L) := by
  constructor
  · rintro ⟨u, hu, w, hw, h⟩
    cases u with
    | nil => exact Or.inl (h ▸ hw)
    | cons c u =>
      cases h
      have htail : u ∈ manyOf p := fun d hd => hu d (List.mem_cons_of_mem _ hd)
      exact Or.inr ⟨hu _ List.mem_cons_self, u, htail, w, hw, rfl⟩
  · rintro (h | ⟨hb, u, hu, w, hw, rfl⟩)
    · exact ⟨[], by simp [manyOf], b :: s, h, rfl⟩
    · have hcons : b :: u ∈ manyOf p := List.forall_mem_cons.mpr ⟨hb, hu⟩
      exact ⟨b :: u, hcons, w, hw, rfl⟩

theorem only_nil : only [] = 1 := rfl

theorem only_cons (u : List UInt8) : only (b :: u) = oneOf (· == b) * only u := by
  ext w
  constructor
  · rintro rfl
    exact ⟨[b], ⟨b, beq_self_eq_true b, rfl⟩, u, rfl, rfl⟩
  · rintro ⟨_, ⟨c, hc, rfl⟩, _, rfl, rfl⟩
    rw [eq_of_beq hc]
    rfl

theorem only_singleton : only [b] = oneOf (· == b) := by
  rw [only_cons, only_nil, mul_one]

end

/-! ## Verdicts -/

namespace Verdicts

/-- The verdicts tell of each suffix whether it is in the language. -/
inductive Says (L : Language UInt8) : List UInt8 → Verdicts → Prop where
  | nil {b : Bool} : (b = true ↔ [] ∈ L) → Says L [] [b]
  | cons {b : Bool} {x : UInt8} {s : List UInt8} {v : Verdicts} :
      (b = true ↔ x :: s ∈ L) → Says L s v → Says L (x :: s) (b :: v)

variable {L M : Language UInt8} {s : List UInt8} {v w : Verdicts} {x : UInt8}

theorem Says.whole_iff (h : Says L s v) : v.whole = true ↔ s ∈ L := by
  cases h with
  | nil hb => exact hb
  | cons hb _ => exact hb

theorem Says.tail (h : Says L (x :: s) v) : Says L s v.tail := by
  cases h with
  | cons _ hv => exact hv

theorem says_atEnd (s : List UInt8) : Says 1 s (atEnd s) := by
  induction s with
  | nil => exact .nil (iff_of_true rfl rfl)
  | cons x s ih => exact .cons (iff_of_false Bool.false_ne_true (by rintro ⟨⟩)) ih

theorem says_const_false (s : List UInt8) : Says 0 s (const false s) := by
  induction s with
  | nil => exact .nil (iff_of_false Bool.false_ne_true (Language.notMem_zero _))
  | cons x s ih => exact .cons (iff_of_false Bool.false_ne_true (Language.notMem_zero _)) ih

theorem Says.one (p : UInt8 → Bool) (h : Says L s v) : Says (oneOf p * L) s (one p s v) := by
  induction s generalizing v with
  | nil => exact .nil (iff_of_false Bool.false_ne_true nil_notMem_oneOf_mul)
  | cons x s ih =>
    refine .cons ?_ (ih h.tail)
    rw [Bool.and_eq_true, h.tail.whole_iff, cons_mem_oneOf_mul]

theorem Says.many (p : UInt8 → Bool) (h : Says L s v) : Says (manyOf p * L) s (many p s v) := by
  induction s generalizing v with
  | nil => exact .nil (h.whole_iff.trans nil_mem_manyOf_mul.symm)
  | cons x s ih =>
    have hlater := ih h.tail
    refine .cons ?_ hlater
    rw [Bool.or_eq_true, Bool.and_eq_true, h.whole_iff, hlater.whole_iff, cons_mem_manyOf_mul]

theorem Says.either (h : Says L s v) (h' : Says M s w) : Says (L + M) s (either v w) := by
  induction h generalizing w with
  | nil hb =>
    cases h' with
    | nil hb' => exact .nil (by rw [Bool.or_eq_true, hb, hb', Language.mem_add])
  | cons hb _ ih =>
    cases h' with
    | cons hb' hw => exact .cons (by rw [Bool.or_eq_true, hb, hb', Language.mem_add]) (ih hw)

theorem Says.throughSlash (h : Says L s v) :
    Says (anything * only [slash] * L) s (throughSlash s v) := by
  -- the slash that ends the sequence is one byte before what `v` asks for
  rw [mul_assoc, only_singleton]
  induction s generalizing v with
  | nil =>
    refine .nil (iff_of_false Bool.false_ne_true ?_)
    rw [anything, nil_mem_manyOf_mul]
    exact nil_notMem_oneOf_mul
  | cons x s ih =>
    have hlater := ih h.tail
    refine .cons ?_ hlater
    rw [Bool.or_eq_true, Bool.and_eq_true, h.tail.whole_iff, hlater.whole_iff, anything,
      cons_mem_manyOf_mul, cons_mem_oneOf_mul, and_iff_right rfl]

theorem Says.exactly (u : List UInt8) (h : Says L s v) : Says (only u * L) s (exactly u s v) := by
  induction u with
  | nil => rwa [only_nil, one_mul]
  | cons b u ih =>
    rw [only_cons, mul_assoc]
    exact ih.one _

end Verdicts

/-! ## Matching -/

open Verdicts

mutual

/-- **The verdicts of a token are about its language**, followed by what comes after it. -/
theorem Token.says_verdicts {L : Language UInt8} {s : List UInt8} {v : Verdicts} (h : Says L s v) :
    (t : Token) → Says (t.language * L) s (t.verdicts s v)
  | .literal c => h.exactly _
  | .any => h.one _
  | .star => h.many _
  | .leading => by
    rw [Token.language, add_mul, one_mul]
    exact h.either h.throughSlash
  | .trailing => by
    rw [Token.language, mul_assoc]
    exact (h.many _).exactly _
  | .between => by
    rw [Token.language, mul_assoc, add_mul, one_mul]
    exact (h.either h.throughSlash).exactly _
  | .charClass negated ranges => h.one _
  | .alternates branches => by
    rw [Token.language, Token.verdicts]
    split
    · rwa [one_mul]
    · exact says_branchesVerdicts h branches

theorem says_sequenceVerdicts {L : Language UInt8} {s : List UInt8} {v : Verdicts}
    (h : Says L s v) : (ts : List Token) → Says (sequenceLanguage ts * L) s (sequenceVerdicts s ts v)
  | [] => by rwa [sequenceLanguage, one_mul]
  | t :: ts => by
    rw [sequenceLanguage, mul_assoc]
    exact t.says_verdicts (says_sequenceVerdicts h ts)

theorem says_branchesVerdicts {L : Language UInt8} {s : List UInt8} {v : Verdicts}
    (h : Says L s v) :
    (bs : List (List Token)) → Says (branchesLanguage bs * L) s (branchesVerdicts s bs v)
  | [] => by
    rw [branchesLanguage, zero_mul]
    exact says_const_false s
  | b :: bs => by
    rw [branchesLanguage, branchesVerdicts]
    split
    · exact says_branchesVerdicts h bs
    · rw [add_mul]
      exact (says_sequenceVerdicts h b).either (says_branchesVerdicts h bs)

end

/-- **Tokens match exactly the paths in their language.** -/
theorem tokensMatch_iff {glob : Glob} {path : List UInt8} :
    tokensMatch glob path = true ↔ path ∈ sequenceLanguage glob := by
  have hsays := says_sequenceVerdicts (says_atEnd path) glob
  rw [mul_one] at hsays
  exact hsays.whole_iff

end PathLabels.Glob
