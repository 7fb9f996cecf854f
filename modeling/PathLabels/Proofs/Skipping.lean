import Mathlib.Data.Set.List
import PathLabels.Json.Fields
import PathLabels.Proofs.JsonText

/-!
# Values are passed over

Passing over a value has a budget for the depth of it, and no value needs more than the text has
characters. So the budget cannot be seen: passing over goes into arrays and objects as far as there
are any. From this it follows that everything is passed over that has the form of a value.
-/

namespace PathLabels

namespace Text.Reader

variable {α β : Type} {k : Nat} {r r' : Reader α}

/-- Two readers do the same with texts of at most `k` characters, and leave no text longer than it
was. -/
def SameUpTo (k : Nat) (r r' : Reader α) : Prop :=
  ∀ s, s.length ≤ k → r s = r' s ∧ ∀ a rest, r s = some (a, rest) → rest.length ≤ s.length

namespace SameUpTo

theorem pure (a : α) : SameUpTo k (Pure.pure a) (Pure.pure a) := by
  refine fun s _ => ⟨rfl, fun a' rest h => ?_⟩
  cases h
  exact Nat.le_refl _

theorem failure : SameUpTo k (failure : Reader α) failure := fun _ _ => ⟨rfl, nofun⟩

theorem bind {f f' : α → Reader β} (hr : SameUpTo k r r') (hf : ∀ a, SameUpTo k (f a) (f' a)) :
    SameUpTo k (r >>= f) (r' >>= f') := by
  intro s hs
  obtain ⟨hsame, hrest⟩ := hr s hs
  rw [bind_apply, bind_apply, ← hsame]
  cases hfound : r s with
  | none => exact ⟨rfl, nofun⟩
  | some found =>
    have hshorter := hrest found.1 found.2 hfound
    obtain ⟨hsame', hrest'⟩ := hf found.1 found.2 (Nat.le_trans hshorter hs)
    exact ⟨hsame', fun b rest h => Nat.le_trans (hrest' b rest h) hshorter⟩

theorem orElse {x x' : Reader α} (hr : SameUpTo k r r') (hx : SameUpTo k x x') :
    SameUpTo k (r <|> x) (r' <|> x') := by
  intro s hs
  obtain ⟨hsame, hrest⟩ := hr s hs
  rw [orElse_apply, orElse_apply, ← hsame]
  cases hfound : r s with
  | none => exact hx s hs
  | some found => exact ⟨rfl, fun a rest h => hrest a rest (hfound.trans h)⟩

theorem map (f : α → β) (hr : SameUpTo k r r') : SameUpTo k (f <$> r) (f <$> r') := by
  rw [map_eq_pure_bind, map_eq_pure_bind]
  exact hr.bind fun a => pure (f a)

theorem satisfy (p : Char → Bool) : SameUpTo k (satisfy p) (satisfy p) := by
  refine fun s _ => ⟨rfl, fun a rest h => ?_⟩
  cases s with
  | nil => cases h
  | cons c s =>
    rw [Reader.satisfy] at h
    split at h
    · cases h
      exact Nat.le_succ _
    · cases h

theorem char (c : Char) : SameUpTo k (char c) (char c) := (satisfy _).map _

/-- Behind a character there is less to read. -/
theorem behind {x x' : Reader α} (c : Char) (hx : SameUpTo k x x') :
    SameUpTo (k + 1) (do Reader.char c; x) (do Reader.char c; x') := by
  intro s hs
  cases s with
  | nil => exact ⟨rfl, nofun⟩
  | cons d s =>
    obtain ⟨hsame, hrest⟩ := hx s (Nat.le_of_succ_le_succ hs)
    rw [bind_apply, bind_apply, Json.char_apply]
    split
    · exact ⟨hsame, fun a rest h => Nat.le_succ_of_le (hrest a rest h)⟩
    · exact ⟨rfl, nofun⟩

theorem word (cs : List Char) : SameUpTo k (word cs) (word cs) := by
  induction cs with
  | nil => exact pure ()
  | cons c cs ih => exact (char c).bind fun _ => ih

theorem takeWhile (p : Char → Bool) : SameUpTo k (takeWhile p) (takeWhile p) := by
  refine fun s _ => ⟨rfl, fun a rest h => ?_⟩
  cases h
  exact (List.dropWhile_suffix p).length_le

theorem takeWhile1 (p : Char → Bool) : SameUpTo k (takeWhile1 p) (takeWhile1 p) := by
  refine (takeWhile p).bind fun s => ?_
  split
  · exact failure
  · exact pure s

theorem optional? (hr : SameUpTo k r r') : SameUpTo k (optional? r) (optional? r') :=
  (hr.map some).orElse (pure none)

/-- What is read again and again leaves less each time. -/
theorem many_self (r : Reader α) : SameUpTo k (Reader.many r) (Reader.many r) := by
  intro s hs
  refine ⟨rfl, ?_⟩
  clear hs
  fun_induction Reader.many r s with
  | case1 s hnone =>
    intro as rest h
    cases h
    exact Nat.le_refl _
  | case2 s a shorter hfound hshorter ih =>
    intro as rest h
    obtain ⟨more, hmore, heq⟩ := Option.map_eq_some_iff.mp h
    cases heq
    exact Nat.le_trans (ih more.1 more.2 hmore) (Nat.le_of_lt hshorter)
  | case3 s a shorter hfound hshorter =>
    intro as rest h
    cases h
    exact Nat.le_refl _

theorem many (hr : SameUpTo k r r') : SameUpTo k (many r) (many r') := by
  intro s
  -- the induction is on the text, which each piece that is read leaves shorter
  induction hn : s.length using Nat.strong_induction_on generalizing s with
  | h n ih =>
    intro hs
    subst hn
    refine ⟨?_, ((many_self r) s hs).2⟩
    rw [Reader.many, Reader.many, ← (hr s hs).1]
    cases hfound : r s with
    | none => rfl
    | some found =>
      dsimp only
      split
      · rename_i hshorter
        rw [(ih _ hshorter found.2 rfl (by omega)).1]
      · rfl

theorem separated {x x' : Reader β} (hr : SameUpTo k r r') (hx : SameUpTo k x x') :
    SameUpTo k (separated r x) (separated r' x') := by
  refine orElse ?_ (pure [])
  refine hr.bind fun a => ?_
  exact (many ((hx.map _).bind fun _ => hr)).bind fun as => pure (a :: as)

end SameUpTo

end Text.Reader

namespace Json

open Text.Reader

section

variable {k : Nat} {α : Type} {r r' : Text.Reader α}

theorem sameUpTo_spaces : SameUpTo k spaces spaces := (SameUpTo.takeWhile isSpace).map _

theorem sameUpTo_spaced (hr : SameUpTo k r r') : SameUpTo k (spaced r) (spaced r') :=
  sameUpTo_spaces.bind fun _ => hr.bind fun a => sameUpTo_spaces.bind fun _ => .pure a

/-- Between two brackets there is less to read than there was before. -/
theorem sameUpTo_enclosed (opening closing : Char) (hr : SameUpTo k r r') :
    SameUpTo (k + 1) (enclosed opening closing r) (enclosed opening closing r') := by
  refine SameUpTo.behind opening ?_
  refine sameUpTo_spaces.bind fun _ => ?_
  refine (SameUpTo.separated (sameUpTo_spaced hr) (SameUpTo.char ',')).bind fun items => ?_
  exact (SameUpTo.char closing).bind fun _ => .pure items

theorem sameUpTo_wholePart : SameUpTo k wholePart wholePart := by
  refine (SameUpTo.takeWhile1 Char.isDigit).bind fun digits => ?_
  split
  · exact .failure
  · exact .pure digits

theorem sameUpTo_decimals : SameUpTo k decimals decimals :=
  (SameUpTo.char '.').bind fun _ => (SameUpTo.takeWhile1 _).bind fun _ => .pure _

theorem sameUpTo_power : SameUpTo k power power :=
  (SameUpTo.satisfy _).bind fun _ => (SameUpTo.satisfy _).optional?.bind fun _ =>
    (SameUpTo.takeWhile1 _).bind fun _ => .pure _

theorem sameUpTo_number : SameUpTo k number number :=
  (SameUpTo.char '-').optional?.bind fun _ => sameUpTo_wholePart.bind fun _ =>
    sameUpTo_decimals.optional?.bind fun _ => sameUpTo_power.optional?.bind fun _ => .pure _

theorem sameUpTo_skipString : SameUpTo k skipString skipString :=
  (SameUpTo.char '"').bind fun _ => ((SameUpTo.many_self _).map _).bind fun _ => SameUpTo.char '"'

theorem sameUpTo_skipScalar : SameUpTo k skipScalar skipScalar :=
  sameUpTo_skipString.orElse <| (SameUpTo.word _).orElse <| (SameUpTo.word _).orElse <|
    (SameUpTo.word _).orElse <| sameUpTo_number.map _

theorem sameUpTo_skipMember {r r' : Text.Reader Unit} (hr : SameUpTo k r r') :
    SameUpTo k (skipMember r) (skipMember r') :=
  sameUpTo_skipString.bind fun _ => sameUpTo_spaces.bind fun _ => (SameUpTo.char ':').bind fun _ =>
    sameUpTo_spaces.bind fun _ => hr

/-- The values in an array or an object are shorter than it is. -/
theorem sameUpTo_skipOuter {r r' : Text.Reader Unit} (hr : SameUpTo k r r') :
    SameUpTo (k + 1) (skipOuter r) (skipOuter r') :=
  sameUpTo_skipScalar.orElse <| ((sameUpTo_enclosed _ _ hr).map _).orElse <|
    (sameUpTo_enclosed _ _ (sameUpTo_skipMember hr)).map _

theorem sameUpTo_skipWithin {n m : Nat} (hn : k ≤ n) (hm : k ≤ m) :
    SameUpTo k (skipWithin n) (skipWithin m) := by
  induction k generalizing n m with
  | zero =>
    -- of an empty text nothing can be passed over, with any budget
    intro s hs
    obtain rfl := List.eq_nil_of_length_eq_zero (Nat.le_zero.mp hs)
    have hnone (depth : Nat) : skipWithin depth [] = none := by
      cases depth with
      | zero => rfl
      | succ depth => rfl
    rw [hnone, hnone]
    exact ⟨rfl, nofun⟩
  | succ k ih =>
    -- a value within a text of `k + 1` characters has at most `k` of them
    obtain ⟨n, rfl⟩ := Nat.exists_eq_add_of_lt hn
    obtain ⟨m, rfl⟩ := Nat.exists_eq_add_of_lt hm
    have hinner : SameUpTo k (skipWithin (k + n)) (skipWithin (k + m)) := ih (by omega) (by omega)
    exact sameUpTo_skipOuter hinner

/-- **Values are passed over to any depth**, with nothing left of the budget to be seen. -/
theorem skip_eq : skip = skipOuter skip := by
  funext s
  have hskip : SameUpTo s.length (skipWithin s.length) skip := fun t ht =>
    sameUpTo_skipWithin ht (Nat.le_refl t.length) t (Nat.le_refl _)
  have hmore : skip s = skipWithin (s.length + 1) s :=
    (sameUpTo_skipWithin (Nat.le_refl _) (Nat.le_succ s.length) s (Nat.le_refl _)).1
  rw [hmore]
  exact (sameUpTo_skipOuter hskip s (Nat.le_succ _)).1

end

/-! ## Forms of values -/

/-- What may stand behind a value in an array or an object. -/
inductive Ends : List Char → Prop where
  | comma (rest : List Char) : Ends (',' :: rest)
  | bracket (rest : List Char) : Ends (']' :: rest)
  | brace (rest : List Char) : Ends ('\x7d' :: rest)

/-- A piece of a string: a character as it is, or one that is escaped, by a letter or by a number.
Any number will do, that of half of a surrogate pair too. -/
inductive IsPiece : List Char → Prop where
  | plain {c : Char} (h : isPlain c = true) : IsPiece [c]
  | letter {c : Char} (h : c ∈ ['"', '\\', '/', 'b', 'f', 'n', 'r', 't']) : IsPiece ['\\', c]
  | number {a b c d : Char} (h : ∀ x ∈ [a, b, c, d], (hexValue? x).isSome = true) :
    IsPiece ['\\', 'u', a, b, c, d]

/-- A string in its quotes, as it may stand where it is passed over. -/
def IsString (v : List Char) : Prop :=
  ∃ pieces : List (List Char), (∀ p ∈ pieces, IsPiece p) ∧ v = '"' :: (pieces.flatten ++ ['"'])

/-- The form of a value with no blanks in it, whose numbers are natural numbers. -/
inductive Form : List Char → Prop where
  | string {v : List Char} (h : IsString v) : Form v
  | null : Form ['n', 'u', 'l', 'l']
  | yes : Form ['t', 'r', 'u', 'e']
  | no : Form ['f', 'a', 'l', 's', 'e']
  | number {d : Char} {ds : List Char} (h : ∀ e ∈ d :: ds, e.isDigit = true)
    (hzero : d = '0' → ds = []) : Form (d :: ds)
  | array {items : List (List Char)} (h : ∀ v ∈ items, Form v) : Form (between '[' ']' items)
  | object {members : List (List Char × List Char)} (hnames : ∀ m ∈ members, IsString m.1)
    (hvalues : ∀ m ∈ members, Form m.2) :
    Form (between '\x7b' '\x7d' (members.map fun m => m.1 ++ ':' :: m.2))

variable {v rest : List Char}

theorem Ends.unspaced (h : Ends rest) : Unspaced rest := by
  cases h with
  | comma => exact unspaced_cons rfl _
  | bracket => exact unspaced_cons rfl _
  | brace => exact unspaced_cons rfl _

/-! ### Strings -/

theorem hexDigit_apply {c : Char} {n : Nat} (h : hexValue? c = some n) (rest : List Char) :
    hexDigit (c :: rest) = some (n, rest) := by
  rw [hexDigit, h]
  rfl

theorem skipStringChar_piece (h : IsPiece v) (rest : List Char) :
    skipStringChar (v ++ rest) = some ((), rest) := by
  cases h with
  | @plain c h =>
    show skipStringChar (c :: rest) = _
    rw [skipStringChar]
    · rw [if_pos h]
    · rintro rfl
      cases h
  | letter h =>
    simp only [List.mem_cons, List.not_mem_nil, or_false] at h
    rcases h with rfl | rfl | rfl | rfl | rfl | rfl | rfl | rfl
    all_goals rfl
  | @number a b c d h =>
    simp only [List.forall_mem_cons, Option.isSome_iff_exists] at h
    obtain ⟨⟨na, ha⟩, ⟨nb, hb⟩, ⟨nc, hc⟩, ⟨nd, hd⟩, -⟩ := h
    show (discard hexQuad : Text.Reader Unit) (a :: b :: c :: d :: rest) = _
    simp only [discard_apply, hexQuad, bind_apply, hexDigit_apply ha, hexDigit_apply hb,
      hexDigit_apply hc, hexDigit_apply hd, Option.bind_some]
    rfl

theorem IsPiece.ne_nil (h : IsPiece v) : v ≠ [] := by
  cases h with
  | plain => exact List.cons_ne_nil _ _
  | letter => exact List.cons_ne_nil _ _
  | number => exact List.cons_ne_nil _ _

theorem skipString_apply (h : IsString v) (rest : List Char) :
    skipString (v ++ rest) = some ((), rest) := by
  obtain ⟨pieces, hpieces, rfl⟩ := h
  lift pieces to List {p : List Char // IsPiece p} using hpieces
  have hmany : many skipStringChar (pieces.flatMap Subtype.val ++ '"' :: rest)
      = some (pieces.map fun _ => (), '"' :: rest) :=
    many_flatMap (fun _ => True) (fun p rest _ => skipStringChar_piece p.2 rest)
      (fun _ _ => trivial) (fun p => p.2.ne_nil) trivial rfl pieces
  rw [List.flatMap_def] at hmany
  simp only [skipString, bind_apply, discard_apply, List.cons_append, List.append_assoc,
    List.nil_append, char_apply, beq_self_eq_true, if_true, Option.bind_some, hmany,
    Option.map_some]

/-! ### Numbers -/

theorem Ends.takeWhile_isDigit {s : List Char} (hs : ∀ c ∈ s, c.isDigit = true) (h : Ends rest) :
    (s ++ rest).takeWhile Char.isDigit = s ∧ (s ++ rest).dropWhile Char.isDigit = rest := by
  have hrest : rest.takeWhile Char.isDigit = [] ∧ rest.dropWhile Char.isDigit = rest := by
    cases h with
    | comma => exact ⟨rfl, rfl⟩
    | bracket => exact ⟨rfl, rfl⟩
    | brace => exact ⟨rfl, rfl⟩
  constructor
  · rw [List.takeWhile_append_of_pos hs, hrest.1, List.append_nil]
  · rw [List.dropWhile_append_of_pos hs, hrest.2]

theorem char_digit {c d : Char} (h : d.isDigit = true) (hc : c.isDigit = false) (s : List Char) :
    Text.Reader.char c (d :: s) = none := by
  refine char_of_ne ?_ s
  rintro rfl
  exact Bool.false_ne_true (hc.symm.trans h)

theorem takeWhile1_isDigit {s : List Char} (hs : ∀ c ∈ s, c.isDigit = true) (hne : s ≠ [])
    (hrest : Ends rest) : takeWhile1 Char.isDigit (s ++ rest) = some (s, rest) := by
  obtain ⟨htake, hdrop⟩ := hrest.takeWhile_isDigit hs
  have htaken : Text.Reader.takeWhile Char.isDigit (s ++ rest) = some (s, rest) := by
    rw [Text.Reader.takeWhile, htake, hdrop]
  rw [takeWhile1, bind_apply, htaken, Option.bind_some]
  dsimp only
  rw [if_neg (by simpa using hne)]
  rfl

theorem wholePart_apply {d : Char} {ds : List Char} (h : ∀ e ∈ d :: ds, e.isDigit = true)
    (hzero : d = '0' → ds = []) (hrest : Ends rest) :
    wholePart (d :: ds ++ rest) = some (d :: ds, rest) := by
  have hone : ¬((d :: ds).head? = some '0' ∧ (d :: ds).length ≠ 1) := by
    rintro ⟨hhead, hlength⟩
    rw [hzero (Option.some_inj.mp hhead)] at hlength
    exact hlength rfl
  rw [wholePart, bind_apply, takeWhile1_isDigit h (List.cons_ne_nil _ _) hrest, Option.bind_some]
  dsimp only
  rw [if_neg hone]
  rfl

theorem number_apply {d : Char} {ds : List Char} (h : ∀ e ∈ d :: ds, e.isDigit = true)
    (hzero : d = '0' → ds = []) (hrest : Ends rest) :
    (discard number : Text.Reader Unit) (d :: ds ++ rest) = some ((), rest) := by
  have hsign : optional? (Text.Reader.char '-') (d :: ds ++ rest)
      = some (none, d :: ds ++ rest) := by
    rw [optional?, orElse_apply, map_apply, List.cons_append,
      char_digit (h d List.mem_cons_self) rfl]
    rfl
  -- what ends a value begins neither a fraction nor a power of ten
  have hdecimals : optional? decimals rest = some (none, rest) := by
    cases hrest with
    | comma => rfl
    | bracket => rfl
    | brace => rfl
  have hpower : optional? power rest = some (none, rest) := by
    cases hrest with
    | comma => rfl
    | bracket => rfl
    | brace => rfl
  simp only [discard_apply, number, bind_apply, hsign, wholePart_apply h hzero hrest, hdecimals,
    hpower, Option.bind_some]
  rfl

/-- Of the values that hold no others, those that begin with a digit are numbers. -/
theorem skipScalar_digit {d : Char} (h : d.isDigit = true) (s : List Char) :
    skipScalar (d :: s) = (discard number : Text.Reader Unit) (d :: s) := by
  simp only [skipScalar, skipString, word, orElse_apply, bind_apply, char_digit (c := '"') h rfl,
    char_digit (c := 'n') h rfl, char_digit (c := 't') h rfl, char_digit (c := 'f') h rfl,
    Option.bind_none]
  rfl

/-! ### Values -/

theorem Form.unspaced (h : Form v) (rest : List Char) : Unspaced (v ++ rest) := by
  cases h with
  | string h =>
    obtain ⟨pieces, -, rfl⟩ := h
    exact unspaced_cons rfl _
  | null => exact unspaced_cons rfl _
  | yes => exact unspaced_cons rfl _
  | no => exact unspaced_cons rfl _
  | @number d ds h =>
    have hspace : isSpace d = false := by
      rw [Bool.eq_false_iff]
      intro hspace
      simp only [isSpace, Bool.or_eq_true, beq_iff_eq] at hspace
      rcases hspace with ((rfl | rfl) | rfl) | rfl
      all_goals exact absurd (h _ List.mem_cons_self) (by decide)
    exact unspaced_cons hspace _
  | array => exact unspaced_cons rfl _
  | object => exact unspaced_cons rfl _

theorem skip_of_skipScalar {s : List Char} (h : skipScalar s = some ((), rest)) :
    skip s = some ((), rest) := by
  rw [skip_eq, skipOuter, orElse_apply, h]
  rfl

theorem skip_bracket {s : List Char} {found : List Unit}
    (h : enclosed '[' ']' skip ('[' :: s) = some (found, rest)) :
    skip ('[' :: s) = some ((), rest) := by
  have hscalar : skipScalar ('[' :: s) = none := rfl
  rw [skip_eq, skipOuter, orElse_apply, orElse_apply, hscalar, discard_apply, h]
  rfl

theorem skip_brace {s : List Char} {found : List Unit}
    (h : enclosed '\x7b' '\x7d' (skipMember skip) ('\x7b' :: s) = some (found, rest)) :
    skip ('\x7b' :: s) = some ((), rest) := by
  have hscalar : skipScalar ('\x7b' :: s) = none := rfl
  have harray : enclosed '[' ']' skip ('\x7b' :: s) = none := rfl
  rw [skip_eq, skipOuter, orElse_apply, orElse_apply, hscalar, discard_apply, harray,
    discard_apply, h]
  rfl

/-- The characters are passed over as a value. -/
def IsSkipped (v : List Char) : Prop := ∀ rest, Ends rest → skip (v ++ rest) = some ((), rest)

theorem isSkipped_array {items : List (List Char)} (h : ∀ v ∈ items, Form v ∧ IsSkipped v) :
    IsSkipped (between '[' ']' items) := by
  intro rest _
  lift items to List {v : List Char // Form v ∧ IsSkipped v} using h
  refine skip_bracket (enclosed_items Ends (fun v rest => v.2.2 rest) (fun v => v.2.1.unspaced)
    (fun _ => Ends.unspaced) .comma .bracket (fun _ => ?_) (by decide) items rest)
  rw [skip_eq]
  rfl

/-- A member is passed over if its name and its value are. -/
theorem skipMember_apply {name : List Char} (hname : IsString name) (hform : Form v)
    (hv : IsSkipped v) (hrest : Ends rest) :
    skipMember skip (name ++ ':' :: v ++ rest) = some ((), rest) := by
  simp only [skipMember, bind_apply, List.append_assoc, List.cons_append, skipString_apply hname,
    Option.bind_some, spaces_apply (unspaced_cons (c := ':') rfl _), char_apply, beq_self_eq_true,
    if_true, spaces_apply (hform.unspaced _), hv rest hrest]

theorem isSkipped_object {members : List (List Char × List Char)}
    (h : ∀ m ∈ members, IsString m.1 ∧ Form m.2 ∧ IsSkipped m.2) :
    IsSkipped (between '\x7b' '\x7d' (members.map fun m => m.1 ++ ':' :: m.2)) := by
  intro rest _
  lift members to List {m : List Char × List Char // IsString m.1 ∧ Form m.2 ∧ IsSkipped m.2}
    using h
  rw [List.map_map]
  refine skip_brace (enclosed_items Ends
    (fun m _ => skipMember_apply m.2.1 m.2.2.1 m.2.2.2) (fun m rest => ?_)
    (fun _ => Ends.unspaced) .comma .brace (fun _ => rfl) (by decide) members rest)
  rw [List.append_assoc]
  exact (Form.string m.2.1).unspaced _

/-- **Everything is passed over that has the form of a value.** -/
theorem skip_form (h : Form v) : IsSkipped v := by
  induction h with
  | string h =>
    intro rest _
    refine skip_of_skipScalar ?_
    rw [skipScalar, orElse_apply, skipString_apply h]
    rfl
  | null => exact fun rest _ => skip_of_skipScalar rfl
  | yes => exact fun rest _ => skip_of_skipScalar rfl
  | no => exact fun rest _ => skip_of_skipScalar rfl
  | @number d ds h hzero =>
    intro rest hrest
    refine skip_of_skipScalar ?_
    rw [List.cons_append, skipScalar_digit (h d List.mem_cons_self)]
    exact number_apply h hzero hrest
  | array h ih => exact isSkipped_array fun v hv => ⟨h v hv, ih v hv⟩
  | object hnames hvalues ih =>
    exact isSkipped_object fun m hm => ⟨hnames m hm, hvalues m hm, ih m hm⟩

end Json

end PathLabels
