import Mathlib.Algebra.Order.BigOperators.Group.List
import Mathlib.Data.List.TakeWhile
import PathLabels.Http.Url
import PathLabels.Proofs.Components
import PathLabels.Proofs.PercentText

/-!
# How an address is read

An interface is given by a scheme and a host, and what a client asks of it is written behind them.
The host then ends where that begins, whatever it is: it settles the path, the query and the
fragment, and nothing before them. In the path the characters that may not stand in an address do
not count, both kinds of slashes separate, and dot segments are resolved.
-/

namespace PathLabels.Http

-- what a text holds is checked by going through the text, not through all characters
instance decidableForallMem (p : Char → Prop) [DecidablePred p] (s : List Char) :
    Decidable (∀ c ∈ s, p c) :=
  List.decidableBAll p s

instance decidableForallMemOption (p : Char → Prop) [DecidablePred p] (c? : Option Char) :
    Decidable (∀ c ∈ c?, p c) :=
  c?.decidableForallMem

/-- The text of a scheme and a host, perhaps with a service, and of nothing else. -/
structure Origin where
  initial : Char
  name : List Char
  host : List Char
  isAlpha : initial.isAlpha = true
  isScheme : name.all Url.isSchemeChar = true
  nonempty : host ≠ []
  /-- A host ends before slashes, marks and blanks. -/
  plain : ∀ c ∈ host, 0x20 < c.toNat ∧ c ∉ ['/', '\\', '?', '#']

/-- The characters of an origin. -/
def Origin.text (o : Origin) : List Char := o.initial :: (o.name ++ ':' :: '/' :: '/' :: o.host)

/-- The scheme in lower case. -/
def Origin.scheme (o : Origin) : String := String.ofList ((o.initial :: o.name).map Char.toLower)

namespace Url

/-! ## Cutting a text -/

variable {mark : Char} {s t : List Char}

theorem cutAt_append (h : mark ∉ s) (t : List Char) :
    cutAt mark (s ++ t) = (s ++ (cutAt mark t).1, (cutAt mark t).2) := by
  have hfront : ∀ c ∈ s, (c != mark) = true := by
    intro c hc
    exact bne_iff_ne.mpr fun heq => h (heq ▸ hc)
  rw [cutAt, List.dropWhile_append_of_pos hfront, List.takeWhile_append_of_pos hfront, cutAt]
  cases t.dropWhile (· != mark) <;> rfl

theorem cutAt_cons_self (mark : Char) (t : List Char) : cutAt mark (mark :: t) = ([], some t) := by
  simp [cutAt]

theorem cutAt_fst (mark : Char) (s : List Char) :
    (cutAt mark s).1 = s.takeWhile (· != mark) := by
  rw [cutAt]
  split
  · rename_i h
    have happend := List.takeWhile_append_dropWhile (p := (· != mark)) (l := s)
    rw [h, List.append_nil] at happend
    exact happend.symm
  · rfl

/-! ## What counts in a text -/

/-- The characters that count. -/
def kept (t : List Char) : List Char := t.filter fun c => !(c == '\t' || c == '\n' || c == '\r')

theorem dropWhile_of_head? {p : Char → Bool} (h : ∀ c ∈ s.head?, p c = false) :
    s.dropWhile p = s := by
  cases s with
  | nil => rfl
  | cons c s => rw [List.dropWhile_cons, h c rfl, if_neg Bool.false_ne_true]

theorem takeWhile_of_head? {p : Char → Bool} (h : ∀ c ∈ s.head?, p c = false) :
    s.takeWhile p = [] := by
  cases s with
  | nil => rfl
  | cons c s => rw [List.takeWhile_cons, h c rfl, if_neg Bool.false_ne_true]

theorem clean_of_edges (hfirst : ∀ c ∈ s.head?, 0x20 < c.toNat)
    (hlast : ∀ c ∈ s.getLast?, 0x20 < c.toNat) : clean s = kept s := by
  have hfront : s.dropWhile (fun c => decide (c.toNat ≤ 0x20)) = s := by
    refine dropWhile_of_head? fun c hc => ?_
    simpa using hfirst c hc
  have hback : s.reverse.dropWhile (fun c => decide (c.toNat ≤ 0x20)) = s.reverse := by
    refine dropWhile_of_head? fun c hc => ?_
    rw [List.head?_reverse] at hc
    simpa using hlast c hc
  rw [clean, hfront, hback, List.reverse_reverse]
  rfl

theorem kept_of_forall (h : ∀ c ∈ s, 0x20 < c.toNat) : kept s = s := by
  refine List.filter_eq_self.mpr fun c hc => ?_
  have hne {d : Char} (hd : d.toNat ≤ 0x20) : c ≠ d := by
    intro heq
    exact absurd (h c hc) (Nat.not_lt.mpr (heq ▸ hd))
  simp [hne (d := '\t') (by decide), hne (d := '\n') (by decide), hne (d := '\r') (by decide)]

theorem kept_append (s t : List Char) : kept (s ++ t) = kept s ++ kept t := List.filter_append ..

/-- What is read as the path in the text behind a host. -/
def pathPart (t : List Char) : List Char := (cutAt '?' (cutAt '#' (kept t)).1).1

/-- What is read as the query. -/
def queryPart (t : List Char) : Option (List Char) := (cutAt '?' (cutAt '#' (kept t)).1).2

/-- What is read as the fragment. -/
def fragmentPart (t : List Char) : Option (List Char) := (cutAt '#' (kept t)).2

theorem head?_pathPart (h : ∀ c ∈ t.head?, c = '/') : ∀ c ∈ (pathPart t).head?, c = '/' := by
  cases t with
  | nil => nofun
  | cons c t =>
    have hc : c = '/' := h c rfl
    subst hc
    have hpath : pathPart ('/' :: t)
        = '/' :: ((kept t).takeWhile (· != '#')).takeWhile (· != '?') := by
      rw [pathPart, cutAt_fst, cutAt_fst]
      rfl
    rw [hpath]
    exact fun d hd => (Option.some.inj hd).symm

/-! ## Schemes and hosts -/

theorem toNat_of_isSchemeChar {c : Char} (h : isSchemeChar c = true) : 0x20 < c.toNat := by
  have hlow : ∀ n < 0x21, isSchemeChar (Char.ofNat n) = false := by decide
  by_contra hle
  have hc := hlow c.toNat (by omega)
  rw [Char.ofNat_toNat, h] at hc
  cases hc

theorem isSchemeChar_of_isAlpha {c : Char} (h : c.isAlpha = true) : isSchemeChar c = true := by
  simp [isSchemeChar, Char.isAlphanum, h]

theorem scheme?_append {initial : Char} {name : List Char} (halpha : initial.isAlpha = true)
    (hname : name.all isSchemeChar = true) (rest : List Char) :
    scheme? (initial :: (name ++ ':' :: rest))
      = some ((initial :: name).map Char.toLower, rest) := by
  have hcolon : ':' ∉ initial :: name := by
    rw [List.mem_cons, not_or]
    refine ⟨fun h => ?_, fun h => absurd (List.all_eq_true.mp hname _ h) (by decide)⟩
    rw [← h] at halpha
    exact absurd halpha (by decide)
  have hcut : cutAt ':' (initial :: (name ++ ':' :: rest)) = (initial :: name, some rest) := by
    rw [← List.cons_append, cutAt_append hcolon, cutAt_cons_self, List.append_nil]
  rw [scheme?, hcut]
  simp [halpha, hname]

theorem scheme_of_ofMain? {scheme : String} {main : List Char} {url : Url}
    (h : ofMain? scheme main = some url) : url.scheme = scheme := by
  unfold ofMain? at h
  dsimp only at h
  repeat' split at h
  all_goals first
    | (cases h; rfl)
    | (obtain ⟨_, _, rfl⟩ := Option.map_eq_some_iff.mp h; rfl)
    | (obtain ⟨_, _, h⟩ := Option.bind_eq_some_iff.mp h; cases h; rfl)

/-- With a scheme of the web, what follows are slashes, a host, and a path if there is one. -/
theorem ofMain?_of_web {scheme : String} (hweb : scheme = "http" ∨ scheme = "https")
    {host path : List Char} (hne : host ≠ []) (hhost : ∀ c ∈ host, isSlash true c = false)
    (hpath : ∀ c ∈ path.head?, c = '/') :
    ofMain? scheme ('/' :: '/' :: (host ++ path)) = (authority? scheme host).map fun read =>
      { scheme, host := some read.1, service := read.2
        path := .segments (pathSegments true path) } := by
  have hspecial : isSpecial scheme = true := by
    rcases hweb with rfl | rfl <;> rfl
  have hfile : ¬(scheme == "file") = true := by
    rcases hweb with rfl | rfl <;> decide
  have hslashes : ('/' :: '/' :: (host ++ path)).dropWhile (isSlash true) = host ++ path := by
    refine dropWhile_of_head? (s := host ++ path) fun c hc => hhost c ?_
    rw [List.head?_append_of_ne_nil _ hne] at hc
    exact List.mem_of_mem_head? hc
  have hends : ∀ c ∈ path.head?, (!isSlash true c) = false := by
    intro c hc
    rw [hpath c hc]
    rfl
  have htake : (host ++ path).takeWhile (fun c => !isSlash true c) = host := by
    rw [List.takeWhile_append_of_pos (by simpa using hhost),
      takeWhile_of_head? hends, List.append_nil]
  have hdrop : (host ++ path).dropWhile (fun c => !isSlash true c) = path := by
    rw [List.dropWhile_append_of_pos (by simpa using hhost), dropWhile_of_head? hends]
  unfold ofMain?
  rw [hspecial, hslashes, if_neg hfile]
  dsimp only
  rw [htake, hdrop]
  cases authority? scheme host with
  | none => rfl
  | some read => simp

/-! ## Segments -/

/-- Whether a segment stands for a place that others name. -/
def isDot (segment : List Char) : Bool := isDoubleDot segment || isSingleDot segment

variable {done segments : List (List Char)}

/-- What one segment does to those that are there: it comes to them, or it is a dot segment and none
comes, except an empty one for a dot segment at the end. -/
theorem resolveDots_cons (done : List (List Char)) (segment : List Char)
    (rest : List (List Char)) :
    isDot segment = false
        ∧ resolveDots done (segment :: rest) = resolveDots (done ++ [segment]) rest
      ∨ isDot segment = true ∧ ∃ less, less.Sublist done
        ∧ resolveDots done (segment :: rest)
          = resolveDots (if rest.isEmpty then less ++ [[]] else less) rest := by
  unfold isDot
  rw [resolveDots]
  cases hdouble : isDoubleDot segment with
  | true => exact Or.inr ⟨rfl, _, List.dropLast_sublist done, rfl⟩
  | false =>
    cases hsingle : isSingleDot segment with
    | true => exact Or.inr ⟨rfl, _, List.Sublist.refl done, rfl⟩
    | false => exact Or.inl ⟨rfl, rfl⟩

/-- Without dot segments there is nothing to resolve. -/
theorem resolveDots_of_forall (h : ∀ segment ∈ segments, isDot segment = false) :
    resolveDots done segments = done ++ segments := by
  induction segments generalizing done with
  | nil => exact (List.append_nil done).symm
  | cons segment rest ih =>
    rw [List.forall_mem_cons] at h
    rcases resolveDots_cons done segment rest with ⟨-, hstep⟩ | ⟨hdot, -⟩
    · rw [hstep, ih h.2, List.append_assoc, List.singleton_append]
    · rw [h.1] at hdot
      cases hdot

section

variable {weight : List Char → Nat}

theorem sum_concat (front : List (List Char)) (s : List Char) :
    ((front ++ [s]).map weight).sum = (front.map weight).sum + weight s := by
  simp

theorem sum_le_of_sublist {less : List (List Char)} (h : less.Sublist done) :
    (less.map weight).sum ≤ (done.map weight).sum :=
  (h.map weight).sum_le_sum fun _ _ => Nat.zero_le _

variable (hnil : weight [] = 0)
include hnil

/-- A dot segment leaves nothing that weighs. -/
theorem sum_resolveDots_cons_le {done rest less : List (List Char)} (hless : less.Sublist done)
    (h : ∀ done, ((resolveDots done rest).map weight).sum
      ≤ (done.map weight).sum + (rest.map weight).sum) :
    ((resolveDots (if rest.isEmpty then less ++ [[]] else less) rest).map weight).sum
      ≤ (done.map weight).sum + (rest.map weight).sum := by
  have hsum : (less.map weight).sum ≤ (done.map weight).sum := sum_le_of_sublist hless
  refine (h _).trans ?_
  split
  · rw [sum_concat, hnil]
    omega
  · omega

/-- What is resolved weighs no more than it did. -/
theorem sum_resolveDots_le (done segments : List (List Char)) :
    ((resolveDots done segments).map weight).sum
      ≤ (done.map weight).sum + (segments.map weight).sum := by
  induction segments generalizing done with
  | nil => exact Nat.le_refl _
  | cons segment rest ih =>
    rw [List.map_cons, List.sum_cons]
    rcases resolveDots_cons done segment rest with ⟨-, hstep⟩ | ⟨-, less, hless, hstep⟩
    · have h := ih (done ++ [segment])
      rw [sum_concat] at h
      rw [hstep]
      omega
    · have h := sum_resolveDots_cons_le hnil hless ih
      rw [hstep]
      omega

/-- **A dot segment that weighs anything is missed.** -/
theorem sum_resolveDots_lt {segment : List Char} (hdot : isDot segment = true)
    (hweight : 0 < weight segment) (hmem : segment ∈ segments) (done : List (List Char)) :
    ((resolveDots done segments).map weight).sum
      < (done.map weight).sum + (segments.map weight).sum := by
  induction segments generalizing done with
  | nil => cases hmem
  | cons first rest ih =>
    rw [List.map_cons, List.sum_cons]
    rcases resolveDots_cons done first rest with ⟨hnot, hstep⟩ | ⟨-, less, hless, hstep⟩
    · rcases List.mem_cons.mp hmem with rfl | hrest
      · rw [hnot] at hdot
        cases hdot
      · have h := ih hrest (done ++ [first])
        rw [sum_concat] at h
        rw [hstep]
        omega
    · rw [hstep]
      rcases List.mem_cons.mp hmem with rfl | hrest
      · have h := sum_resolveDots_cons_le hnil hless (sum_resolveDots_le hnil · rest)
        omega
      · -- there are others behind the first one
        have hne : ¬rest.isEmpty = true := by
          rw [List.isEmpty_iff]
          exact List.ne_nil_of_mem hrest
        have h := ih hrest less
        have hsum : (less.map weight).sum ≤ (done.map weight).sum := sum_le_of_sublist hless
        rw [if_neg hne]
        omega

end

/-- The texts with a lower-case form. -/
def spellings : List Char → List (List Char)
  | [] => [[]]
  | c :: s => (spellings s).flatMap fun t => [c :: t, c.toUpper :: t]

theorem toLower_eq_or (c : Char) : c.toLower = c ∨ c.toLower.toUpper = c := by
  have hascii : ∀ n < 0x5B, (Char.ofNat n).toLower = Char.ofNat n
      ∨ (Char.ofNat n).toLower.toUpper = Char.ofNat n := by
    decide
  by_cases hc : c.toNat < 0x5B
  · have h := hascii c.toNat hc
    rwa [Char.ofNat_toNat] at h
  · refine Or.inl (dif_neg fun hupper => hc ?_)
    exact Nat.lt_succ_of_le (UInt32.le_iff_toNat_le.mp hupper.2)

theorem mem_spellings (s : List Char) : s ∈ spellings (s.map Char.toLower) := by
  induction s with
  | nil => exact List.mem_singleton_self _
  | cons c s ih =>
    refine List.mem_flatMap.mpr ⟨s, ih, ?_⟩
    rcases toLower_eq_or c with hc | hc
    · rw [hc]
      exact List.mem_cons_self
    · rw [hc]
      exact List.mem_cons_of_mem _ List.mem_cons_self

/-- A dot segment stands for one dot or two. -/
theorem decode_of_isDot {segment : List Char} (h : isDot segment = true) :
    Percent.decode segment = ['.'] ∨ Percent.decode segment = ['.', '.'] := by
  have hsingle : ∀ s ∈ [['.'], "%2e".toList].flatMap spellings, Percent.decode s = ['.'] := by
    decide +kernel
  have hdouble : ∀ s ∈ [['.', '.'], ".%2e".toList, "%2e.".toList, "%2e%2e".toList].flatMap
      spellings, Percent.decode s = ['.', '.'] := by
    decide +kernel
  have hmem := mem_spellings segment
  rw [isDot, Bool.or_eq_true] at h
  rcases h with h | h
  · refine Or.inr (hdouble segment (List.mem_flatMap.mpr ⟨_, ?_, hmem⟩))
    simpa [isDoubleDot, or_assoc] using h
  · refine Or.inl (hsingle segment (List.mem_flatMap.mpr ⟨_, ?_, hmem⟩))
    simpa [isSingleDot] using h

/-! ## Paths -/

theorem sum_length_splitOn (mark : Char) (s : List Char) :
    ((s.splitOn mark).map List.length).sum = s.countP (· != mark) := by
  induction s with
  | nil => rfl
  | cons c s ih =>
    rw [List.splitOn_cons_eq_if_modifyHead, List.countP_cons, ← ih]
    split
    · rename_i hc
      simp [beq_iff_eq.mp hc]
    · rename_i hc
      cases hsplit : s.splitOn mark with
      | nil => exact absurd hsplit (List.splitOn_ne_nil _ _)
      | cons first rest =>
        have hne : (c != mark) = true := by simpa using hc
        simp only [List.modifyHead_cons, List.map_cons, List.sum_cons, List.length_cons, hne,
          if_true]
        omega

theorem sum_length_splitSegments (s : List Char) :
    ((splitSegments true s).map List.length).sum = s.countP fun c => !isSlash true c := by
  rw [splitSegments, sum_length_splitOn, List.countP_map]
  refine List.countP_congr fun c _ => ?_
  dsimp only [Function.comp]
  split
  · rename_i hc
    simp [hc]
  · rename_i hc
    have hslash : c ≠ '/' := by
      rintro rfl
      exact hc rfl
    simp [hc, hslash]

theorem mem_intercalate {mark c : Char} {parts : List (List Char)}
    (h : c ∈ [mark].intercalate parts) : c = mark ∨ ∃ part ∈ parts, c ∈ part := by
  induction parts with
  | nil => cases h
  | cons first rest ih =>
    cases rest with
    | nil =>
      rw [List.intercalate_singleton] at h
      exact Or.inr ⟨first, List.mem_cons_self, h⟩
    | cons second rest =>
      rw [List.intercalate_cons_cons, List.append_assoc, List.mem_append, List.mem_append,
        List.mem_singleton] at h
      rcases h with h | h | h
      · exact Or.inr ⟨first, List.mem_cons_self, h⟩
      · exact Or.inl h
      · refine (ih h).imp_right ?_
        rintro ⟨part, hpart, hc⟩
        exact ⟨part, List.mem_cons_of_mem _ hpart, hc⟩

theorem mem_intercalate_of_mem {mark c : Char} {part : List Char} {parts : List (List Char)}
    (hc : c ∈ part) (hpart : part ∈ parts) : c ∈ [mark].intercalate parts := by
  induction parts with
  | nil => cases hpart
  | cons first rest ih =>
    cases rest with
    | nil =>
      rw [List.intercalate_singleton, ← List.mem_singleton.mp hpart]
      exact hc
    | cons second rest =>
      rw [List.intercalate_cons_cons]
      rcases List.mem_cons.mp hpart with rfl | hpart
      · exact List.mem_append_left _ (List.mem_append_left _ hc)
      · exact List.mem_append_right _ (ih hpart)

theorem splitSegments_intercalate {parts : List (List Char)} (hne : parts ≠ [])
    (h : ∀ part ∈ parts, ∀ c ∈ part, isSlash true c = false) :
    splitSegments true (['/'].intercalate parts) = parts := by
  have hself : (['/'].intercalate parts).map (fun c => if isSlash true c then '/' else c)
      = ['/'].intercalate parts := by
    refine (List.map_congr_left fun c hc => ?_).trans (List.map_id _)
    rcases mem_intercalate hc with rfl | ⟨part, hpart, hc⟩
    · rfl
    · rw [h part hpart c hc]
      rfl
  rw [splitSegments, hself]
  refine List.splitOn_intercalate '/' (fun part hpart hslash => ?_) hne
  exact absurd (h part hpart _ hslash) (by decide)

theorem pathSegments_cons_slash (s : List Char) : pathSegments true ('/' :: s)
    = (resolveDots [] ((splitSegments true s).map (Percent.encode Percent.inPath))).map
      String.ofList := rfl

/-- What the segments of a path stand for. -/
def readSegments (path : List Char) : List (List Char) :=
  (pathSegments true path).map fun segment => Percent.decode segment.toList

theorem readSegments_cons_slash (s : List Char) : readSegments ('/' :: s)
    = (resolveDots [] ((splitSegments true s).map (Percent.encode Percent.inPath))).map
      Percent.decode := by
  rw [readSegments, pathSegments_cons_slash, List.map_map]
  exact List.map_congr_left fun segment _ => congrArg Percent.decode String.toList_ofList

/-- The characters that end a path or a part of it, or do not count, a slash apart. -/
def marks : List Char := ['\\', '?', '#', '\t', '\n', '\r']

theorem ne_of_not_mem_marks {c : Char} (h : c ∉ marks) :
    c ≠ '\\' ∧ c ≠ '?' ∧ c ≠ '#' ∧ c ≠ '\t' ∧ c ≠ '\n' ∧ c ≠ '\r' := by
  simpa [marks] using h

/-- A text that stands for itself as a part of a path. -/
structure IsPlain (part : List Char) : Prop where
  /-- It holds no character that ends the path or a part, or does not count. -/
  noMark : ∀ c ∈ part, c ∉ marks
  /-- It is no dot segment. -/
  noDot : part ≠ ['.'] ∧ part ≠ ['.', '.']
  /-- It holds no escape. -/
  stays : Percent.decode part = part

instance (part : List Char) : Decidable (IsPlain part) :=
  decidable_of_iff ((∀ c ∈ part, c ∉ marks)
      ∧ (part ≠ ['.'] ∧ part ≠ ['.', '.']) ∧ Percent.decode part = part)
    ⟨fun h => ⟨h.1, h.2.1, h.2.2⟩, fun h => ⟨h.noMark, h.noDot, h.stays⟩⟩

theorem IsPlain.not_isDot_encode {part : List Char} (h : IsPlain part) :
    isDot (Percent.encode Percent.inPath part) = false := by
  rw [← Bool.not_eq_true]
  intro hdot
  have hstays : Percent.decode (Percent.encode Percent.inPath part) = part := by
    rw [Percent.decode_encode, h.stays]
  rcases decode_of_isDot hdot with hread | hread
  · exact h.noDot.1 (hstays.symm.trans hread)
  · exact h.noDot.2 (hstays.symm.trans hread)

/-- The characters behind which a path has ended. -/
def isUnmarked (c : Char) : Bool := c != '?' && c != '#'

theorem pathPart_eq (t : List Char) : pathPart t = (kept t).takeWhile isUnmarked := by
  rw [pathPart, cutAt_fst, cutAt_fst, List.takeWhile_takeWhile]
  refine congrArg (List.takeWhile · _) (funext fun c => ?_)
  rw [isUnmarked, Bool.decide_and, Bool.decide_eq_true, Bool.decide_eq_true]

/-- The path ends where the query begins, if it has not ended before. -/
theorem pathPart_cons_append {q : List Char} (hq : ∀ c ∈ q.head?, c = '?') (s : List Char) :
    pathPart ('/' :: (s ++ q)) = '/' :: (kept s).takeWhile isUnmarked := by
  have hquery : (kept q).takeWhile isUnmarked = [] := by
    cases q with
    | nil => rfl
    | cons c q => rw [hq c rfl]; rfl
  have hcons : pathPart ('/' :: (s ++ q)) = '/' :: (kept (s ++ q)).takeWhile isUnmarked := by
    rw [pathPart_eq]
    rfl
  rw [hcons, kept_append, List.takeWhile_append, hquery, List.append_nil]
  split
  · rename_i hlength
    rw [(List.takeWhile_prefix isUnmarked).eq_of_length hlength]
  · rfl

theorem not_mem_marks_of_mem_intercalate {parts : List (List Char)}
    (h : ∀ part ∈ parts, ∀ c ∈ part, c ∉ marks) : ∀ c ∈ ['/'].intercalate parts, c ∉ marks := by
  intro c hc
  rcases mem_intercalate hc with rfl | ⟨part, hpart, hc⟩
  · decide
  · exact h part hpart c hc

theorem kept_of_not_mem_marks {s : List Char} (h : ∀ c ∈ s, c ∉ marks) : kept s = s := by
  refine List.filter_eq_self.mpr fun c hc => ?_
  obtain ⟨-, -, -, htab, hfeed, hreturn⟩ := ne_of_not_mem_marks (h c hc)
  simp [htab, hfeed, hreturn]

theorem takeWhile_isUnmarked {s : List Char} (h : ∀ c ∈ s, c ∉ marks) :
    s.takeWhile isUnmarked = s := by
  rw [List.takeWhile_eq_self_iff]
  intro c hc
  obtain ⟨-, hquery, hfragment, -⟩ := ne_of_not_mem_marks (h c hc)
  simp [isUnmarked, hquery, hfragment]

/-- What is read of a path, the slashes apart, are no marks. -/
theorem not_mem_marks_of_mem_takeWhile {s : List Char} {c : Char}
    (hc : c ∈ (kept s).takeWhile isUnmarked) (hslash : isSlash true c = false) : c ∉ marks := by
  intro hmark
  have hunmarked := List.mem_takeWhile_imp hc
  have hkept := (List.mem_filter.mp ((List.takeWhile_prefix _).mem hc)).2
  simp only [marks, List.mem_cons, List.not_mem_nil, or_false] at hmark
  rcases hmark with rfl | rfl | rfl | rfl | rfl | rfl
  · cases hslash
  · cases hunmarked
  · cases hunmarked
  · cases hkept
  · cases hkept
  · cases hkept

theorem filter_takeWhile_sublist (s : List Char) :
    (((kept s).takeWhile isUnmarked).filter fun c => !isSlash true c).Sublist
      (s.filter (· != '/')) := by
  have hread : ((kept s).takeWhile isUnmarked).Sublist s :=
    (List.takeWhile_sublist _).trans List.filter_sublist
  refine (hread.filter _).trans (List.monotone_filter_right _ fun c hc => ?_)
  refine bne_iff_ne.mpr fun heq => ?_
  rw [heq] at hc
  cases hc

/-- Without marks in it, what stands in front of a query is not read as one. -/
theorem queryPart_append {s : List Char} (h : ∀ c ∈ s, c ∉ marks) (q : List Char) :
    queryPart (s ++ q) = queryPart q := by
  have hquery : '?' ∉ s := fun hmem => h _ hmem (by decide)
  have hfragment : '#' ∉ s := fun hmem => h _ hmem (by decide)
  rw [queryPart, kept_append, kept_of_not_mem_marks h, cutAt_append hfragment,
    cutAt_append hquery]
  rfl

section

variable {parts : List (List Char)} {q : List Char} (hne : parts ≠ [])
  (hslash : ∀ part ∈ parts, '/' ∉ part) (hq : ∀ c ∈ q.head?, c = '?')
include hne hslash hq

theorem readSegments_intercalate
    (hmark : ∀ part ∈ parts, ∀ c ∈ part, c ∉ marks) :
    readSegments (pathPart ('/' :: (['/'].intercalate parts ++ q)))
      = (resolveDots [] (parts.map (Percent.encode Percent.inPath))).map Percent.decode := by
  have hbody := not_mem_marks_of_mem_intercalate hmark
  have hseparate : ∀ part ∈ parts, ∀ c ∈ part, isSlash true c = false := by
    intro part hpart c hc
    have hc' : c ≠ '/' := fun heq => hslash part hpart (heq ▸ hc)
    simp [isSlash, hc', (ne_of_not_mem_marks (hmark part hpart c hc)).1]
  rw [pathPart_cons_append hq, kept_of_not_mem_marks hbody, takeWhile_isUnmarked hbody,
    readSegments_cons_slash, splitSegments_intercalate hne hseparate]

/-- **A path of plain parts is read as these parts.** -/
theorem readSegments_of_isPlain (hplain : ∀ part ∈ parts, IsPlain part) :
    readSegments (pathPart ('/' :: (['/'].intercalate parts ++ q))) = parts := by
  have hdots : ∀ segment ∈ parts.map (Percent.encode Percent.inPath), isDot segment = false := by
    intro segment hsegment
    obtain ⟨part, hpart, rfl⟩ := List.mem_map.mp hsegment
    exact (hplain part hpart).not_isDot_encode
  rw [readSegments_intercalate hne hslash hq fun part hpart => (hplain part hpart).noMark,
    resolveDots_of_forall hdots, List.nil_append, List.map_map]
  refine (List.map_congr_left fun part hpart => ?_).trans (List.map_id _)
  exact (Percent.decode_encode part).trans (hplain part hpart).stays

omit hne hslash hq in
theorem sum_length_decode_le (segments : List (List Char)) :
    ((segments.map (Percent.encode Percent.inPath)).map (List.length ∘ Percent.decode)).sum
      ≤ (segments.map List.length).sum := by
  rw [List.map_map]
  refine List.sum_le_sum fun segment _ => ?_
  dsimp only [Function.comp]
  rw [Percent.decode_encode]
  exact Percent.length_decode_le segment

omit hne hslash hq in
/-- What is read is no longer than what is there besides the slashes. -/
theorem sum_length_readSegments_le (s : List Char) :
    ((readSegments ('/' :: s)).map List.length).sum ≤ s.countP fun c => !isSlash true c := by
  rw [readSegments_cons_slash, List.map_map, ← sum_length_splitSegments]
  refine (sum_resolveDots_le (by decide +kernel) _ _).trans ?_
  rw [List.map_nil, List.sum_nil, Nat.zero_add]
  exact sum_length_decode_le _

/-- A mark is missed in what is read: it is in no segment, and nothing is read that is longer. -/
theorem not_mem_marks_of_readSegments
    (h : readSegments (pathPart ('/' :: (['/'].intercalate parts ++ q))) = parts) :
    ∀ part ∈ parts, ∀ c ∈ part, c ∉ marks := by
  rw [pathPart_cons_append hq] at h
  have hcount : (['/'].intercalate parts).countP (· != '/')
      ≤ ((kept (['/'].intercalate parts)).takeWhile isUnmarked).countP
          fun c => !isSlash true c := by
    rw [← sum_length_splitOn, List.splitOn_intercalate '/' hslash hne]
    have hle := sum_length_readSegments_le
      ((kept (['/'].intercalate parts)).takeWhile isUnmarked)
    rwa [h] at hle
  rw [List.countP_eq_length_filter, List.countP_eq_length_filter] at hcount
  have hsame := (filter_takeWhile_sublist _).eq_of_length_le hcount
  intro part hpart c hc
  have hmem : c ∈ (['/'].intercalate parts).filter (· != '/') := by
    refine List.mem_filter.mpr ⟨mem_intercalate_of_mem hc hpart, bne_iff_ne.mpr ?_⟩
    exact fun heq => hslash part hpart (heq ▸ hc)
  rw [← hsame, List.mem_filter] at hmem
  exact not_mem_marks_of_mem_takeWhile hmem.1 (by simpa using hmem.2)

/-- **Only plain parts are read as themselves.** -/
theorem isPlain_of_readSegments
    (h : readSegments (pathPart ('/' :: (['/'].intercalate parts ++ q))) = parts) :
    ∀ part ∈ parts, IsPlain part := by
  have hmark := not_mem_marks_of_readSegments hne hslash hq h
  rw [readSegments_intercalate hne hslash hq hmark] at h
  have hdots : ∀ segment ∈ parts.map (Percent.encode Percent.inPath), isDot segment = false := by
    intro segment hsegment
    rw [← Bool.not_eq_true]
    intro hdot
    have hweight : 0 < (List.length ∘ Percent.decode) segment := by
      dsimp only [Function.comp]
      rcases decode_of_isDot hdot with hread | hread
      · rw [hread]; decide
      · rw [hread]; decide
    have hlt := sum_resolveDots_lt (by decide +kernel) hdot hweight hsegment []
    rw [← List.map_map, h, List.map_nil, List.sum_nil, Nat.zero_add] at hlt
    exact Nat.not_lt.mpr (sum_length_decode_le parts) hlt
  have hstays : ∀ part ∈ parts, Percent.decode part = part := by
    rw [resolveDots_of_forall hdots, List.nil_append, List.map_map] at h
    intro part hpart
    have heq := List.map_inj_left.mp (h.trans (List.map_id parts).symm) part hpart
    exact (Percent.decode_encode part).symm.trans heq
  intro part hpart
  have hdot := hdots _ (List.mem_map_of_mem hpart)
  refine ⟨hmark part hpart, ⟨?_, ?_⟩, hstays part hpart⟩
  · rintro rfl
    exact absurd hdot (by decide)
  · rintro rfl
    exact absurd hdot (by decide)

end

end Url

namespace Origin

open Url

variable (o : Origin) {t : List Char}

theorem lt_of_mem_text : ∀ c ∈ o.text, 0x20 < c.toNat := by
  have hname : ∀ c ∈ o.name, 0x20 < c.toNat := fun c hc =>
    toNat_of_isSchemeChar (List.all_eq_true.mp o.isScheme c hc)
  have hhost : ∀ c ∈ o.host, 0x20 < c.toNat := fun c hc => (o.plain c hc).1
  have hinitial : 0x20 < o.initial.toNat :=
    toNat_of_isSchemeChar (isSchemeChar_of_isAlpha o.isAlpha)
  simp only [text, List.forall_mem_cons, List.forall_mem_append]
  exact ⟨hinitial, hname, by decide, by decide, by decide, hhost⟩

theorem not_mem_host {c : Char} (hc : c ∈ ['/', '\\', '?', '#']) : c ∉ o.host :=
  fun h => (o.plain c h).2 hc

theorem getLast?_text : o.text.getLast? = o.host.getLast? := by
  have htext : o.text = o.initial :: (o.name ++ [':', '/', '/']) ++ o.host := by simp [text]
  rw [htext, List.getLast?_append_of_ne_nil _ o.nonempty]

theorem isSlash_of_mem_host : ∀ c ∈ o.host, isSlash true c = false := by
  intro c hc
  have hplain := (o.plain c hc).2
  simp only [List.mem_cons, not_or] at hplain
  simp [isSlash, hplain]

/-- An origin is cut off its address whole. -/
theorem ofText?_eq (hlast : ∀ c ∈ t.getLast?, 0x20 < c.toNat) :
    ofText? (String.ofList (o.text ++ t))
      = (ofMain? o.scheme ('/' :: '/' :: (o.host ++ pathPart t))).map fun url =>
          { url with
            query := (queryPart t).map fun q => String.ofList (Percent.encode
              (if isSpecial o.scheme then Percent.inSpecialQuery else Percent.inQuery) q)
            fragment := (fragmentPart t).map fun f =>
              String.ofList (Percent.encode Percent.inFragment f) } := by
  have hclean : clean (o.text ++ t)
      = o.initial :: (o.name ++ ':' :: ('/' :: '/' :: o.host ++ kept t)) := by
    rw [clean_of_edges, kept_append, kept_of_forall o.lt_of_mem_text]
    · simp [text]
    · intro c hc
      cases hc
      exact o.lt_of_mem_text _ List.mem_cons_self
    · intro c hc
      rw [List.getLast?_append] at hc
      rcases Option.or_eq_some_iff.mp hc with hc | ⟨-, hc⟩
      · exact hlast c hc
      · exact o.lt_of_mem_text c (List.mem_of_getLast? hc)
  have hcut {mark : Char} (hslash : mark ≠ '/') (hmark : mark ∈ ['/', '\\', '?', '#'])
      (rest : List Char) : cutAt mark ('/' :: '/' :: o.host ++ rest)
        = ('/' :: '/' :: o.host ++ (cutAt mark rest).1, (cutAt mark rest).2) := by
    refine cutAt_append ?_ rest
    simp [hslash, o.not_mem_host hmark]
  rw [ofText?, String.toList_ofList, hclean, scheme?_append o.isAlpha o.isScheme]
  dsimp only [Option.bind_eq_bind, Option.bind_some]
  rw [hcut (by decide) (by decide), hcut (by decide) (by decide)]
  exact (Option.map_eq_bind).symm

theorem scheme_of_ofText? (hlast : ∀ c ∈ t.getLast?, 0x20 < c.toNat) {url : Url}
    (h : ofText? (String.ofList (o.text ++ t)) = some url) : url.scheme = o.scheme := by
  rw [o.ofText?_eq hlast] at h
  obtain ⟨main, hmain, rfl⟩ := Option.map_eq_some_iff.mp h
  have hscheme : main.scheme = o.scheme := scheme_of_ofMain? hmain
  exact hscheme

/-- **The origin of an address is read from the text before its path.** -/
theorem ofText?_append (ht : ∀ c ∈ t.head?, c = '/') (hlast : ∀ c ∈ t.getLast?, 0x20 < c.toNat)
    (hweb : o.scheme = "http" ∨ o.scheme = "https") :
    ofText? (String.ofList (o.text ++ t))
      = (authority? o.scheme o.host).map fun read =>
          { scheme := o.scheme, host := some read.1, service := read.2
            path := .segments (pathSegments true (pathPart t))
            query := (queryPart t).map fun q =>
              String.ofList (Percent.encode Percent.inSpecialQuery q)
            fragment := (fragmentPart t).map fun f =>
              String.ofList (Percent.encode Percent.inFragment f) } := by
  have hspecial : isSpecial o.scheme = true := by
    rcases hweb with h | h <;> rw [h] <;> rfl
  rw [o.ofText?_eq hlast, hspecial,
    ofMain?_of_web hweb o.nonempty o.isSlash_of_mem_host (head?_pathPart ht), Option.map_map]
  rfl

end Origin

end PathLabels.Http
