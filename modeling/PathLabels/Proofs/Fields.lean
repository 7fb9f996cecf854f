import PathLabels.GitHub.Client
import PathLabels.Proofs.Skipping
import PathLabels.Proofs.Utf8

/-!
# Fields are found

The texts that are wanted from a body come back as they were written, whatever else the objects
hold. A text is written as UTF-8 and read byte by byte, so a character of several bytes is read in
several pieces, and only the bytes of all of them are decoded.
-/

namespace PathLabels

namespace Json

open Text.Reader

variable {c : Char} {rest : List Char}

/-! ## Texts as bytes -/

theorem octets_append (as bs : List UInt8) : octets (as ++ bs) = octets as ++ octets bs :=
  List.map_append

/-- ASCII characters stand for themselves in their bytes. -/
theorem octets_bytesOf {s : List Char} (h : ∀ c ∈ s, c.toNat < 0x80) :
    octets (Text.bytesOf s) = s := by
  induction s with
  | nil => rfl
  | cons c s ih =>
    have hc : c.toNat < 0x80 := h c List.mem_cons_self
    have hoctet : octets (String.utf8EncodeChar c) = [c] := by
      rw [Text.utf8EncodeChar_of_lt hc, octets, List.map_singleton, Text.toNat_ofNat (by omega),
        Char.ofNat_toNat]
    rw [Text.bytesOf, List.flatMap_cons, octets_append, hoctet]
    exact congrArg (c :: ·) (ih fun d hd => h d (List.mem_cons_of_mem _ hd))

theorem stringBytes_cons {s : List Char} {bs : List UInt8} (h : stringOctets s = some (bs, rest))
    (hshorter : rest.length < s.length) :
    stringBytes s = (stringBytes rest).map fun found => (bs ++ found.1, found.2) := by
  rw [stringBytes, map_apply, map_apply, many, h]
  dsimp only
  rw [if_pos hshorter, Option.map_map, Option.map_map]
  rfl

theorem toNat_digitChar_lt {n : Nat} (h : n < 16) : (Nat.digitChar n).toNat < 0x80 := by
  interval_cases n <;> decide

theorem toNat_octet (b : UInt8) : (Char.ofNat b.toNat).toNat = b.toNat := by
  have hb := b.toNat_lt
  have hvalid : b.toNat.isValidChar := Or.inl (by omega)
  rw [Char.ofNat, dif_pos hvalid]
  rfl

theorem stringOctets_plain {b : UInt8} (h : isPlain (Char.ofNat b.toNat) = true)
    (rest : List Char) : stringOctets (Char.ofNat b.toNat :: rest) = some ([b], rest) := by
  rw [stringOctets]
  · rw [if_pos h, toNat_octet, UInt8.ofNat_toNat]
  · intro heq
    rw [heq] at h
    cases h

/-- Bytes that stand for themselves are read one by one. -/
theorem stringBytes_plain {bs : List UInt8}
    (h : ∀ b ∈ bs, isPlain (Char.ofNat b.toNat) = true) (rest : List Char) :
    stringBytes (octets bs ++ rest)
      = (stringBytes rest).map fun found => (bs ++ found.1, found.2) := by
  induction bs with
  | nil => exact Option.map_id'.symm
  | cons b bs ih =>
    have hb := stringOctets_plain (h b List.mem_cons_self) (octets bs ++ rest)
    rw [show octets (b :: bs) ++ rest = Char.ofNat b.toNat :: (octets bs ++ rest) from rfl,
      stringBytes_cons hb (Nat.lt_succ_self _), ih fun b' hb' => h b' (List.mem_cons_of_mem b hb'),
      Option.map_map]
    rfl

/-- What is no ASCII stands for itself in a string. -/
theorem isPlain_of_le (h : 0x80 ≤ c.toNat) : isPlain c = true := by
  have hne {d : Char} (hd : d.toNat < 0x80) : (c != d) = true := by
    rw [bne_iff_ne]
    rintro rfl
    omega
  have hcontrol : 0x20 ≤ c.toNat := by omega
  simp only [isPlain, hne (d := '"') (by decide), hne (d := '\\') (by decide), hcontrol,
    decide_true, Bool.and_true]

/-- The bytes of a character that stands for itself do so as well. -/
theorem isPlain_of_mem_utf8EncodeChar (h : isPlain c = true) {b : UInt8}
    (hb : b ∈ String.utf8EncodeChar c) : isPlain (Char.ofNat b.toNat) = true := by
  rcases Nat.lt_or_ge c.toNat 0x80 with hc | hc
  · rw [Text.utf8EncodeChar_of_lt hc, List.mem_singleton] at hb
    rw [hb, Text.toNat_ofNat (by omega), Char.ofNat_toNat]
    exact h
  · refine isPlain_of_le ?_
    rw [toNat_octet]
    exact Text.le_of_mem_utf8EncodeChar hc b hb

/-- **A character is read back as its bytes**, however it is escaped. -/
theorem stringBytes_escaped (c : Char) (rest : List Char) :
    stringBytes (octets (Text.bytesOf (escaped c)) ++ rest)
      = (stringBytes rest).map fun found => (Text.bytesOf [c] ++ found.1, found.2) := by
  have hascii {s : List Char} (hs : ∀ d ∈ s, d.toNat < 0x80) (hne : s ≠ [])
      (hread : stringOctets (s ++ rest) = some (Text.bytesOf [c], rest)) :
      stringBytes (octets (Text.bytesOf s) ++ rest)
        = (stringBytes rest).map fun found => (Text.bytesOf [c] ++ found.1, found.2) := by
    have hpos := List.length_pos_iff.mpr hne
    rw [octets_bytesOf hs]
    exact stringBytes_cons hread (by rw [List.length_append]; omega)
  -- an escape is ASCII and read at once, any other character is read byte by byte
  rcases escaped_cases c with ⟨d, h, -, hd, hread⟩ | ⟨h, hcontrol⟩ | ⟨h, hplain⟩
  · rw [h]
    refine hascii ?_ (List.cons_ne_nil _ _) ?_
    · simp [hd]
    · show (afterBackslash (d :: rest)).map _ = _
      rw [hread]
      rfl
  · rw [h]
    refine hascii ?_ (List.cons_ne_nil _ _) ?_
    · have hhigh := toNat_digitChar_lt (n := c.toNat / 16) (by omega)
      have hlow := toNat_digitChar_lt (n := c.toNat % 16) (by omega)
      simp [hexPair, hhigh, hlow]
    · show (numbered ('0' :: '0' :: (hexPair c.toNat ++ rest))).map _ = _
      rw [numbered_hexPair hcontrol]
      rfl
  · rw [h]
    refine stringBytes_plain (fun b hb => ?_) rest
    rw [Text.bytesOf, List.flatMap_singleton] at hb
    exact isPlain_of_mem_utf8EncodeChar hplain hb

theorem stringBytes_chars (s : List Char) (rest : List Char) :
    stringBytes (octets (Text.bytesOf (s.flatMap escaped)) ++ '"' :: rest)
      = some (Text.bytesOf s, '"' :: rest) := by
  induction s with
  | nil =>
    have hquote : stringOctets ('"' :: rest) = none := rfl
    show stringBytes ('"' :: rest) = _
    rw [stringBytes, map_apply, many, hquote]
    rfl
  | cons c s ih =>
    rw [List.flatMap_cons, Text.bytesOf_append, octets_append, List.append_assoc,
      stringBytes_escaped, ih, Option.map_some, ← Text.bytesOf_append, List.singleton_append]

/-- A text in its quotes, as the bytes it is sent in. -/
def textOctets (s : String) : List Char := octets (Text.bytesOf (stringText s))

theorem textOctets_eq (s : String) :
    textOctets s = '"' :: (octets (Text.bytesOf (s.toList.flatMap escaped)) ++ ['"']) := by
  rw [textOctets, stringText, ← List.singleton_append, Text.bytesOf_append, Text.bytesOf_append,
    octets_append, octets_append]
  rfl

/-- **A text is read back from its bytes.** -/
theorem text_textOctets (s : String) (rest : List Char) :
    text (textOctets s ++ rest) = some (s, rest) := by
  have hdecode : Text.decode (Text.bytesOf s.toList) = .ok s := Text.decode_bytes s
  rw [textOctets_eq, List.cons_append, List.append_assoc, List.singleton_append]
  simp only [text, bind_apply, char_apply, beq_self_eq_true, if_true, Option.bind_some,
    stringBytes_chars, hdecode]
  rfl

theorem unspaced_textOctets (s : String) (rest : List Char) : Unspaced (textOctets s ++ rest) := by
  rw [textOctets_eq]
  exact unspaced_cons rfl _

/-! ## Members and objects -/

/-- A member of an object as it is written, with its text if it is the field `name`. Of any other
member no more is asked than that it has the form of one. -/
inductive IsMember (name : String) : List Char → Option String → Prop where
  | wanted (s : String) : IsMember name (textOctets name ++ ':' :: textOctets s) (some s)
  | other {key : String} {v : List Char} (hkey : key ≠ name) (hv : Form v) :
    IsMember name (textOctets key ++ ':' :: v) none

/-- An object in which the field `name` stands once, with the text `s`. -/
def HasText (name : String) (v : List Char) (s : String) : Prop :=
  ∃ members : List (List Char × Option String), (∀ m ∈ members, IsMember name m.1 m.2)
    ∧ members.filterMap Prod.snd = [s]
    ∧ v = between '\x7b' '\x7d' (members.map Prod.fst)

variable {name s : String} {v : List Char} {found : Option String}

theorem IsMember.unspaced (h : IsMember name v found) (rest : List Char) :
    Unspaced (v ++ rest) := by
  cases h with
  | wanted =>
    rw [List.append_assoc]
    exact unspaced_textOctets name _
  | other =>
    rw [List.append_assoc]
    exact unspaced_textOctets _ _

theorem member_apply (h : IsMember name v found) (hrest : Ends rest) :
    member name (v ++ rest) = some (found, rest) := by
  have hvalue {key : String} {v : List Char} (hv : Unspaced (v ++ rest)) :
      member name (textOctets key ++ ':' :: v ++ rest)
        = (if key = name then some <$> text else do skip; return none : Text.Reader _)
            (v ++ rest) := by
    simp only [member, bind_apply, List.append_assoc, List.cons_append, text_textOctets,
      Option.bind_some, spaces_apply (unspaced_cons (c := ':') rfl _), char_apply,
      beq_self_eq_true, if_true, spaces_apply hv]
  cases h with
  | wanted s =>
    rw [hvalue (unspaced_textOctets s rest), if_pos rfl, map_apply, text_textOctets]
    rfl
  | other hkey hv =>
    rw [hvalue (hv.unspaced rest), if_neg hkey, bind_apply, skip_form hv rest hrest]
    rfl

/-- **The field of an object is found**, whatever other members stand before and behind it. -/
theorem field_apply (h : HasText name v s) (rest : List Char) :
    field name (v ++ rest) = some (s, rest) := by
  obtain ⟨members, hmembers, hs, rfl⟩ := h
  lift members to List {m : List Char × Option String // IsMember name m.1 m.2} using hmembers
  have hitems : enclosed '\x7b' '\x7d' (member name)
      (between '\x7b' '\x7d' (members.map fun m => m.1.1) ++ rest)
        = some (members.map fun m => m.1.2, rest) :=
    enclosed_items Ends (fun m _ => member_apply m.2) (fun m => m.2.unspaced)
      (fun _ => Ends.unspaced) .comma .brace (fun _ => rfl) (by decide) members rest
  have hfound : (members.map fun m => m.1.2).filterMap id = [s] := by
    rw [← hs, List.filterMap_map, List.filterMap_map]
    rfl
  rw [field, bind_apply, orElse_apply, List.map_map]
  -- an object is no array
  refine (congrArg (Option.bind · _) hitems).trans ?_
  rw [Option.bind_some]
  dsimp only
  rw [hfound]
  rfl

theorem HasText.unspaced (h : HasText name v s) (rest : List Char) : Unspaced (v ++ rest) := by
  obtain ⟨members, -, -, rfl⟩ := h
  exact unspaced_cons rfl _

theorem ofBody?_eq {α : Type} {r : Text.Reader α} {body : List UInt8} {a : α}
    (hv : Unspaced (octets body)) (h : r (octets body) = some (a, [])) :
    ofBody? r body = some a := by
  rw [ofBody?, Text.Reader.parse, spaced_apply hv unspaced_nil h]

end Json

namespace GitHub

open Json

/-- **The names of a listing come back**, whatever else it says of the labels. -/
theorem labelNames?_eq {body : List UInt8} {labels : List (List Char × String)}
    (h : ∀ l ∈ labels, HasText "name" l.1 l.2)
    (hbody : octets body = between '[' ']' (labels.map Prod.fst)) :
    labelNames? body = some (labels.map Prod.snd) := by
  lift labels to List {l : List Char × String // HasText "name" l.1 l.2} using h
  have hitems : fields "name" (between '[' ']' (labels.map fun l => l.1.1) ++ [])
      = some (labels.map fun l => l.1.2, []) :=
    enclosed_items Ends (fun l rest _ => field_apply l.2 rest) (fun l => l.2.unspaced)
      (fun _ => Ends.unspaced) .comma .bracket (fun _ => rfl) (by decide) labels []
  rw [List.append_nil] at hitems
  rw [List.map_map] at hbody ⊢
  refine ofBody?_eq ?_ ?_
  · rw [hbody]
    exact unspaced_cons rfl _
  · rw [hbody]
    exact hitems

example : labelNames? (Text.bytes "[\x7b\"color\":\"" ++ [0xFF]
    ++ Text.bytes "\",\"name\":\"a\"\x7d]") = some ["a"] := by
  cbv

/-- **A fault is reported by its message**, whatever else the body says of it. -/
theorem apiError_eq {r : Http.Response} {s : String}
    (h : HasText "message" (octets (Text.bytes (Text.decodeLossy r.body))) s) :
    apiError r = .api r.status s := by
  have hfield := field_apply h []
  have hv := h.unspaced []
  rw [List.append_nil] at hfield hv
  rw [apiError, ofBody?_eq hv hfield]
  rfl

end GitHub

end PathLabels
