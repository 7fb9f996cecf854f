/-!
# UTF-8

Texts are sequences of Unicode scalar values; files, pipes and network messages are sequences of
bytes. `bytes` writes a text as UTF-8. `decode` reads it back and names the first place where the
bytes are not UTF-8; `decodeLossy` puts U+FFFD for each ill-formed piece and goes on.

Bytes are cut into pieces first. An ill-formed piece is the longest beginning of a character that
is there, or one byte if no character begins with it; a character that the end of the input cuts
off is a piece of its own kind.
-/

namespace PathLabels.Text

/-- The UTF-8 form of a character sequence. -/
def bytesOf (s : List Char) : List UInt8 := s.flatMap String.utf8EncodeChar

/-- The UTF-8 form of a text. -/
def bytes (s : String) : List UInt8 := bytesOf s.toList

@[simp] theorem bytesOf_append (s t : List Char) : bytesOf (s ++ t) = bytesOf s ++ bytesOf t := by
  simp [bytesOf]

theorem bytes_append (s t : String) : bytes (s ++ t) = bytes s ++ bytes t := by
  simp [bytes]

/-- What the first byte of a character of several bytes says: how long the character is, its
highest bits, and which second bytes may follow. -/
structure Lead where
  length : Nat
  bits : Nat
  low : UInt8 := 0x80
  high : UInt8 := 0xBF

/-- The meaning of a first byte from 0x80 on; none for a byte that begins no character. The
narrower second bytes keep out overlong forms, surrogates and numbers above U+10FFFF. -/
def Lead.ofByte? (b : UInt8) : Option Lead :=
  let n := b.toNat
  if 0xC2 ≤ n && n ≤ 0xDF then some { length := 2, bits := n - 0xC0 }
  else if n == 0xE0 then some { length := 3, bits := 0, low := 0xA0 }
  else if n == 0xED then some { length := 3, bits := 0xD, high := 0x9F }
  else if 0xE1 ≤ n && n ≤ 0xEF then some { length := 3, bits := n - 0xE0 }
  else if n == 0xF0 then some { length := 4, bits := 0, low := 0x90 }
  else if 0xF1 ≤ n && n ≤ 0xF3 then some { length := 4, bits := n - 0xF0 }
  else if n == 0xF4 then some { length := 4, bits := 4, high := 0x8F }
  else none

/-- Whether a byte may stand at the third or fourth place of a character. -/
def isContinuation (b : UInt8) : Bool := 0x80 ≤ b && b ≤ 0xBF

/-- One piece of a byte sequence. -/
inductive Piece where
  /-- A character and the number of its bytes. -/
  | scalar (c : Char) (width : Nat)
  /-- Bytes that belong to no character. -/
  | malformed (width : Nat)
  /-- The beginning of a character that the input ends in. -/
  | truncated
  deriving Repr, DecidableEq

/-- Appends the six low bits of a further byte to the bits read so far. -/
def addBits (bits : Nat) (b : UInt8) : Nat := bits * 64 + b.toNat % 64

/-- The piece that begins with the byte `b`, followed by `rest`. -/
def Piece.first (b : UInt8) (rest : List UInt8) : Piece :=
  if b < 0x80 then .scalar (Char.ofNat b.toNat) 1
  else match Lead.ofByte? b with
    | none => .malformed 1
    | some lead =>
      match rest with
      | [] => .truncated
      | b₂ :: rest =>
        let bits := addBits lead.bits b₂
        if b₂ < lead.low || lead.high < b₂ then .malformed 1
        else if lead.length == 2 then .scalar (Char.ofNat bits) 2
        else match rest with
          | [] => .truncated
          | b₃ :: rest =>
            let bits := addBits bits b₃
            if !isContinuation b₃ then .malformed 2
            else if lead.length == 3 then .scalar (Char.ofNat bits) 3
            else match rest with
              | [] => .truncated
              | b₄ :: _ =>
                if !isContinuation b₄ then .malformed 3
                else .scalar (Char.ofNat (addBits bits b₄)) 4

/-- The pieces of a byte sequence, in order. -/
def pieces : List UInt8 → List Piece
  | [] => []
  | b :: rest =>
    match Piece.first b rest with
    | .scalar c width => .scalar c width :: pieces (rest.drop (width - 1))
    | .malformed width => .malformed width :: pieces (rest.drop (width - 1))
    | .truncated => [.truncated]
  termination_by s => s.length
  decreasing_by all_goals simp only [List.length_drop, List.length_cons]; omega

/-- Where and why a byte sequence is not UTF-8. -/
structure Utf8Error where
  /-- The number of bytes before the first ill-formed piece. -/
  index : Nat
  /-- The width of that piece; none if the input ends within a character. -/
  width : Option Nat
  deriving Repr, DecidableEq

/-- The text shown for a decoding fault. -/
def Utf8Error.message (e : Utf8Error) : String :=
  match e.width with
  | some w => s!"invalid utf-8 sequence of {w} bytes from index {e.index}"
  | none => s!"incomplete utf-8 byte sequence from index {e.index}"

/-- The characters of well-formed pieces that start at byte `index`, or the first fault. -/
def decodePieces (index : Nat) : List Piece → Except Utf8Error (List Char)
  | [] => .ok []
  | .scalar c width :: ps => (decodePieces (index + width) ps).map (c :: ·)
  | .malformed width :: _ => .error ⟨index, some width⟩
  | .truncated :: _ => .error ⟨index, none⟩

/-- Reads UTF-8, refusing anything ill-formed. -/
def decode (bs : List UInt8) : Except Utf8Error String :=
  (decodePieces 0 (pieces bs)).map String.ofList

/-- The character that a piece stands for: itself, or U+FFFD. -/
def Piece.toChar : Piece → Char
  | .scalar c _ => c
  | .malformed _ => '\uFFFD'
  | .truncated => '\uFFFD'

/-- Reads UTF-8 with U+FFFD in the place of each ill-formed piece. -/
def decodeLossy (bs : List UInt8) : String :=
  String.ofList ((pieces bs).map Piece.toChar)

end PathLabels.Text
