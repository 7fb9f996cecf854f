/-!
# Blank characters and trimming

"Blank" means the Unicode property White_Space, so a no-break space is blank and a zero-width
space is not. Every trimming in this library goes through `trim`.
-/

namespace PathLabels.Text

/-- The code points with the property White_Space. -/
def isBlankCode (n : Nat) : Bool :=
  (9 ≤ n && n ≤ 13) || n == 0x20 || n == 0x85 || n == 0xA0 || n == 0x1680
    || (0x2000 ≤ n && n ≤ 0x200A) || n == 0x2028 || n == 0x2029 || n == 0x202F
    || n == 0x205F || n == 0x3000

/-- Whether a character is white space. -/
def isBlank (c : Char) : Bool := isBlankCode c.toNat

/-- A character sequence without the blanks at its two ends. -/
def trimChars (s : List Char) : List Char :=
  ((s.dropWhile isBlank).reverse.dropWhile isBlank).reverse

/-- A text without the blanks at its two ends. -/
def trim (s : String) : String := String.ofList (trimChars s.toList)

/-- Whether a text is empty or holds nothing but blanks. -/
def allBlank (s : String) : Bool := s.toList.all isBlank

@[simp] theorem toList_trim (s : String) : (trim s).toList = trimChars s.toList := by
  simp [trim]

end PathLabels.Text
