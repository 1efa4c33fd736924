import LivePage.Text.Alphabetic
import LivePage.Text.Numeral

/-!
# Character classes and trimming

The classes by which expressions are read. Below U+0080 each is an ASCII rule; above, it is a table
of ranges of the Unicode property it is named for.

* `isAlphabetic`, `isAlphanumeric`: the properties Alphabetic, and Alphabetic or a numeral.
* `isWordStart`, `isWordChar`: the characters that begin and continue an identifier.
* `isWhiteSpace`: the property White_Space, 25 code points.
* `trim`: a text without the white space at its two ends.
-/

namespace LivePage

namespace Text

/-- Whether a code point lies in one of the inclusive ranges. -/
def inRanges (ranges : List (Nat × Nat)) (n : Nat) : Bool :=
  ranges.any fun range => decide (range.1 ≤ n) && decide (n ≤ range.2)

/-- Letters, letter numerals and the other characters with the property Alphabetic. -/
def isAlphabetic (c : Char) : Bool :=
  if c.toNat < 0x80 then c.isAlpha else inRanges alphabeticRanges c.toNat

/-- Alphabetic characters, digits and other numerals. -/
def isAlphanumeric (c : Char) : Bool :=
  if c.toNat < 0x80 then c.isAlphanum
  else inRanges alphabeticRanges c.toNat || inRanges numeralRanges c.toNat

/-- The White_Space code points, as inclusive ranges. -/
def whiteSpaceRanges : List (Nat × Nat) :=
  [(0x09, 0x0D), (0x20, 0x20), (0x85, 0x85), (0xA0, 0xA0), (0x1680, 0x1680), (0x2000, 0x200A),
   (0x2028, 0x2029), (0x202F, 0x202F), (0x205F, 0x205F), (0x3000, 0x3000)]

/-- The characters with the property White_Space. -/
def isWhiteSpace (c : Char) : Bool := inRanges whiteSpaceRanges c.toNat

/-- An identifier begins with an alphabetic character, `_` or `$`. -/
def isWordStart (c : Char) : Bool := isAlphabetic c || c == '_' || c == '$'

/-- An identifier goes on with alphanumeric characters, `_` and `$`. -/
def isWordChar (c : Char) : Bool := isAlphanumeric c || c == '_' || c == '$'

/-- An alphabetic character is alphanumeric. -/
theorem isAlphanumeric_of_isAlphabetic {c : Char} (h : isAlphabetic c = true) :
    isAlphanumeric c = true := by
  unfold isAlphabetic at h
  unfold isAlphanumeric
  split at h <;> simp_all [Char.isAlphanum]

/-- What begins an identifier may also continue one. -/
theorem isWordChar_of_isWordStart {c : Char} (h : isWordStart c = true) : isWordChar c = true := by
  unfold isWordStart at h
  unfold isWordChar
  simp only [Bool.or_eq_true] at h ⊢
  exact h.imp_left (Or.imp_left isAlphanumeric_of_isAlphabetic)

/-! ## Trimming -/

/-- A text without its leading white space. -/
def trimStart (cs : List Char) : List Char := cs.dropWhile isWhiteSpace

/-- A text without its trailing white space. -/
def trimEnd (cs : List Char) : List Char := (trimStart cs.reverse).reverse

/-- A text without the white space at its two ends. -/
def trim (cs : List Char) : List Char := trimEnd (trimStart cs)

end Text

end LivePage
