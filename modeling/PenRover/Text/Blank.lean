import PenRover.Text.Basic

/-!
# Blank code points

The code points that separate words: the white space of Unicode and the four information separators.
-/

namespace PenRover

/-- The ranges of blank code points, both ends included. -/
def blankRanges : List (Nat × Nat) :=
  [(0x09, 0x0D), (0x1C, 0x20), (0x85, 0x85), (0xA0, 0xA0), (0x1680, 0x1680), (0x2000, 0x200A),
    (0x2028, 0x2029), (0x202F, 0x202F), (0x205F, 0x205F), (0x3000, 0x3000)]

/-- The code point separates words. -/
def CodePoint.isBlank (c : CodePoint) : Bool :=
  blankRanges.any fun (low, high) => low ≤ c.val && c.val ≤ high

/-- The code point is one of the four information separators. -/
def CodePoint.isSeparator (c : CodePoint) : Bool := 0x1C ≤ c.val && c.val ≤ 0x1F

namespace Text

/-- The words of a text: its maximal runs without a blank. -/
def words : Text → List Text
  | [] => []
  | c :: rest =>
    if c.isBlank then words rest
    else match rest with
      | [] => [[c]]
      | d :: _ =>
        if d.isBlank then [c] :: words rest
        else match words rest with
          | [] => [[c]]
          | word :: more => (c :: word) :: more

/-- A text without the code points of a kind at its two ends. -/
def strip (drops : CodePoint → Bool) (t : Text) : Text :=
  ((t.dropWhile drops).reverse.dropWhile drops).reverse

/-- A text without the blanks at its two ends. -/
def trim (t : Text) : Text := t.strip CodePoint.isBlank

end Text

end PenRover
