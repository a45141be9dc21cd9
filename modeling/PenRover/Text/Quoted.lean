import PenRover.Text.Printable

/-!
# Quoted text

Text inside a message stands between quotes.  The quotes are single, unless the text holds a single
quote and no double one.  Inside, the quote in use and the backslash are escaped, and so is every
unprintable code point, by the shortest of the escapes with two, four or eight hexadecimal digits.
-/

namespace PenRover

/-- A number in hexadecimal with at least `width` digits. -/
def hexText (width n : Nat) : List Char :=
  let cs := Nat.toDigits 16 n
  List.replicate (width - cs.length) '0' ++ cs

namespace Text

/-- One code point between quotes. -/
def escapeInQuotes (quote : Char) (c : CodePoint) : List Char :=
  if c = CodePoint.ofChar quote then ['\\', quote]
  else if c = CodePoint.ofChar '\\' then ['\\', '\\']
  else if c = CodePoint.ofChar '\n' then ['\\', 'n']
  else if c = CodePoint.ofChar '\r' then ['\\', 'r']
  else if c = CodePoint.ofChar '\t' then ['\\', 't']
  else if c.isPrintable then c.toChar?.toList
  else if c.val < 0x100 then '\\' :: 'x' :: hexText 2 c.val
  else if c.val < 0x10000 then '\\' :: 'u' :: hexText 4 c.val
  else '\\' :: 'U' :: hexText 8 c.val

/-- A text between quotes. -/
def quoted (t : Text) : String :=
  let quote :=
    if t.contains (CodePoint.ofChar '\'') && !t.contains (CodePoint.ofChar '"') then '"' else '\''
  String.ofList (quote :: (t.flatMap (escapeInQuotes quote) ++ [quote]))

end Text

end PenRover
