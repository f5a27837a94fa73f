/-!
# Blanks

The characters that count as white space, and a text without the blanks at its ends.
-/

namespace DesignCanvas.Text

/-- A blank is a character with the Unicode property of white space. -/
def isBlank (c : Char) : Bool :=
  let n := c.toNat
  (9 ≤ n && n ≤ 13) || n == 0x20 || n == 0x85 || n == 0xA0 || n == 0x1680
    || (0x2000 ≤ n && n ≤ 0x200A) || n == 0x2028 || n == 0x2029 || n == 0x202F || n == 0x205F
    || n == 0x3000

def trimStart (s : List Char) : List Char :=
  s.dropWhile isBlank

def trimEnd (s : List Char) : List Char :=
  (s.reverse.dropWhile isBlank).reverse

/-- The text between its first and its last character that is no blank. -/
def trim (s : List Char) : List Char :=
  trimEnd (trimStart s)

/-- A text of blanks only; the empty text is one. -/
def allBlank (s : List Char) : Bool :=
  s.all isBlank

def trimmed (s : String) : String :=
  String.ofList (trim s.toList)

end DesignCanvas.Text
