import DesignCanvas.Text.Blank
import DesignCanvas.Text.Digit
import DesignCanvas.Decimal.Exact

/-!
# Colours

A colour is three channels from 0 to 1. Its text is a number sign and six hexadecimal digits, two for each
channel; it may be read in a short form with one digit for each, which stands for that digit twice. Two colours
that have the same text count as the same colour.
-/

namespace DesignCanvas

/-- A colour by its channels. -/
structure Color where
  r : Float
  g : Float
  b : Float
  deriving DecidableEq, Repr

namespace Color

open DesignCanvas

/-- The channel with a given value of eight bits. -/
def channel (n : Nat) : Float :=
  n.toUInt8.toFloat / 255.0

def pairValue (high low : Char) : Nat :=
  16 * Text.hexValue high + Text.hexValue low

/-- The colour that three or six hexadecimal digits write. -/
def ofDigits? : List Char → Option Color
  | [r, g, b] => some ⟨channel (pairValue r r), channel (pairValue g g), channel (pairValue b b)⟩
  | [r, r', g, g', b, b'] =>
    some ⟨channel (pairValue r r'), channel (pairValue g g'), channel (pairValue b b')⟩
  | _ => none

/-- The digits of a colour text: what is left without blanks around it and number signs in front. -/
def hexPart (s : List Char) : List Char :=
  (Text.trim s).dropWhile (· = '#')

def ofChars? (s : List Char) : Option Color :=
  let digits := hexPart s
  if digits.all Text.isHexDigit then ofDigits? digits else none

def ofHex? (s : String) : Option Color :=
  ofChars? s.toList

/-- The nearest number from 0 to 1. -/
def clampUnit (x : Float) : Float :=
  if x < 0.0 then 0.0 else if 1.0 < x then 1.0 else x

/-- The eight bits of a channel, a half going up. -/
def byte (x : Float) : Nat :=
  Decimal.clampedNat (clampUnit x * 255.0) 255

def digits (c : Color) : List Char :=
  Text.hexByte (byte c.r) ++ Text.hexByte (byte c.g) ++ Text.hexByte (byte c.b)

def toHex (c : Color) : String :=
  String.ofList ('#' :: c.digits)

/-- Two colours are the same if their texts are. -/
def same (a b : Color) : Bool :=
  a.toHex == b.toHex

end Color

end DesignCanvas
