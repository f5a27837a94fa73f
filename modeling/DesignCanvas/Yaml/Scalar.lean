import DesignCanvas.Text.Digit

/-!
# YAML scalars

The reading of scalars from a place in a text. A scalar may go on over several lines: one line break in it counts as
a blank, and of more line breaks all but the first count. A plain scalar ends where a colon, a comment or less indent
says so, a quoted one at its quote.
-/

namespace DesignCanvas.Yaml

open DesignCanvas

/-- A place in a text: what comes from there on, and how far from the start of its line it is. -/
structure Place where
  rest : List Char
  column : Nat

/-- A scalar that was read, whether it takes one line only, and the place after it. -/
structure Scanned where
  text : String
  oneLine : Bool
  after : Place

def isGap (c : Char) : Bool :=
  c = ' ' || c = '\t'

/-- Says that a blank, a line break or the end comes next. -/
def atBreak : List Char → Bool
  | [] => true
  | c :: _ => isGap c || c = '\n'

/-- The characters that mean something between brackets and braces. -/
def isFlowMark (c : Char) : Bool :=
  c = ',' || c = '[' || c = ']' || c = '{' || c = '}'

/-! ## Gaps -/

/-- Blanks and line breaks within a scalar. -/
structure Gap where
  /-- The blanks since the text before, the last one first. -/
  blanks : List Char
  breaks : Nat
  /-- The first line break was escaped and does not count. -/
  joined : Bool

def Gap.none : Gap :=
  ⟨[], 0, false⟩

def Gap.isNone (g : Gap) : Bool :=
  g.blanks.isEmpty && g.breaks = 0 && !g.joined

/-- What a gap stands for, in reverse. -/
def Gap.filling (g : Gap) : List Char :=
  if g.joined then List.replicate g.breaks '\n'
  else match g.breaks with
    | 0 => g.blanks
    | 1 => [' ']
    | n + 1 => List.replicate n '\n'

/-- The gap with another blank. Blanks beside a line break do not count. -/
def Gap.addBlank (c : Char) (g : Gap) : Gap :=
  if g.breaks = 0 ∧ !g.joined then { g with blanks := c :: g.blanks } else g

def Gap.addBreak (g : Gap) : Gap :=
  { g with blanks := [], breaks := g.breaks + 1 }

/-! ## Plain scalars -/

/-- Says that a plain scalar ends before a character. -/
def endsPlain (flow : Bool) (c : Char) (s : List Char) : Bool :=
  (c = ':' && atBreak s) || (flow && isFlowMark c)

/-- Between brackets and braces no colon of a plain scalar stands before what means something there. -/
def badColon (flow : Bool) (c : Char) (s : List Char) : Bool :=
  flow && c = ':' && s.head?.any fun d => isFlowMark d || d = '?'

/-- A line that begins with a mark of three dashes or points is outside of any document. -/
def atMarker (column : Nat) : List Char → Bool
  | a :: b :: c :: s => column = 0 && ([a, b, c] = ['-', '-', '-'] || [a, b, c] = ['.', '.', '.']) && atBreak s
  | _ => false

/-- Where the reading of a plain scalar stands: its characters so far, the last one first, the gap after them, and
the scalar as it would be if it ended before the gap. -/
structure PlainState where
  chars : List Char
  gap : Gap
  oneLine : Bool
  after : Place

def PlainState.scanned (p : PlainState) : Scanned :=
  ⟨String.ofList p.chars.reverse, p.oneLine, p.after⟩

/-- Reads on in a plain scalar whose further lines begin at a column of at least `least`. -/
def scanPlain (flow : Bool) (least : Nat) (p : PlainState) (column : Nat) : List Char → Option Scanned
  | [] => some p.scanned
  | c :: s =>
    let onNewLine := p.gap.breaks ≠ 0
    if c = '\n' then scanPlain flow least { p with gap := p.gap.addBreak } 0 s
    else if c = '\t' ∧ onNewLine ∧ column < least then none
    else if isGap c then scanPlain flow least { p with gap := p.gap.addBlank c } (column + 1) s
    else if c = '#' ∧ !p.gap.isNone then some p.scanned
    else if onNewLine ∧ ((!flow ∧ column < least) ∨ atMarker column (c :: s)) then some p.scanned
    else if badColon flow c s then none
    else if endsPlain flow c s then some p.scanned
    else
      scanPlain flow least
        { chars := c :: (p.gap.filling ++ p.chars), gap := .none, oneLine := p.oneLine && !onNewLine
          after := ⟨s, column + 1⟩ } (column + 1) s

/-- The characters that no plain scalar begins with. -/
def reservedStarts : List Char :=
  ['-', '?', ':', ',', '[', ']', '{', '}', '#', '&', '*', '!', '|', '>', '\'', '"', '%', '@', '\x60']

/-- Says that a plain scalar begins with a character. -/
def startsPlain (flow : Bool) (c : Char) (s : List Char) : Bool :=
  (!atBreak [c] && !reservedStarts.contains c) || (c = '-' && !atBreak s)
    || (!flow && (c = '?' || c = ':') && !atBreak s)

def plain? (flow : Bool) (least : Nat) (p : Place) : Option Scanned :=
  scanPlain flow least ⟨[], .none, true, p⟩ p.column p.rest

/-! ## Quoted scalars -/

def shortEscape? : Char → Option Char
  | '0' => some '\x00'
  | 'a' => some '\x07'
  | 'b' => some '\x08'
  | 't' | '\t' => some '\t'
  | 'n' => some '\n'
  | 'v' => some '\x0b'
  | 'f' => some '\x0c'
  | 'r' => some '\r'
  | 'e' => some '\x1b'
  | ' ' => some ' '
  | '"' => some '"'
  | '/' => some '/'
  | '\\' => some '\\'
  | 'N' => some '\u0085'
  | '_' => some '\u00a0'
  | 'L' => some '\u2028'
  | 'P' => some '\u2029'
  | _ => none

/-- How many hexadecimal digits come after the letter of a long escape. -/
def escapeLength? : Char → Option Nat
  | 'x' => some 2
  | 'u' => some 4
  | 'U' => some 8
  | _ => none

/-- The character with a code point; surrogates have none. -/
def charOf? (n : Nat) : Option Char :=
  if n < 0xD800 ∨ (0xDFFF < n ∧ n < 0x110000) then some (Char.ofNat n) else none

/-- An escape that is being read: how many digits are still to come, and the value of those before. -/
abbrev Pending := Option (Nat × Nat)

/-- Where the reading of a quoted scalar stands. -/
structure QuotedState where
  chars : List Char
  gap : Gap
  oneLine : Bool
  /-- The character before was a backslash, or the closing quote that may be the first of two. -/
  marked : Bool
  pending : Pending

namespace QuotedState

def scanned (q : QuotedState) (after : Place) : Scanned :=
  ⟨String.ofList (q.gap.filling ++ q.chars).reverse, q.oneLine, after⟩

def push (c : Char) (q : QuotedState) : QuotedState :=
  { q with chars := c :: (q.gap.filling ++ q.chars), gap := .none, marked := false, pending := none }

def addBreak (q : QuotedState) : QuotedState :=
  { q with gap := q.gap.addBreak, oneLine := false, marked := false }

def digit? (c : Char) (left value : Nat) (q : QuotedState) : Option QuotedState :=
  if !Text.isHexDigit c then none
  else
    let value := 16 * value + Text.hexValue c
    match left with
    | 0 => none
    | 1 => (charOf? value).map fun d => q.push d
    | left + 1 => some { q with pending := some (left, value) }

/-- Takes the character after a backslash. -/
def escape? (c : Char) (q : QuotedState) : Option QuotedState :=
  if c = '\n' then
    some { q with
      chars := q.gap.filling ++ q.chars, gap := ⟨[], 0, true⟩, oneLine := false, marked := false }
  else match escapeLength? c with
    | some n => some { q with marked := false, pending := some (n, 0) }
    | none => (shortEscape? c).map fun d => q.push d

end QuotedState

/-- Reads on in a scalar in double quotes, after its opening quote. -/
def scanDouble (q : QuotedState) (column : Nat) : List Char → Option Scanned
  | [] => none
  | c :: s =>
    let next := if c = '\n' then 0 else column + 1
    match q.pending with
    | some (left, value) =>
      match q.digit? c left value with
      | some q => scanDouble q next s
      | none => none
    | none =>
      if q.marked then
        match q.escape? c with
        | some q => scanDouble q next s
        | none => none
      else if c = '"' then some (q.scanned ⟨s, column + 1⟩)
      else if c = '\\' then scanDouble { q with marked := true } next s
      else if c = '\n' then scanDouble q.addBreak next s
      else if isGap c then scanDouble { q with gap := q.gap.addBlank c } next s
      else scanDouble (q.push c) next s

/-- Reads on in a scalar in single quotes, after its opening quote. A quote is written twice. -/
def scanSingle (q : QuotedState) (column : Nat) : List Char → Option Scanned
  | [] => if q.marked then some (q.scanned ⟨[], column⟩) else none
  | c :: s =>
    let next := if c = '\n' then 0 else column + 1
    if q.marked then
      if c = '\'' then scanSingle (q.push '\'') next s else some (q.scanned ⟨c :: s, column⟩)
    else if c = '\'' then scanSingle { q with marked := true } next s
    else if c = '\n' then scanSingle q.addBreak next s
    else if isGap c then scanSingle { q with gap := q.gap.addBlank c } next s
    else scanSingle (q.push c) next s

def QuotedState.start : QuotedState :=
  ⟨[], .none, true, false, none⟩

/-- Reads a quoted scalar, if one begins at a place. -/
def quoted? (p : Place) : Option Scanned :=
  match p.rest with
  | '"' :: s => scanDouble .start (p.column + 1) s
  | '\'' :: s => scanSingle .start (p.column + 1) s
  | _ => none

end DesignCanvas.Yaml
