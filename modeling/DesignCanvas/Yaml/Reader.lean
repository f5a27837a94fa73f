import DesignCanvas.Yaml.Basic
import DesignCanvas.Yaml.Scalar

/-!
# Reading YAML

Lists and maps are written in blocks, with an entry on each line and the same indent for all entries of one of them,
or between brackets and braces. Every step of the reader takes a character at least, so that the length of the text
bounds their number.
-/

namespace DesignCanvas.Yaml

open DesignCanvas

/-! ## Tokens -/

/-- The place of the next token, and whether it is on another line than what comes before it. -/
structure Next where
  place : Place
  fresh : Bool

/-- Goes on to the next token, over blanks, comments and line breaks. Tabs may come before it where `tabs` says so,
and on other lines only between brackets and braces. -/
def skipFrom (flow tabs comment fresh : Bool) (column : Nat) : List Char → Next
  | [] => ⟨⟨[], column⟩, fresh⟩
  | c :: s =>
    if c = '\n' then skipFrom flow flow false true 0 s
    else if comment || c = ' ' || (c = '\t' && tabs) then skipFrom flow tabs comment fresh (column + 1) s
    else if c = '#' then skipFrom flow tabs true fresh (column + 1) s
    else ⟨⟨c :: s, column⟩, fresh⟩

def Place.next (p : Place) (flow tabs : Bool) : Next :=
  skipFrom flow tabs false false p.column p.rest

def Place.after (p : Place) (s : List Char) : Place :=
  ⟨s, p.column + 1⟩

/-- The place after the colon that makes a scalar a key. The colon stands on the same line as the scalar. -/
def colon? (flow : Bool) (k : Scanned) : Option Place :=
  let n := k.after.next flow true
  match n.place.rest with
  | ':' :: s => if k.oneLine && !n.fresh && (flow || atBreak s) then some (n.place.after s) else none
  | _ => none

/-- A scalar that was read, with quotes or plainly. -/
structure Scalar where
  plain : Bool
  scanned : Scanned

def Scalar.value (s : Scalar) : Yaml :=
  .scalar s.plain s.scanned.text

def scalar? (flow : Bool) (least : Nat) (p : Place) : Option Scalar :=
  match p.rest with
  | [] => none
  | c :: s =>
    if c = '"' ∨ c = '\'' then (quoted? p).map (⟨false, ·⟩)
    else if startsPlain flow c s then (plain? flow least p).map (⟨true, ·⟩)
    else none

/-- A value that was read, and the place after it. -/
structure Read where
  value : Yaml
  after : Place

/-! ## Brackets and braces -/

/-- Says that what comes next ends an entry between brackets or braces. -/
def endsEntry : List Char → Bool
  | c :: _ => c = ',' || c = ']' || c = '}'
  | [] => false

mutual

/-- Reads a value between brackets and braces, or in them. -/
def flowValue : Nat → Nat → Place → Option Read
  | 0, _, _ => none
  | steps + 1, least, p =>
    match p.rest with
    | '[' :: s => flowItems steps least [] (p.after s)
    | '{' :: s => flowEntries steps least [] (p.after s)
    | _ => (scalar? true least p).map fun k => ⟨k.value, k.scanned.after⟩

def flowSecond : Nat → Nat → Place → Option Read
  | 0, _, _ => none
  | steps + 1, least, p =>
    let p := (p.next true true).place
    if endsEntry p.rest then some ⟨empty, p⟩ else flowValue steps least p

/-- Reads the items of a list up to its closing bracket. An item with a colon is a map of one entry. -/
def flowItems : Nat → Nat → List Yaml → Place → Option Read
  | 0, _, _, _ => none
  | steps + 1, least, done, p =>
    let p := (p.next true true).place
    match p.rest with
    | ']' :: s => some ⟨.list done.reverse, p.after s⟩
    | _ => do
      let item ← flowItem steps least p
      let q := (item.after.next true true).place
      match q.rest with
      | ',' :: s => flowItems steps least (item.value :: done) (q.after s)
      | ']' :: s => some ⟨.list (item.value :: done).reverse, q.after s⟩
      | _ => none

def flowItem : Nat → Nat → Place → Option Read
  | 0, _, _ => none
  | steps + 1, least, p =>
    match scalar? true least p with
    | none => flowValue steps least p
    | some k =>
      match colon? true k.scanned with
      | none => some ⟨k.value, k.scanned.after⟩
      | some q => (flowSecond steps least q).map fun v => ⟨.map [(k.scanned.text, v.value)], v.after⟩

/-- Reads the entries of a map up to its closing brace. A key without a colon has no value. -/
def flowEntries : Nat → Nat → List (String × Yaml) → Place → Option Read
  | 0, _, _, _ => none
  | steps + 1, least, done, p =>
    let p := (p.next true true).place
    match p.rest with
    | '}' :: s => some ⟨.map done.reverse, p.after s⟩
    | _ => do
      let k ← scalar? true least p
      let v ← match colon? true k.scanned with
        | none => some ⟨empty, k.scanned.after⟩
        | some q => flowSecond steps least q
      let q := (v.after.next true true).place
      let done := (k.scanned.text, v.value) :: done
      match q.rest with
      | ',' :: s => flowEntries steps least done (q.after s)
      | '}' :: s => some ⟨.map done.reverse, q.after s⟩
      | _ => none

end

/-! ## Blocks -/

/-- The place after the dash of an item, if one comes next. -/
def Place.dash? (p : Place) : Option Place :=
  match p.rest with
  | '-' :: s => if atBreak s then some (p.after s) else none
  | _ => none

/-- Says that the document ends at a place. -/
def Place.atEnd (p : Place) : Bool :=
  p.rest.isEmpty || atMarker p.column p.rest

mutual

/-- Reads the value at a token. Its further lines begin at a column of at least `least`, and it may be a block where
`block` says so. -/
def blockValue : Nat → Bool → Nat → Place → Option Read
  | 0, _, _, _ => none
  | steps + 1, block, least, p =>
    match p.dash? with
    | some q => if block then blockItems steps p.column [] q else none
    | none =>
      match p.rest with
      | '[' :: _ | '{' :: _ => flowValue steps least p
      | _ => do
        let k ← scalar? false least p
        match colon? false k.scanned with
        | none => some ⟨k.value, k.scanned.after⟩
        | some q => if block then blockEntries steps p.column [] k.scanned.text q else none

/-- Reads the item after a dash at a column, and the items that follow. -/
def blockItems : Nat → Nat → List Yaml → Place → Option Read
  | 0, _, _, _ => none
  | steps + 1, column, done, p =>
    let n := p.next false false
    let read :=
      if n.place.atEnd ∨ (n.fresh ∧ n.place.column ≤ column) then some ⟨empty, p⟩
      else blockValue steps true (column + 1) n.place
    match read with
    | none => none
    | some item =>
      let done := item.value :: done
      let n := item.after.next false true
      if n.place.atEnd ∨ (n.fresh ∧ n.place.column < column) then some ⟨.list done.reverse, item.after⟩
      else if !n.fresh ∨ column < n.place.column then none
      else match n.place.dash? with
        | some q => blockItems steps column done q
        | none => some ⟨.list done.reverse, item.after⟩

/-- Reads the value of a key at a column, and the entries that follow. A list may stand at the column of its key. -/
def blockEntries : Nat → Nat → List (String × Yaml) → String → Place → Option Read
  | 0, _, _, _, _ => none
  | steps + 1, column, done, key, p =>
    let n := p.next false true
    let here := n.place
    let read :=
      if here.atEnd then some ⟨empty, p⟩
      else if !n.fresh then blockValue steps false (column + 1) here
      else if column < here.column then blockValue steps true (column + 1) here
      else if here.column = column ∧ here.dash?.isSome then blockValue steps true (column + 1) here
      else some ⟨empty, p⟩
    match read with
    | none => none
    | some v =>
      let done := (key, v.value) :: done
      let n := v.after.next false true
      if n.place.atEnd ∨ (n.fresh ∧ n.place.column < column) then some ⟨.map done.reverse, v.after⟩
      else if !n.fresh ∨ n.place.column ≠ column ∨ n.place.dash?.isSome then none
      else match scalar? false (column + 1) n.place with
        | none => none
        | some k =>
          match colon? false k.scanned with
          | some q => blockEntries steps column done k.scanned.text q
          | none => none

end

/-! ## Documents -/

/-- The characters that may stand in a text. -/
def isWritable (c : Char) : Bool :=
  let n := c.toNat
  c = '\t' || c = '\n' || c = '\r' || (0x20 ≤ n && n ≤ 0x7E) || n = 0x85 || (0xA0 ≤ n && n ≤ 0xD7FF)
    || (0xE000 ≤ n && n ≤ 0xFFFD && n ≠ 0xFEFF) || 0x10000 ≤ n

/-- A text in which every line ends in a line feed alone. -/
def plainBreaks : List Char → List Char
  | '\r' :: '\n' :: s => '\n' :: plainBreaks s
  | '\r' :: s => '\n' :: plainBreaks s
  | c :: s => c :: plainBreaks s
  | [] => []

/-- A text without a byte order mark in front. -/
def withoutMark : List Char → List Char
  | '\ufeff' :: s => s
  | s => s

/-- The place after the three dashes that a document may begin with. -/
def Place.afterStart (p : Place) : Next :=
  match p.rest with
  | '-' :: '-' :: '-' :: s =>
    if p.column = 0 ∧ atBreak s then Place.next ⟨s, 3⟩ false true else ⟨p, true⟩
  | _ => ⟨p, true⟩

/-- Says that nothing but the end of the document comes next, on a line of its own. -/
def endsDocument (n : Next) : Bool :=
  match n.place.rest with
  | [] => true
  | '.' :: '.' :: '.' :: s =>
    n.fresh && n.place.column = 0 && atBreak s && (Place.next ⟨s, 3⟩ false true).place.rest.isEmpty
  | _ => false

/-- The value of a YAML text. A text without a value has the empty one. -/
def parse? (text : String) : Option Yaml :=
  let s := plainBreaks (withoutMark text.toList)
  if s.all isWritable then
    let start := (Place.next ⟨s, 0⟩ false false).place.afterStart
    if start.place.atEnd then
      if endsDocument ⟨start.place, true⟩ then some empty else none
    else do
      let read ← blockValue (2 * s.length + 2) start.fresh 0 start.place
      if endsDocument (read.after.next false true) then some read.value else none
  else none

end DesignCanvas.Yaml
