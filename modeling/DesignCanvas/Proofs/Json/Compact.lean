import DesignCanvas.Proofs.Json.Text
import DesignCanvas.Proofs.Text.Numerals

/-!
# Values on one line

A value that is printed on one line has no control character in its text, whatever its strings hold, so the text is one
line (`Json.printable_compact`). It is read back like one that is printed over several lines (`Json.parse?_compact`).
-/

namespace DesignCanvas

/-! ## One line -/

/-- None of the characters is a control character of ASCII, such as a line feed. -/
def Printable (s : List Char) : Prop :=
  ∀ c ∈ s, 0x20 ≤ c.toNat

instance (s : List Char) : Decidable (Printable s) :=
  List.decidableBAll (fun c : Char => 0x20 ≤ c.toNat) s

namespace Printable

variable {s t : List Char} {c : Char}

theorem nil : Printable [] :=
  nofun

theorem cons (hc : 0x20 ≤ c.toNat) (hs : Printable s) : Printable (c :: s) :=
  List.forall_mem_cons.2 ⟨hc, hs⟩

theorem append (hs : Printable s) (ht : Printable t) : Printable (s ++ t) :=
  List.forall_mem_append.2 ⟨hs, ht⟩

theorem sublist (hs : Printable s) (h : t.Sublist s) : Printable t :=
  fun c hc => hs c (h.subset hc)

theorem replicate (n : Nat) (hc : 0x20 ≤ c.toNat) : Printable (List.replicate n c) :=
  fun d hd => by rwa [List.eq_of_mem_replicate hd]

theorem intercalate {sep : String} {parts : List String} (hsep : Printable sep.toList)
    (hparts : ∀ p ∈ parts, Printable p.toList) : Printable (sep.intercalate parts).toList := by
  rw [String.toList_intercalate]
  induction parts with
  | nil => exact nil
  | cons p parts ih =>
    obtain ⟨hp, hparts⟩ := List.forall_mem_cons.1 hparts
    cases parts with
    | nil => simpa using hp
    | cons q parts => simpa [List.intercalate_cons_cons] using hp.append (hsep.append (ih hparts))

theorem newline_notMem (hs : Printable s) : '\n' ∉ s :=
  fun hmem => absurd (hs _ hmem) (by decide)

theorem return_notMem (hs : Printable s) : '\r' ∉ s :=
  fun hmem => absurd (hs _ hmem) (by decide)

theorem decimal (n : Nat) : Printable (Text.decimal n) :=
  fun c hc => by
    have hdigit := (Text.toNat_of_isPlainDigit (Text.isPlainDigit_toDigits c hc)).1
    omega

theorem ofInt (i : Int) : Printable (toString i).toList := by
  cases i with
  | ofNat n => exact Nat.toList_repr ▸ decimal n
  | negSucc n =>
    have htext : (toString (Int.negSucc n)).toList = '-' :: Text.decimal n.succ := by
      rw [Int.toString_eq_repr, Int.repr, String.toList_append, Nat.toList_repr]
      rfl
    rw [htext]
    exact cons (by decide) (decimal _)

end Printable

namespace Decimal

variable {s digits : List Char} {wholeEnd : String}

theorem printable_placePoint (hdigits : Printable digits) (hend : Printable wholeEnd.toList) (point : Int) :
    Printable (placePoint digits point wholeEnd) := by
  unfold placePoint
  split
  · exact .cons (by decide) (.cons (by decide) ((Printable.replicate _ (by decide)).append hdigits))
  · split
    · exact (hdigits.append (.replicate _ (by decide))).append hend
    · exact (hdigits.sublist (List.take_sublist ..)).append
        (.cons (by decide) (hdigits.sublist (List.drop_sublist ..)))

theorem printable_withExponent (hdigits : Printable digits) (point : Int) : Printable (withExponent digits point) := by
  unfold withExponent
  have htail := hdigits.sublist (List.drop_sublist 1 digits)
  have hhead := hdigits.sublist (List.take_sublist 1 digits)
  have hpoint : Printable (if (digits.drop 1).isEmpty then [] else '.' :: digits.drop 1) := by
    split
    · exact .nil
    · exact .cons (by decide) htail
  exact (hhead.append hpoint).append (.cons (by decide) (.ofInt _))

theorem printable_signed (hs : Printable s) (negative : Bool) : Printable (signed negative s).toList := by
  rw [signed, String.toList_ofList]
  split
  · exact .cons (by decide) hs
  · exact hs

theorem Layout.printable_write {l : Layout} (hend : Printable l.wholeEnd.toList) (x : Float) :
    Printable (l.write x).toList := by
  have hdigits (d : Digits) : Printable (l.digits d) := by
    unfold Layout.digits
    dsimp only
    split
    · exact printable_placePoint (.decimal _) hend _
    · split
      · exact printable_placePoint (.decimal _) hend _
      · exact printable_withExponent (.decimal _) _
  unfold Layout.write
  dsimp only
  split
  · decide
  · exact printable_signed (by decide) _
  · refine printable_signed ?_ _
    split
    · exact .cons (by decide) hend
    · exact hdigits _

end Decimal

namespace Json

theorem printable_writeNumber (n : Number) : Printable (writeNumber n).toList := by
  cases n with
  | int n => exact .ofInt n
  | float x =>
    rw [writeNumber]
    split
    · exact Decimal.Layout.printable_write (by decide) x
    · decide

theorem printable_writeChar (c : Char) : Printable (writeChar c) := by
  have hbyte : ∀ n < 0x20, Printable ('\\' :: 'u' :: '0' :: '0' :: Text.hexByte n) := by decide
  unfold writeChar
  split
  iterate 7 decide
  split
  · next hcontrol => exact hbyte c.toNat hcontrol
  · next hplain => exact .cons (by omega) .nil

theorem printable_writeString (s : String) : Printable (writeString s).toList := by
  rw [writeString, String.toList_ofList]
  have hchars : Printable (s.toList.flatMap writeChar) := by
    intro c hc
    obtain ⟨d, -, hc⟩ := List.mem_flatMap.1 hc
    exact printable_writeChar d c hc
  exact .cons (by decide) (hchars.append (by decide))

mutual

theorem printable_compact : ∀ v : Json, Printable v.compact.toList
  | .null | .bool true | .bool false | .broken => by
    simp only [compact]
    decide
  | .num n => printable_writeNumber n
  | .str s => printable_writeString s
  | .arr items => by
    rw [compact, String.toList_append, String.toList_append]
    exact (Printable.append (by decide) (.intercalate (by decide) (printable_compactItems items))).append (by decide)
  | .obj members => by
    rw [compact, String.toList_append, String.toList_append]
    exact (Printable.append (by decide) (.intercalate (by decide) (printable_compactMembers members))).append
      (by decide)

theorem printable_compactItems : ∀ vs : List Json, ∀ p ∈ compactItems vs, Printable p.toList
  | [] => nofun
  | v :: vs => List.forall_mem_cons.2 ⟨printable_compact v, printable_compactItems vs⟩

theorem printable_compactMembers : ∀ ms : List (String × Json), ∀ p ∈ compactMembers ms, Printable p.toList
  | [] => nofun
  | (k, v) :: ms => by
    refine List.forall_mem_cons.2 ⟨?_, printable_compactMembers ms⟩
    rw [String.toList_append, String.toList_append]
    exact ((printable_writeString k).append (by decide)).append (printable_compact v)

end

/-! ## Reading back -/

theorem cut_enclosed (opening closing : String) {o c : Token} (ho : Cut Anything opening.toList [o])
    (hc : Cut Anything closing.toList [c]) (hends : ∀ rest, Ends (closing.toList ++ rest)) {parts : List String}
    {tss : List (List Token)} (h : List.Forall₂ (fun p ts => Cut Ends p.toList ts) parts tss) :
    Cut Anything (opening ++ ",".intercalate parts ++ closing).toList (o :: (separated tss ++ [c])) := by
  have hcomma : Cut Anything ",".toList [.comma] := .token (c := ',') (s := []) rfl fun _ _ => rfl
  have hparts := cut_intercalate hcomma (fun rest => ends_cons (c := ',') (by decide) rest) h
  rw [String.toList_append, String.toList_append, List.append_assoc]
  exact ho.followed (hparts.append hc fun rest _ => hends rest)

mutual

theorem cut_compact : ∀ (v : Json) (room : Nat), v.legible room → Cut Ends v.compact.toList v.toTokens
  | .null, _, _ => by
    rw [compact]
    exact .token (c := 'n') rfl fun _ _ => rfl
  | .bool true, _, _ => by
    rw [compact, if_pos rfl]
    exact .token (c := 't') rfl fun _ _ => rfl
  | .bool false, _, _ => by
    rw [compact, if_neg Bool.false_ne_true]
    exact .token (c := 'f') rfl fun _ _ => rfl
  | .num n, _, h => cut_writeNumber h
  | .str s, _, _ => cut_writeString _ s
  | .arr items, room, h => by
    obtain ⟨-, hitems⟩ := Bool.and_eq_true_iff.1 h
    exact (cut_enclosed "[" "]" (.token (by decide) fun _ _ => rfl) (.token (by decide) fun _ _ => rfl)
      (fun rest => ends_cons (c := ']') (by decide) rest) (cut_compactItems items (room - 1) hitems)).mono
      fun _ _ => trivial
  | .obj members, room, h => by
    obtain ⟨-, hmembers⟩ := Bool.and_eq_true_iff.1 h
    exact (cut_enclosed "\x7b" "\x7d" (.token (by decide) fun _ _ => rfl) (.token (by decide) fun _ _ => rfl)
      (fun rest => ends_cons (c := '\x7d') (by decide) rest) (cut_compactMembers members (room - 1) hmembers)).mono
      fun _ _ => trivial
  | .broken, _, h => by cases h

theorem cut_compactItems : ∀ (vs : List Json) (room : Nat), legibleItems room vs →
    List.Forall₂ (fun p ts => Cut Ends p.toList ts) (compactItems vs) (itemTokens vs)
  | [], _, _ => .nil
  | v :: vs, room, h => by
    obtain ⟨hv, hvs⟩ := Bool.and_eq_true_iff.1 h
    exact .cons (cut_compact v room hv) (cut_compactItems vs room hvs)

theorem cut_compactMembers : ∀ (ms : List (String × Json)) (room : Nat), legibleMembers room ms →
    List.Forall₂ (fun p ts => Cut Ends p.toList ts) (compactMembers ms) (memberTokens ms)
  | [], _, _ => .nil
  | (k, v) :: ms, room, h => by
    obtain ⟨hv, hms⟩ := Bool.and_eq_true_iff.1 h
    refine .cons ?_ (cut_compactMembers ms room hms)
    have hcolon : Cut Anything ":".toList [.colon] := .token (c := ':') (s := []) rfl fun _ _ => rfl
    rw [String.toList_append, String.toList_append, List.append_assoc]
    exact (cut_writeString Anything k).followed (hcolon.followed (cut_compact v room hv))

end

theorem parse?_compact {v : Json} (h : v.legible depthLimit) : parse? v.compact = some v :=
  parse?_of_tokenized h ((cut_compact v depthLimit h).tokenized ends_nil)

end Json

end DesignCanvas
