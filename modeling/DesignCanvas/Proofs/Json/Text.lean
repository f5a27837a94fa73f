import DesignCanvas.Json.Reader
import DesignCanvas.Proofs.Json.Tokens
import Mathlib.Data.List.Forall2

/-!
# Printed values read back

A value that is printed over several lines is read back (`Json.parse?_pretty`), if nothing in it is broken, its
numbers are read back from their texts, and its arrays and objects are not nested too deep. Its text is first cut into
tokens, part by part; reading these from any place where a value may come puts the value there.
-/

namespace DesignCanvas.Json

open DesignCanvas

mutual

/-- A value that can be read from its text where so many arrays and objects may still be opened. -/
def legible (room : Nat) : Json → Bool
  | .null | .bool _ | .str _ => true
  | .num n => n.legible
  | .arr items => 0 < room && legibleItems (room - 1) items
  | .obj members => 0 < room && legibleMembers (room - 1) members
  | .broken => false

def legibleItems (room : Nat) : List Json → Bool
  | [] => true
  | v :: vs => v.legible room && legibleItems room vs

def legibleMembers (room : Nat) : List (String × Json) → Bool
  | [] => true
  | (_, v) :: ms => v.legible room && legibleMembers room ms

end

theorem legible_arr {room : Nat} {items : List Json} :
    (Json.arr items).legible room ↔ 0 < room ∧ ∀ v ∈ items, v.legible (room - 1) := by
  rw [legible, Bool.and_eq_true, decide_eq_true_iff]
  refine and_congr_right fun _ => ?_
  induction items with
  | nil => simp [legibleItems]
  | cons v vs ih => simp [legibleItems, ih]

theorem legible_strings {room : Nat} (h : 0 < room) (xs : List String) : (Json.strings xs).legible room :=
  legible_arr.2 ⟨h, List.forall_mem_map.2 fun _ _ => rfl⟩

theorem legible_obj {room : Nat} {members : List (String × Json)} :
    (Json.obj members).legible room ↔ 0 < room ∧ ∀ m ∈ members, m.2.legible (room - 1) := by
  rw [legible, Bool.and_eq_true, decide_eq_true_iff]
  refine and_congr_right fun _ => ?_
  induction members with
  | nil => simp [legibleMembers]
  | cons m ms ih => simp [legibleMembers, ih]

mutual

theorem sound_of_legible : ∀ {v : Json} {room : Nat}, v.legible room → v.sound
  | .null, _, _ | .bool _, _, _ | .num _, _, _ | .str _, _, _ => rfl
  | .arr _, _, h => soundItems_of_legible (Bool.and_eq_true_iff.1 h).2
  | .obj _, _, h => soundMembers_of_legible (Bool.and_eq_true_iff.1 h).2
  | .broken, _, h => by cases h

theorem soundItems_of_legible : ∀ {vs : List Json} {room : Nat}, legibleItems room vs → soundItems vs
  | [], _, _ => rfl
  | _ :: _, _, h => by
    obtain ⟨hv, hvs⟩ := Bool.and_eq_true_iff.1 h
    exact Bool.and_eq_true_iff.2 ⟨sound_of_legible hv, soundItems_of_legible hvs⟩

theorem soundMembers_of_legible : ∀ {ms : List (String × Json)} {room : Nat}, legibleMembers room ms → soundMembers ms
  | [], _, _ => rfl
  | _ :: _, _, h => by
    obtain ⟨hv, hms⟩ := Bool.and_eq_true_iff.1 h
    exact Bool.and_eq_true_iff.2 ⟨sound_of_legible hv, soundMembers_of_legible hms⟩

end

/-- Lists of tokens with commas between them. -/
def separated : List (List Token) → List Token
  | [] => []
  | ts :: tss => ts ++ tss.flatMap (.comma :: ·)

mutual

def toTokens : Json → List Token
  | .null | .broken => [.null]
  | .bool b => [.bool b]
  | .num n => [.num (some n)]
  | .str s => [.str (some s)]
  | .arr items => .openArray :: (separated (itemTokens items) ++ [.closeArray])
  | .obj members => .openObject :: (separated (memberTokens members) ++ [.closeObject])

def itemTokens : List Json → List (List Token)
  | [] => []
  | v :: vs => v.toTokens :: itemTokens vs

def memberTokens : List (String × Json) → List (List Token)
  | [] => []
  | (k, v) :: ms => (.str (some k) :: .colon :: v.toTokens) :: memberTokens ms

end

/-! ## Text -/

theorem cut_newline (P : List Char → Prop) (level : Nat) : Cut P (newline level).toList [] := by
  refine Cut.spaces ?_
  rw [newline, String.toList_ofList, List.forall_mem_cons]
  refine ⟨rfl, fun c hc => ?_⟩
  rw [List.eq_of_mem_replicate hc]
  rfl

theorem ends_newline (level : Nat) (rest : List Char) : Ends ((newline level).toList ++ rest) := by
  rw [newline, String.toList_ofList, List.cons_append]
  exact ends_cons (by decide) _

theorem cut_comma (level : Nat) : Cut Anything ("," ++ newline level).toList [.comma] := by
  rw [String.toList_append]
  exact Cut.followed (.token rfl fun _ _ => rfl) (cut_newline _ level)

theorem ends_comma (level : Nat) (rest : List Char) : Ends (("," ++ newline level).toList ++ rest) := by
  rw [String.toList_append]
  exact ends_cons (by decide) _

theorem cut_intercalate {sep : String} (hcomma : Cut Anything sep.toList [.comma])
    (hends : ∀ rest, Ends (sep.toList ++ rest)) {parts : List String} {tss : List (List Token)}
    (h : List.Forall₂ (fun p ts => Cut Ends p.toList ts) parts tss) :
    Cut Ends (sep.intercalate parts).toList (separated tss) := by
  rw [String.toList_intercalate]
  induction h with
  | nil => exact Cut.spaces nofun
  | @cons p ts parts tss hp h ih =>
    cases h with
    | nil => simpa [separated] using hp
    | @cons q us parts tss _ _ =>
      -- a part may end in a number, which the comma after it ends
      have hcut := hp.append (hcomma.followed ih) fun rest _ => by
        rw [List.append_assoc]
        exact hends _
      simpa [separated, List.intercalate_cons_cons] using hcut

theorem cut_block {opening closing : String} {o c : Token} (ho : Cut Anything opening.toList [o])
    (hc : Cut Anything closing.toList [c]) (level : Nat) {parts : List String} {tss : List (List Token)}
    (h : List.Forall₂ (fun p ts => Cut Ends p.toList ts) parts tss) :
    Cut Anything (block opening closing level parts).toList (o :: (separated tss ++ [c])) := by
  unfold block
  cases h with
  | nil =>
    rw [List.isEmpty_nil, if_pos rfl, String.toList_append]
    exact ho.followed hc
  | cons hp h =>
    rw [List.isEmpty_cons, if_neg Bool.false_ne_true]
    simp only [String.toList_append, List.append_assoc]
    have hparts := cut_intercalate (cut_comma (level + 1)) (ends_comma (level + 1)) (.cons hp h)
    have hend := (cut_newline Anything level).followed hc
    have hinner := hparts.append hend fun rest _ => by
      rw [List.append_assoc]
      exact ends_newline level _
    exact ho.followed ((cut_newline Anything (level + 1)).followed hinner)

mutual

theorem cut_prettyAt : ∀ (v : Json) (level room : Nat), v.legible room → Cut Ends (v.prettyAt level).toList v.toTokens
  | .null, _, _, _ => by
    rw [prettyAt]
    exact .token (c := 'n') rfl fun _ _ => rfl
  | .bool true, _, _, _ => by
    rw [prettyAt, if_pos rfl]
    exact .token (c := 't') rfl fun _ _ => rfl
  | .bool false, _, _, _ => by
    rw [prettyAt, if_neg Bool.false_ne_true]
    exact .token (c := 'f') rfl fun _ _ => rfl
  | .num n, _, _, h => cut_writeNumber h
  | .str s, _, _, _ => cut_writeString _ s
  | .arr items, level, room, h => by
    obtain ⟨-, hitems⟩ := Bool.and_eq_true_iff.1 h
    exact (cut_block (.token (by decide) fun _ _ => rfl) (.token (by decide) fun _ _ => rfl) level
      (cut_prettyItems items (level + 1) (room - 1) hitems)).mono fun _ _ => trivial
  | .obj members, level, room, h => by
    obtain ⟨-, hmembers⟩ := Bool.and_eq_true_iff.1 h
    exact (cut_block (.token (by decide) fun _ _ => rfl) (.token (by decide) fun _ _ => rfl) level
      (cut_prettyMembers members (level + 1) (room - 1) hmembers)).mono fun _ _ => trivial
  | .broken, _, _, h => by cases h

theorem cut_prettyItems : ∀ (vs : List Json) (level room : Nat), legibleItems room vs →
    List.Forall₂ (fun p ts => Cut Ends p.toList ts) (prettyItems level vs) (itemTokens vs)
  | [], _, _, _ => .nil
  | v :: vs, level, room, h => by
    obtain ⟨hv, hvs⟩ := Bool.and_eq_true_iff.1 h
    exact .cons (cut_prettyAt v level room hv) (cut_prettyItems vs level room hvs)

theorem cut_prettyMembers : ∀ (ms : List (String × Json)) (level room : Nat), legibleMembers room ms →
    List.Forall₂ (fun p ts => Cut Ends p.toList ts) (prettyMembers level ms) (memberTokens ms)
  | [], _, _, _ => .nil
  | (k, v) :: ms, level, room, h => by
    obtain ⟨hv, hms⟩ := Bool.and_eq_true_iff.1 h
    refine .cons ?_ (cut_prettyMembers ms level room hms)
    have hcolon : Cut Anything ": ".toList [.colon] :=
      .followed (s := [':']) (.token rfl fun _ _ => rfl) (.spaces (s := [' ']) (List.forall_mem_singleton.2 rfl))
    rw [String.toList_append, String.toList_append, List.append_assoc]
    exact (cut_writeString Anything k).followed (hcolon.followed (cut_prettyAt v level room hv))

end

/-! ## Tokens -/

/-- Where the reader stands after some tokens. -/
def Position.run (p : Position) (ts : List Token) : Option Position :=
  ts.foldlM Position.step p

namespace Position

variable {p q : Position} {t : Token} {ts us : List Token}

theorem run_one (p : Position) (t : Token) : p.run [t] = p.step t :=
  bind_pure (p.step t)

theorem run_cons (h : p.step t = some q) : p.run (t :: ts) = q.run ts := by
  rw [run, List.foldlM_cons, h]
  rfl

theorem run_append (h : p.run ts = some q) : p.run (ts ++ us) = q.run us := by
  rw [run] at h
  rw [run, List.foldlM_append, h]
  rfl

theorem run_opened (v : Json) (done : List Json) (stack : List Frame) :
    run ⟨.items done :: stack, .opened⟩ v.toTokens = run ⟨.items done :: stack, .value⟩ v.toTokens := by
  cases v <;> rfl

theorem step_closeArray (done : List Json) (stack : List Frame) :
    step ⟨.items done :: stack, .next⟩ .closeArray = close (.arr done.reverse) stack :=
  rfl

theorem step_closeObject (done : List (Option String × Json)) (stack : List Frame) :
    step ⟨.members done :: stack, .next⟩ .closeObject = close (closeMembers done) stack :=
  rfl

theorem close_eq_put {room : Nat} {stack : List Frame} (hpos : 0 < room) (hroom : stack.length + room = depthLimit)
    (v : Json) : close v stack = put v stack := by
  rw [close, if_neg (by omega)]

theorem closeMembers_eq (ms : List (String × Json)) :
    closeMembers (ms.map fun m => (some m.1, m.2)).reverse = .obj ms := by
  have hmembers : (ms.map fun m => (some m.1, m.2)).mapM (fun m => m.1.map (·, m.2)) = some ms := by
    induction ms with
    | nil => rfl
    | cons m ms ih => rw [List.map_cons, List.mapM_cons, ih]; rfl
  rw [closeMembers, List.reverse_reverse, hmembers]

mutual

theorem run_toTokens : ∀ (v : Json) (room : Nat) (stack : List Frame), v.legible room →
    stack.length + room = depthLimit → run ⟨stack, .value⟩ v.toTokens = put v stack
  | .null, _, _, _, _ => run_one ..
  | .bool _, _, _, _, _ => run_one ..
  | .num _, _, _, _, _ => run_one ..
  | .str _, _, _, _, _ => run_one ..
  | .arr [], room, stack, h, hroom => by
    obtain ⟨hpos, -⟩ := Bool.and_eq_true_iff.1 h
    rw [← close_eq_put (of_decide_eq_true hpos) hroom, toTokens, run_cons rfl]
    exact run_one ..
  | .arr (v :: vs), room, stack, h, hroom => by
    obtain ⟨hpos, hitems⟩ := Bool.and_eq_true_iff.1 h
    obtain ⟨hv, hvs⟩ := Bool.and_eq_true_iff.1 hitems
    have hpos := of_decide_eq_true hpos
    have hinner : stack.length + 1 + (room - 1) = depthLimit := by omega
    have hfirst : run ⟨.items [] :: stack, .opened⟩ v.toTokens = some ⟨.items [v] :: stack, .next⟩ :=
      (run_opened v [] stack).trans (run_toTokens v (room - 1) (.items [] :: stack) hv hinner)
    rw [← close_eq_put hpos hroom, toTokens, run_cons rfl, itemTokens, separated, List.append_assoc, run_append hfirst,
      run_append (run_itemTokens vs (room - 1) [v] stack hvs hinner), run_one, step_closeArray, List.reverse_append,
      List.reverse_reverse]
    rfl
  | .obj [], room, stack, h, hroom => by
    obtain ⟨hpos, -⟩ := Bool.and_eq_true_iff.1 h
    rw [← close_eq_put (of_decide_eq_true hpos) hroom, toTokens, run_cons rfl]
    exact run_one ..
  | .obj ((k, v) :: ms), room, stack, h, hroom => by
    obtain ⟨hpos, hmembers⟩ := Bool.and_eq_true_iff.1 h
    obtain ⟨hv, hms⟩ := Bool.and_eq_true_iff.1 hmembers
    have hpos := of_decide_eq_true hpos
    have hinner : stack.length + 1 + (room - 1) = depthLimit := by omega
    have hfirst := run_toTokens v (room - 1) (.member [] (some k) :: stack) hv hinner
    have hrest := run_memberTokens ms (room - 1) [(some k, v)] stack hms hinner
    rw [← close_eq_put hpos hroom, toTokens, run_cons rfl, memberTokens, separated, List.append_assoc, List.cons_append,
      run_cons rfl, List.cons_append, run_cons rfl, run_append hfirst, run_append hrest, run_one, step_closeObject,
      ← closeMembers_eq ((k, v) :: ms), List.map_cons, List.reverse_cons]
  | .broken, _, _, h, _ => by cases h

theorem run_itemTokens : ∀ (vs : List Json) (room : Nat) (done : List Json) (stack : List Frame),
    legibleItems room vs → stack.length + 1 + room = depthLimit →
    run ⟨.items done :: stack, .next⟩ ((itemTokens vs).flatMap (Token.comma :: ·)) =
      some ⟨.items (vs.reverse ++ done) :: stack, .next⟩
  | [], _, _, _, _, _ => rfl
  | v :: vs, room, done, stack, h, hroom => by
    obtain ⟨hv, hvs⟩ := Bool.and_eq_true_iff.1 h
    have hfirst := run_toTokens v room (.items done :: stack) hv hroom
    rw [itemTokens, List.flatMap_cons, List.cons_append, run_cons rfl, run_append hfirst,
      run_itemTokens vs room (v :: done) stack hvs hroom, List.reverse_cons, List.append_assoc]
    rfl

theorem run_memberTokens : ∀ (ms : List (String × Json)) (room : Nat) (done : List (Option String × Json))
    (stack : List Frame), legibleMembers room ms → stack.length + 1 + room = depthLimit →
    run ⟨.members done :: stack, .next⟩ ((memberTokens ms).flatMap (Token.comma :: ·)) =
      some ⟨.members ((ms.map fun m => (some m.1, m.2)).reverse ++ done) :: stack, .next⟩
  | [], _, _, _, _, _ => rfl
  | (k, v) :: ms, room, done, stack, h, hroom => by
    obtain ⟨hv, hms⟩ := Bool.and_eq_true_iff.1 h
    have hfirst := run_toTokens v room (.member done (some k) :: stack) hv hroom
    rw [memberTokens, List.flatMap_cons, List.cons_append, run_cons rfl, List.cons_append, run_cons rfl,
      List.cons_append, run_cons rfl, run_append hfirst, run_memberTokens ms room ((some k, v) :: done) stack hms hroom,
      List.map_cons, List.reverse_cons, List.append_assoc]
    rfl

end

end Position

/-- A text with the tokens of a value that can be read denotes the value. -/
theorem parse?_of_tokenized {text : String} {v : Json} (h : v.legible depthLimit)
    (htext : Tokenized text.toList v.toTokens) : parse? text = some v := by
  have hrun : Position.run ⟨[], .value⟩ v.toTokens = some ⟨[], .finished v⟩ :=
    Position.run_toTokens v depthLimit [] h (Nat.zero_add _)
  rw [Position.run] at hrun
  rw [parse?, tokens?_of_tokenized htext, Option.bind_some, ofTokens?, hrun]

/-- A value that can be read is read back from its text. -/
theorem parse?_pretty {v : Json} (h : v.legible depthLimit) : parse? v.pretty = some v :=
  parse?_of_tokenized h ((cut_prettyAt v 0 depthLimit h).tokenized ends_nil)

end DesignCanvas.Json
