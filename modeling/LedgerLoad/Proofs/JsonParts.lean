import LedgerLoad.Proofs.JsonRoundTrip

/-!
What the codecs of single values, of values that may be missing and of lists give.

A reader of numbers is not disturbed by what follows the number, so a number that is read back alone is read back anywhere.
-/

set_option autoImplicit false

namespace LedgerLoad

namespace Json

variable {s t b rest : List Char} {c : Char} {v : Numeral} {positive : Bool} {digits : Nat} {e : Int}

/-! ### Numbers in front of a text -/

def readPower (positive : Bool) (digits : Nat) (e : Int) (up : Bool) (s : List Char) : Except Fault (Numeral × List Char) := do
  match s with
  | [] => throw .truncated
  | c :: _ =>
    if !Text.isDigit c then throw .malformed
    let power := Text.digitsValue (s.takeWhile Text.isDigit)
    let rest := s.dropWhile Text.isDigit
    if power < 0x80000000 then
      return (← scaled positive digits (if up then e + power else e - power), rest)
    else if digits ≠ 0 ∧ up then throw .malformed
    else return (.float (if positive then 0 else -0), rest)

theorem readExponent_unsigned (h : c ≠ '+' ∧ c ≠ '-') :
    readExponent positive digits e (c :: s) = readPower positive digits e true (c :: s) := by
  unfold readExponent
  split
  rename_i up t signed
  split at signed
  · rename_i same
    exact absurd (List.cons.inj same).1 h.1
  · rename_i same
    exact absurd (List.cons.inj same).1 h.2
  · cases signed
    rfl

/-- A number that has been found is not changed by what follows. -/
theorem found_append {found : Except Fault Numeral} (h : (do return (← found, s)) = Except.ok (v, t)) :
    (do return (← found, s ++ rest)) = Except.ok (v, t ++ rest) := by
  cases found with
  | error fault => cases h
  | ok x =>
    cases h
    rfl

theorem readPower_append {up : Bool} (h : readPower positive digits e up s = .ok (v, t))
    (hr : ∀ c ∈ rest.head?, Text.isDigit c = false) : readPower positive digits e up (s ++ rest) = .ok (v, t ++ rest) := by
  cases s with
  | nil => cases h
  | cons c s =>
    have front := Text.takeWhile_append_stop (c :: s) hr
    have back := Text.dropWhile_append_stop (c :: s) hr
    rw [List.cons_append] at front back ⊢
    cases digit : Text.isDigit c with
    | false =>
      simp only [readPower, digit, Bool.not_false, if_true] at h
      cases h
    | true =>
      simp only [readPower, digit, front, back, Bool.not_true, Bool.false_eq_true, if_false] at h ⊢
      split at h
      · rename_i small
        rw [if_pos small]
        exact found_append h
      · rename_i large
        rw [if_neg large]
        split at h
        · cases h
        · rename_i zero
          rw [if_neg zero]
          cases h
          rfl

theorem readExponent_append (h : readExponent positive digits e s = .ok (v, t))
    (hr : ∀ c ∈ rest.head?, Text.isDigit c = false) : readExponent positive digits e (s ++ rest) = .ok (v, t ++ rest) := by
  cases s with
  | nil => cases h
  | cons c s =>
    by_cases plus : c = '+'
    · subst plus
      have power : readPower positive digits e true s = .ok (v, t) := h
      exact readPower_append power hr
    · by_cases minus : c = '-'
      · subst minus
        have power : readPower positive digits e false s = .ok (v, t) := h
        exact readPower_append power hr
      · rw [readExponent_unsigned ⟨plus, minus⟩] at h
        rw [List.cons_append, readExponent_unsigned ⟨plus, minus⟩]
        exact readPower_append h hr

theorem readFraction_append {spare : Nat} (h : readFraction positive digits spare s = .ok (v, t)) (hr : Ends rest) :
    readFraction positive digits spare (s ++ rest) = .ok (v, t ++ rest) := by
  have stops : ∀ c ∈ rest.head?, Text.isDigit c = false := fun c hc => (hr c hc).1
  have front := Text.takeWhile_append_stop s stops
  have back := Text.dropWhile_append_stop s stops
  cases some_ : (s.takeWhile Text.isDigit).isEmpty with
  | true =>
    simp only [readFraction, some_, if_true] at h
    cases h
  | false =>
    simp only [readFraction, front, back, some_, Bool.false_eq_true, if_false] at h ⊢
    cases left : s.dropWhile Text.isDigit with
    | nil =>
      rw [left] at h
      rw [List.nil_append]
      cases rest with
      | nil =>
        rw [List.append_nil]
        exact h
      | cons c rest =>
        have other : ¬ (c = 'e' ∨ c = 'E') := fun either => either.elim (hr c rfl).2.2.1 (hr c rfl).2.2.2
        simp only [if_neg other]
        exact found_append (s := []) h
    | cons c more =>
      rw [left] at h
      rw [List.cons_append]
      simp only at h ⊢
      split at h
      · rename_i letter
        rw [if_pos letter]
        exact readExponent_append h stops
      · rename_i other
        rw [if_neg other]
        exact found_append h

def readWhole (positive : Bool) (digits : Nat) (spare rest : List Char) : Except Fault (Numeral × List Char) :=
  if spare.isEmpty then
    if positive then .ok (.natural digits, rest)
    else if 0 < digits ∧ digits ≤ 0x8000000000000000 then .ok (.negative digits, rest)
    else .ok (.float (-(digits.toUInt64.toFloat)), rest)
  else do return (← scaled positive digits spare.length, rest)

def readAfter (positive : Bool) (digits : Nat) (spare rest : List Char) : Except Fault (Numeral × List Char) :=
  match rest with
  | '.' :: r => readFraction positive digits spare.length r
  | 'e' :: r => readExponent positive digits spare.length r
  | 'E' :: r => readExponent positive digits spare.length r
  | _ => readWhole positive digits spare rest

theorem readWhole_append {spare : List Char} (h : readWhole positive digits spare s = .ok (v, t)) :
    readWhole positive digits spare (s ++ rest) = .ok (v, t ++ rest) := by
  unfold readWhole at h ⊢
  split
  · rename_i fits
    rw [if_pos fits] at h
    split
    · rename_i sign
      rw [if_pos sign] at h
      cases h
      rfl
    · rename_i sign
      rw [if_neg sign] at h
      split
      · rename_i range
        rw [if_pos range] at h
        cases h
        rfl
      · rename_i range
        rw [if_neg range] at h
        cases h
        rfl
  · rename_i large
    rw [if_neg large] at h
    exact found_append h

theorem readAfter_other {spare : List Char} (h : ∀ c ∈ s.head?, c ≠ '.' ∧ c ≠ 'e' ∧ c ≠ 'E') :
    readAfter positive digits spare s = readWhole positive digits spare s := by
  unfold readAfter
  split
  · exact absurd rfl (h '.' rfl).1
  · exact absurd rfl (h 'e' rfl).2.1
  · exact absurd rfl (h 'E' rfl).2.2
  · rfl

theorem readAfter_append {spare : List Char} (h : readAfter positive digits spare s = .ok (v, t)) (hr : Ends rest) :
    readAfter positive digits spare (s ++ rest) = .ok (v, t ++ rest) := by
  have stops : ∀ c ∈ rest.head?, Text.isDigit c = false := fun c hc => (hr c hc).1
  cases s with
  | nil =>
    rw [readAfter_other (s := []) (by simp)] at h
    rw [List.nil_append, readAfter_other fun c hc => (hr c hc).2]
    exact readWhole_append (s := []) h
  | cons c s =>
    by_cases special : c = '.' ∨ c = 'e' ∨ c = 'E'
    · rcases special with rfl | rfl | rfl
      · exact readFraction_append (s := s) h hr
      · exact readExponent_append (s := s) h stops
      · exact readExponent_append (s := s) h stops
    · simp only [not_or] at special
      rw [readAfter_other (by simpa using special)] at h
      rw [readAfter_other (by simpa using special)]
      exact readWhole_append h

theorem readNumber_append (h : readNumber positive s = .ok (v, t)) (hr : Ends rest) :
    readNumber positive (s ++ rest) = .ok (v, t ++ rest) := by
  have stops : ∀ c ∈ rest.head?, Text.isDigit c = false := fun c hc => (hr c hc).1
  cases s with
  | nil => cases h
  | cons c s =>
    have front := Text.takeWhile_append_stop (c :: s) stops
    have back := Text.dropWhile_append_stop (c :: s) stops
    have second : (s ++ rest).head?.any Text.isDigit = s.head?.any Text.isDigit := by
      cases s with
      | cons d s => rfl
      | nil =>
        cases rest with
        | nil => rfl
        | cons d rest => simpa using (hr d rfl).1
    rw [List.cons_append] at front back ⊢
    cases digit : Text.isDigit c with
    | false =>
      simp only [readNumber, digit, Bool.not_false, if_true] at h
      cases h
    | true =>
      by_cases zero : c = '0' ∧ s.head?.any Text.isDigit = true
      · rw [readNumber] at h
        simp only [zero, and_self, if_true] at h
        cases h
      · simp only [readNumber, digit, second, zero, front, back, Bool.not_true, Bool.false_eq_true, if_false] at h ⊢
        exact readAfter_append (s := (c :: s).dropWhile Text.isDigit) h hr

theorem skipSpace_append_cons (h : skipSpace s = c :: t) : skipSpace (s ++ rest) = c :: (t ++ rest) := by
  induction s with
  | nil => cases h
  | cons d s ih =>
    cases space : isSpace d with
    | true =>
      rw [skipSpace, List.dropWhile_cons_of_pos space] at h
      rw [List.cons_append, skipSpace, List.dropWhile_cons_of_pos space]
      exact ih h
    | false =>
      rw [skipSpace_cons space] at h
      cases h
      rw [List.cons_append, skipSpace_cons space]

theorem readNumeral_unsigned (front : skipSpace s = c :: t) (unsigned : c ≠ '-') :
    readNumeral s = if Text.isDigit c then readNumber true (c :: t) else .error (wrongKind (c :: t)) := by
  rw [readNumeral, front]
  split
  · rename_i same
    exact absurd (List.cons.inj same).1 unsigned
  · rename_i same
    cases same
    rfl
  · rename_i same
    cases same

theorem readNumeral_append (h : readNumeral s = .ok (v, t)) (hr : Ends rest) :
    readNumeral (s ++ rest) = .ok (v, t ++ rest) := by
  cases front : skipSpace s with
  | nil =>
    rw [readNumeral, front] at h
    cases h
  | cons c s' =>
    have whole : skipSpace (s ++ rest) = c :: (s' ++ rest) := skipSpace_append_cons front
    by_cases minus : c = '-'
    · subst minus
      rw [readNumeral, front] at h
      rw [readNumeral, whole]
      exact readNumber_append h hr
    · rw [readNumeral_unsigned front minus] at h
      rw [readNumeral_unsigned whole minus]
      split
      · rename_i digit
        rw [if_pos digit] at h
        exact readNumber_append (s := c :: s') h hr
      · rename_i digit
        rw [if_neg digit] at h
        cases h

/-! ### Readers -/

structure Solid {α : Type} (read : Reader α) : Prop where
  blank : ∀ s, read (skipSpace s) = read s
  nothing : ∃ f, read [] = .error f
  null : ∀ s, ∃ f, read ('n' :: s) = .error f
  closing : ∀ s, ∃ f, read (']' :: s) = .error f

theorem skipSpace_skipSpace (s : List Char) : skipSpace (skipSpace s) = skipSpace s := by
  induction s with
  | nil => rfl
  | cons c s ih =>
    cases space : isSpace c with
    | true =>
      have past : skipSpace (c :: s) = skipSpace s := List.dropWhile_cons_of_pos space
      rw [past, ih]
    | false => rw [skipSpace_cons space, skipSpace_cons space]

theorem Solid.read_blank {α : Type} {read : Reader α} (h : Solid read) (hb : Blank b) (s : List Char) :
    read (b ++ s) = read s := by
  rw [← h.blank, skipSpace_append hb, h.blank]

theorem Solid.refine {α β : Type} {read : Reader α} (h : Solid read) (f : α → Except Rejection β) :
    Solid (Json.refine read f) where
  blank s := by simp only [Json.refine, h.blank]
  nothing := by
    obtain ⟨fault, failed⟩ := h.nothing
    exact ⟨fault, by rw [Json.refine, failed]; rfl⟩
  null s := by
    obtain ⟨fault, failed⟩ := h.null s
    exact ⟨fault, by rw [Json.refine, failed]; rfl⟩
  closing s := by
    obtain ⟨fault, failed⟩ := h.closing s
    exact ⟨fault, by rw [Json.refine, failed]; rfl⟩

theorem solid_readNumeral : Solid readNumeral where
  blank s := by simp only [readNumeral, skipSpace_skipSpace]
  nothing := ⟨_, rfl⟩
  null s := ⟨_, rfl⟩
  closing s := ⟨_, rfl⟩

theorem solid_readFloat : Solid readFloat := by
  unfold readFloat
  exact solid_readNumeral.refine _

theorem solid_readNat (least most : Nat) : Solid (readNat least most) := by
  unfold readNat
  exact solid_readNumeral.refine _

theorem solid_readText : Solid readText where
  blank s := by simp only [readText, skipSpace_skipSpace]
  nothing := ⟨_, rfl⟩
  null s := ⟨_, rfl⟩
  closing s := ⟨_, rfl⟩

theorem solid_codec {ρ α : Type} (fs : Fields ρ) (make : ρ → α) (back : α → ρ) : Solid (fs.codec make back).read where
  blank s := by simp only [Fields.codec, Fields.read, skipSpace_skipSpace]
  nothing := ⟨_, rfl⟩
  null s := ⟨_, rfl⟩
  closing s := ⟨_, rfl⟩

/-! ### Codecs of single values -/

namespace Codec

variable {α β α' β' : Type} {c : Codec α} {d : Codec β} {a : α} {b : β}

theorem gives_bool (x : Bool) : Codec.bool.Gives Codec.bool x x := by
  refine ⟨.bool x, rfl, fun l depth blanks rest hl hb hr => ?_⟩
  change readBool (blanks ++ (if x then ['t', 'r', 'u', 'e'] else ['f', 'a', 'l', 's', 'e']) ++ rest) = .ok (x, rest)
  rw [List.append_assoc, readBool, skipSpace_append hb]
  cases x <;> rfl

theorem gives_nat {least most n : Nat} (low : least ≤ n) (high : n ≤ most) (range : n < 0x10000000000000000) :
    (Codec.nat least most).Gives (Codec.nat least most) n n := by
  refine ⟨.int n, rfl, fun l depth blanks rest hl hb hr => ?_⟩
  change readNat least most (blanks ++ intText n ++ rest) = .ok (n, rest)
  have natural : numeralOf n = .natural n := by
    have sign : ¬ (n : Int) < 0 := by omega
    rw [numeralOf, if_neg sign, Int.natAbs_natCast]
  rw [readNat, Json.refine, readNumeral_intText (by omega) (by omega) hb hr, natural]
  simp only [bind, Except.bind, if_pos (And.intro low high)]
  rfl

theorem gives_name {named : List (String × α)} {name : α → String} (h : named.lookup (name a) = some a) :
    (Codec.names named name).Gives (Codec.names named name) a a := by
  refine ⟨.text (name a), rfl, fun l depth blanks rest hl hb hr => ?_⟩
  change readName named (blanks ++ quoted (name a).toList ++ rest) = .ok (a, rest)
  rw [readName, List.append_assoc, quoted, List.cons_append, List.cons_append, skipSpace_blank_cons hb (by decide)]
  have text : (name a).toList.flatMap escaped ++ ['"'] ++ rest = (name a).toList.flatMap escaped ++ '"' :: rest := by simp
  simp only [text, readString_quoted, List.reverse_nil, List.nil_append, String.ofList_toList, bind, Except.bind, h]
  rfl

/-- A double whose text is read back where it stands alone is read back anywhere. -/
theorem gives_float {x y : Float} (h : readFloat (floatText x) = .ok (y, [])) : Codec.float.Gives Codec.float x y := by
  refine ⟨.float x, rfl, fun l depth blanks rest hl hb hr => ?_⟩
  change readFloat (blanks ++ floatText x ++ rest) = .ok (y, rest)
  rw [readFloat, Json.refine] at h
  cases found : readNumeral (floatText x) with
  | error fault =>
    rw [found] at h
    cases h
  | ok p =>
    obtain ⟨v, t⟩ := p
    have here := readNumeral_append found hr
    have nothing : t = [] := by
      rw [found] at h
      cases v <;> cases h <;> rfl
    subst nothing
    rw [readFloat, Json.refine, List.append_assoc, solid_readNumeral.read_blank hb, here, List.nil_append]
    rw [found] at h
    cases v <;> cases h <;> rfl

theorem gives_narrow {make : α → Option α'} {back : α' → Option α} {make' : β → Option β'} {back' : β' → Option β}
    {x : α'} {y : β'} (h : c.Gives d a b) (written : back x = some a) (read : make' b = some y) :
    (c.narrow make back).Gives (d.narrow make' back') x y := by
  obtain ⟨v, hv, given⟩ := h
  refine ⟨v, ?_, fun l depth blanks rest hl hb hr => ?_⟩
  · change (back x).bind c.write = some v
    rw [written]
    exact hv
  · simp only [Codec.narrow, Json.refine, given l depth blanks rest hl hb hr, bind, Except.bind, read]
    rfl

theorem gives_none (c : Codec α) (d : Codec β) : c.option.Gives d.option none none := by
  refine ⟨.null, rfl, fun l depth blanks rest hl hb hr => ?_⟩
  change readOption d.read (blanks ++ ['n', 'u', 'l', 'l'] ++ rest) = .ok (none, rest)
  rw [List.append_assoc, readOption, skipSpace_append hb]
  rfl

theorem gives_some (h : c.Gives d a b) (solid : Solid d.read) : c.option.Gives d.option (some a) (some b) := by
  obtain ⟨v, hv, given⟩ := h
  refine ⟨v, hv, fun l depth blanks rest hl hb hr => ?_⟩
  have read := given l depth blanks rest hl hb hr
  change readOption d.read (blanks ++ v.render l depth ++ rest) = .ok (some b, rest)
  unfold readOption
  split
  · rename_i s front
    obtain ⟨fault, failed⟩ := solid.null s
    rw [← solid.blank, front, failed] at read
    cases read
  · rw [read]
    rfl

end Codec

/-! ### Lists -/

section

variable {α β : Type} {read : Reader β} {y : β} {l : Layout} {depth : Nat}

theorem nextItem_first (h : Solid read) (item : read s = .ok (y, t)) : nextItem true s = .ok (true, skipSpace s) := by
  have here := item
  rw [← h.blank] at here
  unfold nextItem
  split
  · rename_i front
    obtain ⟨fault, failed⟩ := h.nothing
    rw [front, failed] at here
    cases here
  · rename_i r front
    obtain ⟨fault, failed⟩ := h.closing r
    rw [front, failed] at here
    cases here
  · rename_i front
    rw [front]
    rfl
  · rfl

theorem nextItem_later (h : Solid read) (item : read s = .ok (y, t)) :
    nextItem false (',' :: s) = .ok (true, skipSpace s) := by
  have here := item
  rw [← h.blank] at here
  rw [nextItem, skipSpace_cons (by decide)]
  simp only [Bool.false_eq_true, if_false]
  split
  · rename_i front
    obtain ⟨fault, failed⟩ := h.nothing
    rw [front, failed] at here
    cases here
  · rename_i r front
    obtain ⟨fault, failed⟩ := h.closing r
    rw [front, failed] at here
    cases here
  · rfl

theorem nextItem_close (first : Bool) (hb : Blank b) : nextItem first (b ++ ']' :: s) = .ok (false, ']' :: s) := by
  rw [nextItem, skipSpace_blank_cons hb (by decide)]
  rfl

theorem ends_items (vs : List Json) (hb : Blank b) : Ends (renderItems l depth vs ++ (b ++ ']' :: s)) := by
  rcases vs with _ | ⟨v, vs⟩
  · have bracket : Ends (']' :: s) := by simp [Ends]; decide
    simpa [renderItems] using ends_blank hb bracket
  · simp [Ends, renderItems]
    decide

theorem length_items (vs : List Json) : vs.length ≤ (renderItems l depth vs).length := by
  induction vs with
  | nil => exact Nat.zero_le _
  | cons v vs ih =>
    rw [renderItems]
    simp only [List.length_cons, List.length_append]
    omega

/-- The items of a list, of which the first has no comma before it if it is the first of all. -/
def itemsFrom (first : Bool) (l : Layout) (depth : Nat) (vs : List Json) : List Char :=
  if first then (renderItems l depth vs).tail else renderItems l depth vs

theorem itemsFrom_cons (first : Bool) (v : Json) (vs : List Json) : itemsFrom first l depth (v :: vs) ++ s =
    (if first then [] else [',']) ++ (l.gap depth ++ v.render l depth ++ (renderItems l depth vs ++ s)) := by
  cases first <;> simp [itemsFrom, renderItems]

theorem render_list (vs : List Json) : (Json.list vs).render l depth =
    '[' :: (itemsFrom true l (depth + 1) vs ++ ((if vs.isEmpty then [] else l.gap depth) ++ [']'])) := by
  cases vs <;> simp [render, itemsFrom, renderItems]

theorem readItems_item {first : Bool} {acc : List β} (fuel : Nat) (h : Solid read) (item : read s = .ok (y, t)) :
    readItems read first acc (fuel + 1) ((if first then [] else [',']) ++ s) = readItems read false (y :: acc) fuel t := by
  have next : nextItem first ((if first then [] else [',']) ++ s) = .ok (true, skipSpace s) := by
    cases first with
    | true => exact nextItem_first h item
    | false => exact nextItem_later h item
  rw [readItems, next]
  simp only [bind, Except.bind, if_true, h.blank, item]

theorem readItems_given {c : Codec α} {d : Codec β} {xs : List α} {ys : List β} (h : List.Forall₂ (c.Gives d) xs ys)
    (solid : Solid d.read) :
    ∃ vs, xs.mapM c.write = some vs ∧
      ∀ (first : Bool) (l : Layout) (depth : Nat) (b rest : List Char) (acc : List β) (fuel : Nat),
        l.Spaced → Blank b → vs.length < fuel →
          readItems d.read first acc fuel (itemsFrom first l depth vs ++ (b ++ ']' :: rest)) =
            .ok (acc.reverse ++ ys, rest) := by
  induction h with
  | nil =>
    refine ⟨[], rfl, fun first l depth b rest acc fuel hl hb enough => ?_⟩
    obtain ⟨fuel, rfl⟩ := Nat.exists_eq_add_one_of_ne_zero (Nat.ne_of_gt enough)
    have none : itemsFrom first l depth [] = [] := by cases first <;> rfl
    rw [none, List.nil_append, readItems, nextItem_close first hb, List.append_nil]
    rfl
  | @cons x y xs ys given _ ih =>
    obtain ⟨vs, written, read⟩ := ih
    obtain ⟨v, hv, given⟩ := given
    refine ⟨v :: vs, ?_, fun first l depth b rest acc fuel hl hb enough => ?_⟩
    · rw [List.mapM_cons, hv, written]
      rfl
    · obtain ⟨fuel, rfl⟩ := Nat.exists_eq_add_one_of_ne_zero (Nat.ne_of_gt (Nat.zero_lt_of_lt enough))
      have ends : Ends (renderItems l depth vs ++ (b ++ ']' :: rest)) := ends_items vs hb
      have here := given l depth (l.gap depth) _ hl (hl.gap depth) ends
      have later := read false l depth b rest (y :: acc) fuel hl hb (Nat.lt_of_succ_lt_succ enough)
      rw [List.reverse_cons, List.append_assoc, List.singleton_append] at later
      rw [itemsFrom_cons, readItems_item fuel solid here]
      exact later

theorem Codec.gives_list {c : Codec α} {d : Codec β} {xs : List α} {ys : List β} (h : List.Forall₂ (c.Gives d) xs ys)
    (solid : Solid d.read) : c.list.Gives d.list xs ys := by
  obtain ⟨vs, written, read⟩ := readItems_given h solid
  refine ⟨.list vs, congrArg (Option.map Json.list) written, fun l depth blanks rest hl hb _ => ?_⟩
  change readList d.read (blanks ++ (Json.list vs).render l depth ++ rest) = .ok (ys, rest)
  have between : Blank (if vs.isEmpty then [] else l.gap depth) := by
    split
    · exact fun c hc => nomatch hc
    · exact hl.gap depth
  have room : vs.length ≤ (itemsFrom true l (depth + 1) vs).length + 1 := by
    have written : vs.length ≤ (renderItems l (depth + 1) vs).length := length_items vs
    simp only [itemsFrom, if_true, List.length_tail]
    omega
  rw [render_list, List.append_assoc, List.cons_append, readList, skipSpace_blank_cons hb (by decide)]
  simp only [List.append_assoc, List.singleton_append]
  exact read true l (depth + 1) _ rest [] _ hl between (by simp; omega)

end

end Json

end LedgerLoad
