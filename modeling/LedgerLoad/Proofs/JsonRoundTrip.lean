import Mathlib.Data.List.Basic
import LedgerLoad.Json.Codec
import LedgerLoad.Proofs.TextParts

/-!
What a codec writes it reads back, with whatever blanks a layout puts between the parts, and leaves what follows alone.

A codec `gives` one value for another if the text of the first is read as the second; for exact codecs the two are the same.
Records give what their fields give, however the fields are nested.
-/

set_option autoImplicit false

namespace LedgerLoad

namespace Text

theorem hexValue?_hexDigit (n : Nat) : hexValue? (hexDigit n) = some (n % 16) := by
  have small : ∀ k < 16, hexValue? (Nat.digitChar k) = some k := by decide
  exact small (n % 16) (Nat.mod_lt n (by decide))

end Text

namespace Json

variable {s t b rest acc : List Char} {c : Char} {l : Layout} {depth : Nat}

/-! ### Blanks -/

def Blank (s : List Char) : Prop := ∀ c ∈ s, isSpace c = true

theorem skipSpace_append (hb : Blank b) : skipSpace (b ++ s) = skipSpace s := by
  induction b with
  | nil => rfl
  | cons c b ih =>
    have space : isSpace c = true := hb c List.mem_cons_self
    rw [List.cons_append, skipSpace, List.dropWhile_cons_of_pos space]
    exact ih fun c hc => hb c (List.mem_cons_of_mem _ hc)

theorem skipSpace_cons (hc : isSpace c = false) : skipSpace (c :: s) = c :: s :=
  List.dropWhile_cons_of_neg (by simp [hc])

theorem skipSpace_blank_cons (hb : Blank b) (hc : isSpace c = false) : skipSpace (b ++ c :: s) = c :: s := by
  rw [skipSpace_append hb, skipSpace_cons hc]

structure Layout.Spaced (l : Layout) : Prop where
  gap : ∀ depth, Blank (l.gap depth)
  afterColon : Blank l.afterColon

theorem spaced_compactLayout : compactLayout.Spaced := ⟨fun _ _ h => (nomatch h), fun _ h => nomatch h⟩

theorem spaced_indentedLayout : indentedLayout.Spaced := by
  refine ⟨fun depth c hc => ?_, fun c hc => ?_⟩
  · rcases List.mem_cons.1 hc with rfl | hc
    · rfl
    · rw [List.eq_of_mem_replicate hc]
      rfl
  · rw [List.mem_singleton.1 hc]
    rfl

/-- What may follow a value: nothing that would go on with a number. -/
def Ends (rest : List Char) : Prop :=
  ∀ c ∈ rest.head?, Text.isDigit c = false ∧ c ≠ '.' ∧ c ≠ 'e' ∧ c ≠ 'E'

theorem ends_blank (hb : Blank b) (h : Ends s) : Ends (b ++ s) := by
  rcases b with _ | ⟨e, b⟩
  · exact h
  · intro c hc
    obtain rfl : e = c := by simpa using hc
    have space := hb e List.mem_cons_self
    simp only [isSpace, Bool.or_eq_true, beq_iff_eq] at space
    rcases space with ((rfl | rfl) | rfl) | rfl <;> decide

/-! ### Strings -/

theorem readString_escaped (c : Char) (acc rest : List Char) :
    readString .none acc (escaped c ++ rest) = readString .none (c :: acc) rest := by
  unfold escaped
  by_cases special : c = '"' ∨ c = '\\' ∨ c = '\n' ∨ c = '\r' ∨ c = '\t' ∨ c = '\x08' ∨ c = '\x0c'
  · rcases special with rfl | rfl | rfl | rfl | rfl | rfl | rfl <;> simp [readString, shortEscape?]
  · simp only [not_or] at special
    obtain ⟨quote, slash, lf, cr, tab, back, feed⟩ := special
    simp only [quote, slash, lf, cr, tab, back, feed, if_false]
    split
    · rename_i control
      have zero : Text.hexValue? '0' = some 0 := by decide
      have value : (c.toNat / 16 % 16) * 16 + c.toNat % 16 = c.toNat := by omega
      have low : ¬ (0xdc00 ≤ c.toNat) := by omega
      have high : ¬ (0xd800 ≤ c.toNat) := by omega
      simp [readString, zero, Text.hexValue?_hexDigit, value, low, high]
    · rename_i control
      simp [readString, quote, slash, control]

theorem readString_quoted (s rest : List Char) :
    readString .none acc (s.flatMap escaped ++ '"' :: rest) = .ok (String.ofList (acc.reverse ++ s), rest) := by
  induction s generalizing acc with
  | nil => simp [readString]
  | cons c s ih =>
    rw [List.flatMap_cons, List.append_assoc, readString_escaped, ih]
    simp

/-! ### Numbers -/

theorem fit_digits (ds : List Char) (n : Nat)
    (h : ds.foldl (fun n c => n * 10 + Text.digitValue c) n < 0x10000000000000000) :
    fit n ds = (ds.foldl (fun n c => n * 10 + Text.digitValue c) n, []) := by
  induction ds generalizing n with
  | nil => rfl
  | cons c ds ih =>
    have small : n * 10 + Text.digitValue c < 0x10000000000000000 := Nat.lt_of_le_of_lt (Text.le_foldl_digits ds _) h
    rw [fit, if_pos small, ih _ h]
    rfl

theorem fit_decimal {n : Nat} (hn : n < 0x10000000000000000) : fit 0 (Text.decimal n) = (n, []) := by
  have value : (Text.decimal n).foldl (fun n c => n * 10 + Text.digitValue c) 0 = n := Text.digitsValue_decimal n
  rw [fit_digits _ _ (by rwa [value]), value]

theorem dropWhile_decimal (n : Nat) (h : ∀ c ∈ rest.head?, Text.isDigit c = false) :
    (Text.decimal n ++ rest).dropWhile Text.isDigit = rest :=
  Text.dropWhile_digits (fun _ => Text.isDigit_of_mem_decimal) h

theorem decimal_cons {n : Nat} {ds : List Char} (h : Text.decimal n = c :: ds) :
    Text.isDigit c = true ∧ (c = '0' → ds = []) := by
  refine ⟨Text.isDigit_of_mem_decimal (h ▸ List.mem_cons_self), ?_⟩
  induction n using Nat.strongRecOn generalizing ds with
  | ind n ih =>
    rw [Text.decimal, Nat.toDigits_eq_if (by decide)] at h
    split at h
    · rename_i small
      exact fun _ => (List.cons.inj h).2.symm
    · rename_i large
      intro zero
      cases before : Text.decimal (n / 10) with
      | nil => exact absurd before Nat.toDigits_ne_nil
      | cons c' ds' =>
        have tens : Nat.toDigits 10 (n / 10) = c' :: ds' := before
        have value := Text.digitsValue_decimal (n / 10)
        rw [tens] at h
        obtain ⟨rfl, -⟩ := List.cons.inj h
        rw [before, zero, ih (n / 10) (by omega) before zero] at value
        have : (0 : Nat) = n / 10 := value
        omega

theorem readNumber_decimal (positive : Bool) {n : Nat} (hn : n < 0x10000000000000000) (hr : Ends rest)
    (hp : positive = false → 0 < n ∧ n ≤ 0x8000000000000000) :
    readNumber positive (Text.decimal n ++ rest) = .ok (if positive then .natural n else .negative n, rest) := by
  cases digits : Text.decimal n with
  | nil => exact absurd digits Nat.toDigits_ne_nil
  | cons c ds =>
    obtain ⟨digit, alone⟩ := decimal_cons digits
    have stops : ∀ c ∈ rest.head?, Text.isDigit c = false := fun c hc => (hr c hc).1
    have first : ¬(c = '0' ∧ ((ds ++ rest).head?.any Text.isDigit) = true) := by
      rintro ⟨zero, more⟩
      rw [alone zero, List.nil_append, Option.any_eq_true] at more
      obtain ⟨x, hx, digit⟩ := more
      rw [stops x hx] at digit
      cases digit
    rw [List.cons_append, readNumber]
    simp only [digit, first, if_false, Bool.not_true, Bool.false_eq_true, ← List.cons_append, ← digits,
      Text.takeWhile_decimal n stops, dropWhile_decimal n stops, fit_decimal hn, List.isEmpty_nil, if_true]
    split
    · exact absurd rfl (hr '.' rfl).2.1
    · exact absurd rfl (hr 'e' rfl).2.2.1
    · exact absurd rfl (hr 'E' rfl).2.2.2
    · cases positive with
      | true => rfl
      | false => simp [hp rfl]

theorem isSpace_of_isDigit (h : Text.isDigit c = true) : isSpace c = false := by
  by_contra space
  simp only [isSpace, Bool.not_eq_false, Bool.or_eq_true, beq_iff_eq] at space
  rcases space with ((rfl | rfl) | rfl) | rfl <;> cases h

def numeralOf (n : Int) : Numeral := if n < 0 then .negative n.natAbs else .natural n.natAbs

theorem readNumeral_intText {n : Int} (low : -0x8000000000000000 ≤ n) (high : n < 0x10000000000000000)
    (hb : Blank b) (hr : Ends rest) : readNumeral (b ++ intText n ++ rest) = .ok (numeralOf n, rest) := by
  rw [readNumeral, List.append_assoc, skipSpace_append hb, intText, numeralOf]
  by_cases sign : n < 0
  · simp only [sign, if_true, List.cons_append]
    rw [skipSpace_cons (by decide)]
    exact readNumber_decimal false (by omega) hr fun _ => by omega
  · simp only [sign, if_false]
    cases digits : Text.decimal n.natAbs with
    | nil => exact absurd digits Nat.toDigits_ne_nil
    | cons c ds =>
      have digit := (decimal_cons digits).1
      have noSign : c ≠ '-' := by rintro rfl; cases digit
      rw [List.cons_append, skipSpace_cons (isSpace_of_isDigit digit)]
      split
      · rename_i same
        exact absurd (List.cons.inj same).1 noSign
      · rename_i same
        obtain ⟨rfl, rfl⟩ := List.cons.inj same
        rw [if_pos digit, ← List.cons_append, ← digits]
        exact readNumber_decimal true (by omega) hr fun h => nomatch h
      · rename_i same
        cases same

/-! ### Codecs -/

/-- What `c` writes for `a` is read by `d` as `b`, wherever the text stands. -/
def Codec.Gives {α β : Type} (c : Codec α) (d : Codec β) (a : α) (b : β) : Prop :=
  ∃ v, c.write a = some v ∧ ∀ (l : Layout) (depth : Nat) (blanks rest : List Char),
    l.Spaced → Blank blanks → Ends rest → d.read (blanks ++ v.render l depth ++ rest) = .ok (b, rest)

namespace Codec

theorem gives_text (s : String) : Codec.text.Gives Codec.text s s := by
  refine ⟨.text s, rfl, fun l depth blanks rest hl hb hr => ?_⟩
  change readText (blanks ++ quoted s.toList ++ rest) = .ok (s, rest)
  rw [readText, List.append_assoc, quoted, List.cons_append, List.cons_append, skipSpace_blank_cons hb (by decide)]
  change readString .none [] (s.toList.flatMap escaped ++ ['"'] ++ rest) = .ok (s, rest)
  rw [List.append_assoc, List.singleton_append, readString_quoted]
  simp

theorem gives_int {n : Int} (low : -0x8000000000000000 ≤ n) (high : n < 0x8000000000000000) :
    Codec.int.Gives Codec.int n n := by
  refine ⟨.int n, rfl, fun l depth blanks rest hl hb hr => ?_⟩
  change readInt (blanks ++ intText n ++ rest) = .ok (n, rest)
  rw [readInt, refine, readNumeral_intText low (by omega) hb hr, numeralOf]
  by_cases sign : n < 0
  · simp only [sign, if_true]
    change Except.ok (-(n.natAbs : Int), rest) = _
    rw [show -(n.natAbs : Int) = n by omega]
  · have fits : n.natAbs < 0x8000000000000000 := by omega
    simp only [sign, if_false, bind, Except.bind, fits, if_true, pure, Except.pure]
    rw [show (n.natAbs : Int) = n by omega]

end Codec

/-! ### Records -/

namespace Fields

variable {ρ σ τ : Type} {fs : Fields ρ} {gs : Fields σ} {ts : Fields τ} {x : ρ} {y : σ}

/-- Field by field, what is written under one description of a record is read under another. -/
inductive Gives : {ρ σ : Type} → Fields ρ → Fields σ → ρ → σ → Prop
  | nil : Gives .nil .nil () ()
  | cons {ρ σ α β : Type} {fs : Fields ρ} {gs : Fields σ} {f : Field α} {g : Field β} {x : ρ} {y : σ} {a : α} {b : β}
      (name : f.name = g.name) (value : f.codec.Gives g.codec a b) (later : Gives fs gs x y) :
      Gives (.cons f fs) (.cons g gs) (a, x) (b, y)

def names : {ρ : Type} → Fields ρ → List String
  | _, .nil => []
  | _, .cons f fs => f.name :: fs.names

def Draft.put {β : Type} {g : Field β} (here : Option β) (later : gs.Draft) : (Fields.cons g gs).Draft := (here, later)

def filled : {ρ : Type} → (fs : Fields ρ) → ρ → fs.Draft
  | _, .nil, _ => ()
  | _, .cons _ fs, (a, x) => Draft.put (some a) (fs.filled x)

theorem complete_filled (gs : Fields σ) (y : σ) : gs.complete (gs.filled y) = .ok y := by
  induction gs with
  | nil => rfl
  | cons g gs ih =>
    obtain ⟨b, y⟩ := y
    change (do return (b, ← gs.complete (gs.filled y)) : Except Rejection _) = _
    rw [ih y]
    rfl

def lift {A B : Type} (embed : A → B) (taken : Option (Except Rejection (Reader A))) :
    Option (Except Rejection (Reader B)) :=
  taken.map fun r => r.map fun read => fun s => (read s).map fun (a, s) => (embed a, s)

theorem lift_id {A : Type} (taken : Option (Except Rejection (Reader A))) : lift id taken = taken := by
  have same : ∀ read : Reader A, (fun s => (read s).map fun (a, s) => (id a, s)) = read := by
    intro read
    funext s
    cases read s <;> rfl
  rcases taken with _ | _ | read
  · rfl
  · rfl
  · simp only [lift, Option.map_some, Except.map, Option.some.injEq, Except.ok.injEq]
    exact same read

theorem lift_lift {A B C : Type} (f : A → B) (g : B → C) (taken : Option (Except Rejection (Reader A))) :
    lift g (lift f taken) = lift (g ∘ f) taken := by
  rcases taken with _ | _ | read
  · rfl
  · rfl
  · simp only [lift, Option.map_some, Except.map, Option.some.injEq, Except.ok.injEq]
    funext s
    cases read s <;> rfl

theorem assign_here {β : Type} {g : Field β} (later : gs.Draft) :
    (Fields.cons g gs).assign (Draft.put none later) g.name =
      some (.ok fun s => (g.codec.read s).map fun (b, s) => (Draft.put (some b) later, s)) := by
  exact if_pos rfl

theorem assign_later {β : Type} {g : Field β} {name : String} (h : name ≠ g.name) (here : Option β) (later : gs.Draft) :
    (Fields.cons g gs).assign (Draft.put here later) name = lift (Draft.put here) (gs.assign later name) := by
  exact if_neg h

/-- The drafts of some fields of a record as drafts of the whole: a member of such a field is taken up there. -/
structure Part (ts : Fields τ) (gs : Fields σ) where
  embed : gs.Draft → ts.Draft
  assign : ∀ name ∈ gs.names, ∀ draft : gs.Draft, ts.assign (embed draft) name = lift embed (gs.assign draft name)

def Part.whole (ts : Fields τ) : Part ts ts where
  embed := id
  assign name _ draft := (lift_id (ts.assign draft name)).symm

def Part.later {β : Type} {g : Field β} (p : Part ts (.cons g gs)) (hg : g.name ∉ gs.names) (b : β) : Part ts gs where
  embed draft := p.embed (Draft.put (some b) draft)
  assign name hn draft := by
    have other : name ≠ g.name := by rintro rfl; exact hg hn
    rw [p.assign name (List.mem_cons_of_mem _ hn), assign_later other, lift_lift]
    rfl

theorem Part.assign_here {β : Type} {g : Field β} (p : Part ts (.cons g gs)) (later : gs.Draft) :
    ts.assign (p.embed (Draft.put none later)) g.name =
      some (.ok fun s => (g.codec.read s).map fun (b, s) => (p.embed (Draft.put (some b) later), s)) := by
  rw [p.assign g.name List.mem_cons_self, Fields.assign_here]
  simp only [lift, Option.map_some, Except.map, Option.some.injEq, Except.ok.injEq]
  funext s
  cases g.codec.read s <;> rfl

theorem nextKey_open (first : Bool) (hb : Blank b) :
    nextKey first ((if first then [] else [',']) ++ (b ++ '"' :: s)) = .ok (true, s) := by
  cases first
  · simp only [Bool.false_eq_true, if_false, List.singleton_append]
    rw [nextKey, skipSpace_cons (by decide)]
    simp only [Bool.false_eq_true, if_false]
    rw [skipSpace_blank_cons hb (by decide)]
    rfl
  · rw [if_pos rfl, List.nil_append, nextKey, skipSpace_blank_cons hb (by decide)]
    rfl

theorem nextKey_close (first : Bool) (hb : Blank b) :
    nextKey first (b ++ '\x7d' :: s) = .ok (false, '\x7d' :: s) := by
  rw [nextKey, skipSpace_blank_cons hb (by decide)]
  rfl

theorem readMembers_member {draft draft' : ts.Draft} {first : Bool} {name : String} {read : Reader ts.Draft}
    {value : List Char} (fuel : Nat) (key : nextKey first s = .ok (true, name.toList.flatMap escaped ++ '"' :: ':' :: value))
    (taken : ts.assign draft name = some (.ok read)) (done : read value = .ok (draft', t)) :
    ts.readMembers first draft (fuel + 1) s = ts.readMembers false draft' fuel t := by
  rw [readMembers, key]
  simp only [bind, Except.bind, if_true, readString_quoted, List.reverse_nil, List.nil_append, String.ofList_toList, taken,
    colon, skipSpace_cons (show isSpace ':' = false by decide), done]

theorem readMembers_close {draft : ts.Draft} {first : Bool} {fuel : Nat} (hb : Blank b) :
    ts.readMembers first draft (fuel + 1) (b ++ '\x7d' :: s) = .ok (draft, '\x7d' :: s) := by
  rw [readMembers, nextKey_close first hb]
  rfl

theorem ends_members (ms : List (String × Json)) (hb : Blank b) :
    Ends (renderMembers l depth ms ++ (b ++ '\x7d' :: s)) := by
  rcases ms with _ | ⟨⟨k, v⟩, ms⟩
  · have brace : Ends ('\x7d' :: s) := by simp [Ends]; decide
    simpa [renderMembers] using ends_blank hb brace
  · simp [Ends, renderMembers]
    decide

theorem length_members (ms : List (String × Json)) : ms.length ≤ (renderMembers l depth ms).length := by
  induction ms with
  | nil => exact Nat.zero_le _
  | cons m ms ih =>
    rw [renderMembers]
    simp only [List.length_cons, List.length_append]
    omega

/-- The members of a record, of which the first has no comma before it if it is the first of all. -/
def membersFrom (first : Bool) (l : Layout) (depth : Nat) (ms : List (String × Json)) : List Char :=
  if first then (renderMembers l depth ms).tail else renderMembers l depth ms

theorem membersFrom_cons (first : Bool) (name : String) (v : Json) (ms : List (String × Json)) :
    membersFrom first l depth ((name, v) :: ms) ++ s = (if first then [] else [',']) ++ (l.gap depth ++
      '"' :: (name.toList.flatMap escaped ++ '"' :: ':' :: (l.afterColon ++ v.render l depth ++
        (renderMembers l depth ms ++ s)))) := by
  cases first <;> simp [membersFrom, renderMembers, quoted]

theorem render_record (ms : List (String × Json)) :
    (Json.record ms).render l depth = '\x7b' :: (membersFrom true l (depth + 1) ms ++
      ((if ms.isEmpty then [] else l.gap depth) ++ ['\x7d'])) := by
  rcases ms with _ | ⟨⟨k, v⟩, ms⟩
  · simp [render, membersFrom, renderMembers]
  · simp [render, membersFrom, renderMembers]

/-- The members that are written under one description are read under the other, one after the other. The induction is
on the fields that are left: their drafts stand for drafts of the whole record, which hold what was read before. -/
theorem readMembers_given (h : Gives fs gs x y) (distinct : gs.names.Nodup) :
    ∃ ms, fs.writeMembers x = some ms ∧
      ∀ {τ : Type} {ts : Fields τ} (p : Part ts gs) (first : Bool) (l : Layout) (depth : Nat) (b rest : List Char)
        (fuel : Nat), l.Spaced → Blank b → ms.length < fuel →
          ts.readMembers first (p.embed gs.blank) fuel (membersFrom first l depth ms ++ (b ++ '\x7d' :: rest)) =
            .ok (p.embed (gs.filled y), '\x7d' :: rest) := by
  induction h with
  | nil =>
    refine ⟨[], rfl, fun p first l depth b rest fuel hl hb enough => ?_⟩
    obtain ⟨fuel, rfl⟩ := Nat.exists_eq_add_one_of_ne_zero (Nat.ne_of_gt enough)
    have none : membersFrom first l depth [] = [] := by cases first <;> rfl
    rw [none, List.nil_append, readMembers_close hb]
    rfl
  | @cons ρ σ α β fs gs f g x y a value name given later ih =>
    obtain ⟨fresh, distinct⟩ := List.nodup_cons.1 distinct
    obtain ⟨ms, written, read⟩ := ih distinct
    obtain ⟨v, hv, given⟩ := given
    refine ⟨(f.name, v) :: ms, ?_, fun p first l depth b rest fuel hl hb enough => ?_⟩
    · rw [writeMembers, hv, written]
      rfl
    · obtain ⟨fuel, rfl⟩ := Nat.exists_eq_add_one_of_ne_zero (Nat.ne_of_gt (Nat.zero_lt_of_lt enough))
      have ends : Ends (renderMembers l depth ms ++ (b ++ '\x7d' :: rest)) := ends_members ms hb
      have here := given l depth l.afterColon _ hl hl.afterColon ends
      have step := readMembers_member fuel (nextKey_open first (hl.gap depth)) (p.assign_here gs.blank) (by rw [here]; rfl)
      rw [membersFrom_cons, name]
      exact step.trans (read (p.later fresh value) false l depth b rest fuel hl hb (Nat.lt_of_succ_lt_succ enough))

theorem read_given (h : Gives fs gs x y) (distinct : gs.names.Nodup) :
    ∃ ms, fs.writeMembers x = some ms ∧
      ∀ (l : Layout) (depth : Nat) (blanks rest : List Char), l.Spaced → Blank blanks →
        gs.read (blanks ++ (Json.record ms).render l depth ++ rest) = .ok (y, rest) := by
  obtain ⟨ms, written, members⟩ := readMembers_given h distinct
  refine ⟨ms, written, fun l depth blanks rest hl hb => ?_⟩
  have between : Blank (if ms.isEmpty then [] else l.gap depth) := by
    split
    · exact fun c hc => nomatch hc
    · exact hl.gap depth
  rw [render_record, List.append_assoc, List.cons_append, read, skipSpace_blank_cons hb (by decide)]
  have room : ms.length ≤ (membersFrom true l (depth + 1) ms).length + 1 := by
    have written : ms.length ≤ (renderMembers l (depth + 1) ms).length := length_members ms
    simp only [membersFrom, if_true, List.length_tail]
    omega
  have whole := fun fuel => members (Part.whole gs) true l (depth + 1) _ rest fuel hl between
  simp only [List.append_assoc, List.singleton_append]
  rw [show gs.blank = (Part.whole gs).embed gs.blank from rfl, whole _ (by simp; omega)]
  simp only [bind, Except.bind, Part.whole, id, complete_filled, skipSpace_cons (show isSpace '\x7d' = false by decide)]
  rfl

theorem codec_gives {α β : Type} {make : ρ → α} {back : α → ρ} {make' : σ → β} {back' : β → σ} {a : α}
    (h : Gives fs gs (back a) y) (distinct : gs.names.Nodup) :
    (fs.codec make back).Gives (gs.codec make' back') a (make' y) := by
  obtain ⟨ms, written, read⟩ := read_given h distinct
  refine ⟨.record ms, congrArg (Option.map Json.record) written, fun l depth blanks rest hl hb _ => ?_⟩
  change (do
    let (a, rest) ← gs.read (blanks ++ (Json.record ms).render l depth ++ rest)
    return (make' a, rest) : Except Fault (β × List Char)) = _
  rw [read l depth blanks rest hl hb]
  rfl

end Fields

theorem Codec.Gives.read {α β : Type} {c : Codec α} {d : Codec β} {x : α} {y : β} (h : c.Gives d x y) :
    ∃ v, c.write x = some v ∧ ∀ l : Layout, l.Spaced → Json.read d.read (String.ofList (v.render l 0)) = .ok y := by
  obtain ⟨v, written, given⟩ := h
  refine ⟨v, written, fun l hl => ?_⟩
  have whole := given l 0 [] [] hl (fun c hc => nomatch hc) (fun c hc => nomatch hc)
  rw [List.nil_append, List.append_nil] at whole
  rw [Json.read, String.toList_ofList, whole]
  rfl

end Json

end LedgerLoad
