import Mathlib.Data.List.Basic
import Mathlib.Data.List.Induction
import Mathlib.Data.List.TakeDrop
import LedgerLoad.MockLedger.Rest
import LedgerLoad.Proofs.EventChunks
import LedgerLoad.Proofs.JsonRoundTrip
import LedgerLoad.Proofs.Utf8RoundTrip

/-!
What the service writes into an event stream is what a subscriber is handed.

Each tick becomes one item, whatever its texts hold. Comments and frames that tell nothing may stand between the frames of the
ticks, with lines that end in any of the three ways; they make no item and change none.
-/

set_option autoImplicit false

namespace LedgerLoad

namespace EventStream

open MockLedger (Tick Transaction)

variable {s t rest line : List Char} {lines : List (List Char)} {c : Char} {d : Draft}

instance (s : List Char) : Decidable (Plain s) := List.decidableBAll _ s

/-! ### Lines that are taken up -/

inductive Ending where
  | lf
  | crlf
  | cr
deriving DecidableEq, Repr

def Ending.text : Ending → List Char
  | .lf => ['\n']
  | .crlf => ['\r', '\n']
  | .cr => ['\r']

def readFrom (d : Draft) (text : List Char) : List Item :=
  (d.addAll ((splitLines [] text).1.map Line.ofChars)).2.filterMap Frame.item?

def Opens (rest : List Char) : Prop := ∃ c more, rest = c :: more ∧ c ≠ '\n'

theorem splitLines_line (hs : Plain s) (e : Ending) (ho : e = .cr → Opens rest) :
    splitLines [] (s ++ (e.text ++ rest)) = (s :: (splitLines [] rest).1, (splitLines [] rest).2) := by
  rw [splitLines_plain hs, List.append_nil]
  cases e with
  | lf => simp [Ending.text, splitLines_lf]
  | crlf => simp [Ending.text, splitLines_crlf]
  | cr =>
    obtain ⟨c, more, rfl, hc⟩ := ho rfl
    simp [Ending.text, splitLines_cr hc]

theorem readFrom_line (hs : Plain s) (e : Ending) (ho : e = .cr → Opens rest) :
    readFrom d (s ++ (e.text ++ rest)) =
      ((d.add (Line.ofChars s)).2.bind Frame.item?).toList ++ readFrom (d.add (Line.ofChars s)).1 rest := by
  rw [readFrom, splitLines_line hs e ho]
  cases frame : (d.add (Line.ofChars s)).2 with
  | none => simp [Draft.addAll, frame, readFrom]
  | some f => cases item : f.item? <;> simp [Draft.addAll, frame, readFrom, item]

theorem readFrom_blank (e : Ending) (ho : e = .cr → Opens rest) :
    readFrom d (e.text ++ rest) = (d.dispatch.bind Frame.item?).toList ++ readFrom {} rest :=
  readFrom_line plain_nil e ho

theorem readFrom_append (d : Draft) (s t : List Char) : readFrom d s <+: readFrom d (s ++ t) := by
  rw [readFrom, readFrom, splitLines_append plain_nil, List.map_append, Draft.addAll_append, List.filterMap_append]
  exact List.prefix_append _ _

/-! ### Fields -/

def fieldName (line : List Char) : List Char := line.takeWhile (· != ':')

def fieldValue (line : List Char) : List Char :=
  match (line.dropWhile (· != ':')).drop 1 with
  | ' ' :: value => value
  | value => value

/-- The event that some lines name: the last of them that names one counts. -/
def eventOf (lines : List (List Char)) : List Char :=
  (((lines.filter fun line => fieldName line = "event".toList).getLast?).map fieldValue).getD []

def Draft.note (d : Draft) (line : List Char) : Draft :=
  if fieldName line = "event".toList then { d with event := fieldValue line }
  else if fieldName line = "data".toList then { d with data := d.data ++ [fieldValue line] }
  else d

theorem ofChars_field (h : line ≠ []) (colon : line.head? ≠ some ':') :
    Line.ofChars line = .field (fieldName line) (fieldValue line) := by
  rcases line with _ | ⟨c, cs⟩
  · exact absurd rfl h
  · have hc : c ≠ ':' := by rintro rfl; exact colon rfl
    rw [Line.ofChars, fieldName, fieldValue, List.span_eq_takeWhile_dropWhile]
    · rcases (c :: cs).dropWhile (· != ':') with _ | ⟨x, _ | ⟨y, rest⟩⟩
      · rfl
      · rfl
      · by_cases blank : y = ' '
        · subst blank
          rfl
        · simp [blank]
    · exact h
    · rintro cs ⟨⟩
      exact hc rfl

theorem add_line (h : line ≠ []) : d.add (Line.ofChars line) = (d.note line, none) := by
  by_cases colon : line.head? = some ':'
  · obtain ⟨cs, rfl⟩ := List.head?_eq_some_iff.1 colon
    simp [Line.ofChars, Draft.add, Draft.note, fieldName]
  · rw [ofChars_field h colon, Draft.add, Draft.note]
    split_ifs <;> rfl

theorem readFrom_lines (hl : ∀ line ∈ lines, line ≠ [] ∧ Plain line) (e : Ending) (ho : e = .cr → Opens rest) :
    readFrom d (lines.flatMap (· ++ e.text) ++ rest) = readFrom (lines.foldl Draft.note d) rest := by
  induction lines generalizing d with
  | nil => rfl
  | cons line lines ih =>
    obtain ⟨full, plain⟩ := hl line List.mem_cons_self
    have hl' : ∀ line ∈ lines, line ≠ [] ∧ Plain line := fun line h => hl line (List.mem_cons_of_mem _ h)
    have next : e = .cr → Opens (lines.flatMap (· ++ e.text) ++ rest) := by
      intro he
      rcases lines with _ | ⟨line, lines⟩
      · exact ho he
      · obtain ⟨full, plain⟩ := hl' line List.mem_cons_self
        obtain ⟨c, more, rfl⟩ := List.exists_cons_of_ne_nil full
        exact ⟨c, _, rfl, (plain c List.mem_cons_self).1⟩
    rw [List.flatMap_cons, List.append_assoc, List.append_assoc, readFrom_line plain e next, add_line full, ih hl']
    rfl

theorem event_note (lines : List (List Char)) : (lines.foldl Draft.note {}).event = eventOf lines := by
  induction lines using List.reverseRecOn with
  | nil => rfl
  | append_singleton lines line ih =>
    rw [List.foldl_concat, Draft.note, eventOf, List.filter_append, List.filter_singleton]
    by_cases event : fieldName line = "event".toList
    · rw [if_pos event, decide_eq_true event, cond_true, List.getLast?_concat]
      rfl
    · rw [if_neg event, decide_eq_false event, cond_false, List.append_nil]
      split
      · exact ih
      · exact ih

theorem data_note (h : ∀ line ∈ lines, fieldName line ≠ "data".toList) : (lines.foldl Draft.note d).data = d.data := by
  induction lines generalizing d with
  | nil => rfl
  | cons line lines ih =>
    have other : (d.note line).data = d.data := by
      rw [Draft.note, if_neg (h line List.mem_cons_self)]
      split_ifs <;> rfl
    rw [List.foldl_cons, ih fun line hl => h line (List.mem_cons_of_mem _ hl), other]

/-! ### Frames that tell nothing -/

/-- A frame without data, or of an event that a subscriber to transactions does not know. -/
structure SilentFrame where
  lines : List (List Char)
  some : lines ≠ []
  whole : ∀ line ∈ lines, line ≠ [] ∧ Plain line
  silent : (∀ line ∈ lines, fieldName line ≠ "data".toList) ∨
    eventOf lines ∉ [[], defaultEvent, "transaction".toList, "error".toList]

theorem item?_of_unknown {f : Frame} (error : f.event ≠ "error".toList) (transaction : f.event ≠ "transaction".toList)
    (other : f.event ≠ defaultEvent) : f.item? = none := by
  rw [Frame.item?, if_neg error, if_neg (not_or.2 ⟨transaction, other⟩)]

theorem SilentFrame.dispatch (f : SilentFrame) : (f.lines.foldl Draft.note {}).dispatch.bind Frame.item? = none := by
  rcases f.silent with empty | unknown
  · rw [Draft.dispatch, data_note empty]
    rfl
  · simp only [List.mem_cons, List.not_mem_nil, or_false, not_or] at unknown
    obtain ⟨named, other, transaction, error⟩ := unknown
    rw [← event_note] at named other transaction error
    rw [Option.bind_eq_none_iff]
    intro frame hf
    rw [Draft.dispatch] at hf
    split at hf
    · cases hf
    · cases hf
      rw [if_neg (by simpa using named)]
      exact item?_of_unknown error transaction other

theorem SilentFrame.read (f : SilentFrame) (e : Ending) (ho : e = .cr → Opens rest) :
    readFrom {} (f.lines.flatMap (· ++ e.text) ++ e.text ++ rest) = readFrom {} rest := by
  have next : e = .cr → Opens (e.text ++ rest) := by
    rintro rfl
    exact ⟨'\r', rest, rfl, by decide⟩
  rw [List.append_assoc, readFrom_lines f.whole e next, readFrom_blank e ho, f.dispatch]
  rfl

/-! ### Frames that are written -/

theorem Plain.append (hs : Plain s) (ht : Plain t) : Plain (s ++ t) := by
  intro c hc
  rcases List.mem_append.1 hc with hc | hc
  · exact hs c hc
  · exact ht c hc

theorem write_plain (event : List Char) (hd : Plain s) : Frame.write ⟨event, s⟩ =
    ["event: ".toList ++ event, "data: ".toList ++ s].flatMap (· ++ Ending.lf.text) ++ Ending.lf.text := by
  have single : Text.splitOn (· == '\n') s = [s] := Text.splitOn_of_none fun c hc => by simpa using (hd c hc).1
  simp [Frame.write, writeField, single, Ending.text]

theorem read_write {event : List Char} (he : Plain event) (named : event ≠ []) (hd : Plain s) :
    readFrom {} (Frame.write ⟨event, s⟩ ++ rest) = (Frame.item? ⟨event, s⟩).toList ++ readFrom {} rest := by
  have whole : ∀ line ∈ ["event: ".toList ++ event, "data: ".toList ++ s], line ≠ [] ∧ Plain line := by
    have first : Plain "event: ".toList := by decide
    have second : Plain "data: ".toList := by decide
    simp only [List.mem_cons, List.not_mem_nil, or_false]
    rintro line (rfl | rfl)
    · exact ⟨List.cons_ne_nil _ _, first.append he⟩
    · exact ⟨List.cons_ne_nil _ _, second.append hd⟩
  have draft : (["event: ".toList ++ event, "data: ".toList ++ s]).foldl Draft.note {} = ⟨event, [s]⟩ := rfl
  have bare : ∀ {rest}, Ending.lf = .cr → Opens rest := fun h => nomatch h
  rw [write_plain event hd, List.append_assoc, readFrom_lines whole .lf bare, readFrom_blank .lf bare, draft]
  simp [Draft.dispatch, named]

/-! ### Ticks -/

theorem plain_escaped (c : Char) : Plain (Json.escaped c) := by
  have digit : ∀ k < 16, Nat.digitChar k ≠ '\n' ∧ Nat.digitChar k ≠ '\r' := by decide
  have hex : ∀ n, Text.hexDigit n ≠ '\n' ∧ Text.hexDigit n ≠ '\r' := fun n => digit (n % 16) (Nat.mod_lt n (by decide))
  unfold Json.escaped
  split_ifs <;> simp [Plain, *]

theorem plain_quoted (s : List Char) : Plain (Json.quoted s) := by
  intro c hc
  simp only [Json.quoted, List.mem_cons, List.mem_append, List.mem_flatMap, List.not_mem_nil, or_false] at hc
  rcases hc with (rfl | ⟨x, -, hc⟩) | rfl
  · decide
  · exact plain_escaped x c hc
  · decide

theorem plain_intText (n : Int) : Plain (Json.intText n) := by
  have digits : Plain (Text.decimal n.natAbs) := by
    intro c hc
    have digit := Text.isDigit_of_mem_decimal hc
    constructor <;> rintro rfl <;> cases digit
  unfold Json.intText
  split
  · exact Plain.append (s := ['-']) (by decide) digits
  · exact digits

theorem plain_members {ms : List (String × Json)} {depth : Nat}
    (h : ∀ m ∈ ms, Plain (m.2.render Json.compactLayout depth)) :
    Plain (Json.renderMembers Json.compactLayout depth ms) := by
  induction ms with
  | nil => exact fun _ hc => nomatch hc
  | cons m ms ih =>
    obtain ⟨name, v⟩ := m
    have value : Plain (v.render Json.compactLayout depth) := h (name, v) List.mem_cons_self
    have later := ih fun m hm => h m (List.mem_cons_of_mem _ hm)
    have comma : Plain [','] := by decide
    have colon : Plain [':'] := by decide
    have parts := comma.append ((plain_quoted name.toList).append (colon.append (value.append later)))
    simpa [Json.renderMembers, Json.compactLayout] using parts

theorem plain_record {ms : List (String × Json)} {depth : Nat}
    (h : ∀ m ∈ ms, Plain (m.2.render Json.compactLayout (depth + 1))) :
    Plain ((Json.record ms).render Json.compactLayout depth) := by
  have members := plain_members h
  rw [Json.Fields.render_record]
  intro c hc
  simp only [Json.Fields.membersFrom, Json.compactLayout, if_true, ite_self, List.nil_append, List.mem_cons, List.mem_append,
    List.not_mem_nil, or_false] at hc
  rcases hc with rfl | hc | rfl
  · decide
  · exact members c (List.mem_of_mem_tail hc)
  · decide

def eventOfTransaction (t : Transaction) : TransactionEvent where
  txId := t.txId
  sender := t.sender
  receiver := t.receiver
  amount := t.amount
  kind := t.kind
  timestamp := t.timestamp

def Amount (n : Int) : Prop := -0x8000000000000000 ≤ n ∧ n < 0x8000000000000000

instance (n : Int) : Decidable (Amount n) :=
  inferInstanceAs (Decidable (-0x8000000000000000 ≤ n ∧ n < 0x8000000000000000))

theorem codec_gives {t : Transaction} (h : Amount t.amount) :
    Transaction.codec.Gives TransactionEvent.codec t (eventOfTransaction t) := by
  have text := Json.Codec.gives_text
  refine Json.Fields.codec_gives (y := (t.txId, t.sender, t.receiver, t.amount, t.kind, t.timestamp, ())) ?_ (by decide)
  exact .cons rfl (text _) <| .cons rfl (text _) <| .cons rfl (text _) <| .cons rfl (Json.Codec.gives_int h.1 h.2) <|
    .cons rfl (text _) <| .cons rfl (text _) .nil

theorem write_transaction (t : Transaction) :
    ∃ v, Transaction.codec.write t = some v ∧ v.compact.toList ≠ [] ∧ Plain v.compact.toList := by
  refine ⟨_, rfl, ?_⟩
  rw [Json.compact, String.toList_ofList]
  refine ⟨List.cons_ne_nil _ _, plain_record fun m hm => ?_⟩
  simp only [List.mem_cons, List.not_mem_nil, or_false] at hm
  have text := plain_quoted
  rcases hm with rfl | rfl | rfl | rfl | rfl | rfl
  · exact text _
  · exact text _
  · exact text _
  · exact plain_intText _
  · exact text _
  · exact text _

def heard : Tick → Item
  | .transaction t => .ok (eventOfTransaction t)
  | .failure => .error (.stream MockLedger.feedLost)

theorem item?_of_transaction {f : Frame} (h : f.event = "transaction".toList) (full : f.data ≠ []) :
    f.item? = some (match Json.read TransactionEvent.codec.read (String.ofList f.data) with
      | .ok e => .ok e
      | .error fault => .error (.decode fault)) := by
  have other : f.event ≠ "error".toList := by rw [h]; decide
  have filled : f.data.isEmpty = false := by simpa using full
  rw [Frame.item?, if_neg other, if_pos (.inl h), filled]
  rfl

/-- The frame of a tick, whatever follows it, is read as one item. -/
theorem read_frame {t : Tick} (h : ∀ x, t = .transaction x → Amount x.amount) :
    readFrom {} ((MockLedger.Rest.frame t).write ++ rest) = heard t :: readFrom {} rest := by
  cases t with
  | transaction t =>
    obtain ⟨v, written, full, plain⟩ := write_transaction t
    obtain ⟨w, written', read⟩ := (codec_gives (h t rfl)).read
    obtain rfl : v = w := Option.some.inj (written.symm.trans written')
    have frame : MockLedger.Rest.frame (.transaction t) = ⟨"transaction".toList, v.compact.toList⟩ := by
      simp only [MockLedger.Rest.frame, written]
    have item : Frame.item? ⟨"transaction".toList, v.compact.toList⟩ = some (heard (.transaction t)) := by
      have whole : Json.read TransactionEvent.codec.read v.compact = .ok (eventOfTransaction t) :=
        read Json.compactLayout Json.spaced_compactLayout
      rw [item?_of_transaction rfl full, String.ofList_toList, whole]
      rfl
    have plainly : Plain "transaction".toList := by decide
    rw [frame, read_write plainly (by decide) plain, item]
    rfl
  | failure =>
    have plainly : Plain "error".toList := by decide
    have words : Plain MockLedger.feedLost.toList := by decide
    have frame : MockLedger.Rest.frame .failure = ⟨"error".toList, MockLedger.feedLost.toList⟩ := rfl
    have item : Frame.item? ⟨"error".toList, MockLedger.feedLost.toList⟩ = some (heard .failure) := by
      rw [Frame.item?, if_pos rfl, String.ofList_toList]
      rfl
    rw [frame, read_write plainly (by decide) words, item]
    rfl

/-! ### Bodies -/

/-- What a body is made of: the frames of ticks, comments, after which the frame may be ended, and silent frames. -/
inductive Entry where
  | tick (t : Tick)
  | comment (text : List Char) (plain : Plain text) (ended : Bool) (e : Ending)
  | silent (f : SilentFrame) (e : Ending)

def Entry.text : Entry → List Char
  | .tick t => (MockLedger.Rest.frame t).write
  | .comment text _ ended e => ':' :: text ++ e.text ++ if ended then e.text else []
  | .silent f e => f.lines.flatMap (· ++ e.text) ++ e.text

def Entry.tick? : Entry → Option Tick
  | .tick t => some t
  | _ => none

theorem Entry.opens (x : Entry) (s : List Char) : Opens (x.text ++ s) := by
  cases x with
  | tick t => exact ⟨'e', _, rfl, by decide⟩
  | comment text plain ended e => exact ⟨':', _, rfl, by decide⟩
  | silent f e =>
    obtain ⟨lines, some, whole, silent⟩ := f
    obtain ⟨line, lines, rfl⟩ := List.exists_cons_of_ne_nil some
    obtain ⟨full, plain⟩ := whole line List.mem_cons_self
    obtain ⟨c, more, rfl⟩ := List.exists_cons_of_ne_nil full
    exact ⟨c, _, rfl, (plain c List.mem_cons_self).1⟩

theorem Entry.read_idle {x : Entry} (h : x.tick? = none) (ho : Opens rest) :
    readFrom {} (x.text ++ rest) = readFrom {} rest := by
  cases x with
  | tick t => cases h
  | silent f e => exact f.read e fun _ => ho
  | comment text plain ended e =>
    have line : Plain (':' :: text) := Plain.append (s := [':']) (by decide) plain
    have comment : ∀ {rest}, (e = .cr → Opens rest) →
        readFrom {} (':' :: text ++ (e.text ++ rest)) = readFrom {} rest := by
      intro rest ho
      rw [readFrom_line line e ho]
      rfl
    cases ended with
    | false =>
      simp only [Entry.text, Bool.false_eq_true, if_false, List.append_nil, List.append_assoc]
      exact comment fun _ => ho
    | true =>
      have next : e = .cr → Opens (e.text ++ rest) := by
        rintro rfl
        exact ⟨'\r', rest, rfl, by decide⟩
      simp only [Entry.text, if_true, List.append_assoc]
      rw [comment next]
      exact readFrom_blank e fun _ => ho

theorem Entry.read_last {x : Entry} (h : x.tick? = none) : readFrom {} x.text = [] := by
  have more := readFrom_append {} x.text ['.']
  rw [Entry.read_idle h ⟨'.', [], rfl, by decide⟩] at more
  exact List.prefix_nil.1 more

variable {entries : List Entry} {chunks : List (List UInt8)}

theorem read_entries (h : ∀ x, .tick (.transaction x) ∈ entries → Amount x.amount) :
    readFrom {} (entries.flatMap Entry.text) = (entries.filterMap Entry.tick?).map heard := by
  induction entries with
  | nil => rfl
  | cons x entries ih =>
    have later := ih fun x hx => h x (List.mem_cons_of_mem _ hx)
    rw [List.flatMap_cons]
    cases tick : x.tick? with
    | some t =>
      obtain rfl : x = .tick t := by
        cases x <;> cases tick
        rfl
      have amount : ∀ x, t = .transaction x → Amount x.amount := by
        rintro x rfl
        exact h x List.mem_cons_self
      rw [Entry.text, read_frame amount, later]
      rfl
    | none =>
      rw [List.filterMap_cons_none tick, ← later]
      cases entries with
      | nil => rw [List.flatMap_nil, List.append_nil, x.read_last tick]; rfl
      | cons y entries => exact x.read_idle tick (y.opens _)

theorem items_of_text {text : List Char} (body : chunks.flatten = Text.Utf8.encode text)
    (unmarked : text.head? ≠ some Decoder.byteOrderMark) : items chunks none = some (readFrom {} text) := by
  rw [items_eq, body, Text.Utf8.decodeFront_encode, if_neg unmarked]
  exact congrArg some (List.append_nil _)

/-- A subscriber is handed one item for each tick, in order: the transaction with its six fields as they were, or the loss of
the feed; whatever the texts hold, however the body is cut into chunks, and whatever comments and silent frames stand in it.
Only a silent frame that comes before all else can begin the body with a byte order mark, which is no part of a stream. -/
theorem items_of_entries (amounts : ∀ x, .tick (.transaction x) ∈ entries → Amount x.amount)
    (unmarked : (entries.flatMap Entry.text).head? ≠ some Decoder.byteOrderMark)
    (body : chunks.flatten = Text.Utf8.encode (entries.flatMap Entry.text)) :
    items chunks none = some ((entries.filterMap Entry.tick?).map heard) := by
  rw [items_of_text body unmarked, read_entries amounts]

def mixedEntries : List Entry := [
  .comment [] (fun _ h => nomatch h) true .lf,
  .tick (.transaction ⟨"tx-\"0\"", "\r\ndata: x", "\uFEFFé\\", -3, "\x00", ""⟩),
  .silent ⟨["event: ping".toList, "data: 1".toList], List.cons_ne_nil _ _, by decide, .inr (by decide)⟩ .crlf,
  .tick .failure,
  .silent ⟨["id: 7".toList], List.cons_ne_nil _ _, by decide, .inl (by decide)⟩ .cr]

theorem items_of_mixed_entries :
    items ((Text.Utf8.encode (mixedEntries.flatMap Entry.text)).map fun b => [b]) none =
      some [.ok ⟨"tx-\"0\"", "\r\ndata: x", "\uFEFFé\\", -3, "\x00", ""⟩, .error (.stream "upstream feed lost")] := by
  have amounts : ∀ x, .tick (.transaction x) ∈ mixedEntries → Amount x.amount := by
    intro x hx
    simp only [mixedEntries, List.mem_cons, Entry.tick.injEq, MockLedger.Tick.transaction.injEq, reduceCtorEq,
      List.not_mem_nil, or_false, false_or] at hx
    subst hx
    decide
  have unmarked : (mixedEntries.flatMap Entry.text).head? ≠ some Decoder.byteOrderMark := by decide
  have body : ((Text.Utf8.encode (mixedEntries.flatMap Entry.text)).map fun b => [b]).flatten =
      Text.Utf8.encode (mixedEntries.flatMap Entry.text) := List.flatMap_singleton' _
  exact items_of_entries amounts unmarked body

end EventStream

end LedgerLoad
