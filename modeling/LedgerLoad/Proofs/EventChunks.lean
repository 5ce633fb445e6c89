import Mathlib.Data.List.Basic
import LedgerLoad.EventStream.Decoder

/-!
Events do not depend on how the body of their stream is cut into chunks.

Each layer of the decoder, characters from bytes, lines from characters and frames from lines, reads as far as it can and
holds back the rest. To go on from there with more input is the same as to have had all of it at once.
-/

set_option autoImplicit false

namespace LedgerLoad

namespace Text.Utf8

variable {b : UInt8} {rest more bytes : List UInt8} {c : Char} {n : Nat}

/-- Bytes that come later change nothing about the front, unless it is cut short. -/
theorem front_append (h : front b rest ≠ .incomplete) : front b (rest ++ more) = front b rest := by
  unfold front at h ⊢
  rcases rest with _ | ⟨x, _ | ⟨y, _ | ⟨z, rest⟩⟩⟩
  · grind
  · grind
  · grind
  · rfl

theorem le_length_of_front (h : front b rest = .char c n) : n ≤ rest.length := by
  unfold front at h
  grind

theorem decodeFront_char (h : front b rest = .char c n) :
    decodeFront (b :: rest) = (c :: (decodeFront (rest.drop n)).1, (decodeFront (rest.drop n)).2) := by
  rw [decodeFront, h]

theorem decodeFront_stuck (h : ∀ c n, front b rest ≠ .char c n) : decodeFront (b :: rest) = ([], b :: rest) := by
  rw [decodeFront]
  split
  · rename_i c n hc
    exact (h c n hc).elim
  · rfl

/-- To decode more bytes is to decode them behind those that were held back. The induction is on the number of bytes,
because a character takes away several at once. -/
theorem decodeFront_append (bytes more : List UInt8) :
    decodeFront (bytes ++ more) =
      ((decodeFront bytes).1 ++ (decodeFront ((decodeFront bytes).2 ++ more)).1,
        (decodeFront ((decodeFront bytes).2 ++ more)).2) := by
  induction h : bytes.length using Nat.strongRecOn generalizing bytes with
  | ind n ih =>
    cases bytes with
    | nil => simp [decodeFront]
    | cons b rest =>
      cases hf : front b rest with
      | char c k =>
        have inside : k ≤ rest.length := le_length_of_front hf
        have whole : front b (rest ++ more) = .char c k := by rw [front_append (by simp [hf]), hf]
        have later := ih (rest.drop k).length (by rw [← h, List.length_drop, List.length_cons]; omega) (rest.drop k) rfl
        rw [List.cons_append, decodeFront_char whole, decodeFront_char hf, List.drop_append_of_le_length inside, later]
        rfl
      | _ =>
        have stuck : decodeFront (b :: rest) = ([], b :: rest) := decodeFront_stuck (by simp [hf])
        rw [stuck]
        rfl

theorem decodeFront_held (bytes : List UInt8) :
    decodeFront (decodeFront bytes).2 = ([], (decodeFront bytes).2) := by
  have again := decodeFront_append bytes []
  simp only [List.append_nil] at again
  have text := congrArg Prod.fst again
  have held := congrArg Prod.snd again
  exact Prod.ext (List.append_right_eq_self.1 text.symm) held.symm

end Text.Utf8

namespace EventStream

/-! ### Lines -/

def Plain (s : List Char) : Prop := ∀ c ∈ s, c ≠ '\n' ∧ c ≠ '\r'

theorem plain_nil : Plain [] := fun _ h => nomatch h

variable {s t start : List Char} {c : Char}

theorem splitLines_char (hn : c ≠ '\n') (hr : c ≠ '\r') : splitLines start (c :: t) = splitLines (c :: start) t := by
  rw [splitLines]
  · exact hn
  · exact fun e _ => hr e
  · exact fun _ e _ => hr e
  · exact fun _ _ e _ => hr e

theorem splitLines_lf : splitLines start ('\n' :: t) = (start.reverse :: (splitLines [] t).1, (splitLines [] t).2) := rfl

theorem splitLines_crlf :
    splitLines start ('\r' :: '\n' :: t) = (start.reverse :: (splitLines [] t).1, (splitLines [] t).2) := rfl

theorem splitLines_cr (hc : c ≠ '\n') :
    splitLines start ('\r' :: c :: t) = (start.reverse :: (splitLines [] (c :: t)).1, (splitLines [] (c :: t)).2) := by
  rw [splitLines]
  exact hc

theorem splitLines_plain (h : Plain s) : splitLines start (s ++ t) = splitLines (s.reverse ++ start) t := by
  induction s generalizing start with
  | nil => rfl
  | cons c s ih =>
    obtain ⟨hn, hr⟩ := h c List.mem_cons_self
    rw [List.cons_append, splitLines_char hn hr, ih fun c hc => h c (List.mem_cons_of_mem _ hc)]
    simp

theorem Plain.reverse (h : Plain s) : Plain s.reverse := fun c hc => h c (List.mem_reverse.1 hc)

/-- To split more text into lines is to split it behind the line that was not ended. -/
theorem splitLines_append (h : Plain start) : splitLines start (s ++ t) =
    ((splitLines start s).1 ++ (splitLines [] ((splitLines start s).2 ++ t)).1,
      (splitLines [] ((splitLines start s).2 ++ t)).2) := by
  fun_induction splitLines start s with
  | case1 start =>
    rw [List.nil_append, splitLines_plain h.reverse]
    simp
  | case2 start r lines rest e ih =>
    rw [List.cons_append, splitLines_lf, ih plain_nil, e]
    rfl
  | case3 start =>
    rw [List.append_assoc, splitLines_plain h.reverse]
    simp
  | case4 start r lines rest e ih =>
    rw [List.cons_append, List.cons_append, splitLines_crlf, ih plain_nil, e]
    rfl
  | case5 start c r hc lines rest e ih =>
    rw [List.cons_append, List.cons_append, splitLines_cr (fun e => hc e), ← List.cons_append, ih plain_nil, e]
    rfl
  | case6 start c r hn hend hcrlf hcr ih =>
    have hr : c ≠ '\r' := by
      rintro rfl
      rcases r with _ | ⟨x, r⟩
      · exact hend rfl rfl
      · exact hcr x r rfl rfl
    have longer : Plain (c :: start) := by
      intro x hx
      rcases List.mem_cons.1 hx with rfl | hx
      · exact ⟨hn, hr⟩
      · exact h x hx
    rw [List.cons_append, splitLines_char hn hr, ih longer]

/-! ### Frames -/

theorem Draft.addAll_append (d : Draft) (ls ms : List Line) :
    d.addAll (ls ++ ms) =
      (((d.addAll ls).1.addAll ms).1, (d.addAll ls).2 ++ ((d.addAll ls).1.addAll ms).2) := by
  induction ls generalizing d with
  | nil => rfl
  | cons l ls ih => simp [addAll, ih]

/-! ### The decoder -/

namespace Decoder

variable {d : Decoder} {bytes more : List UInt8} {chunks chunks' : List (List UInt8)}

theorem take_append (d : Decoder) (text more : List Char) :
    d.take (text ++ more) = (((d.take text).1.take more).1, (d.take text).2 ++ ((d.take text).1.take more).2) := by
  simp only [take]
  rw [← List.append_assoc, splitLines_append plain_nil]
  simp [Draft.addAll_append]

theorem started_take (d : Decoder) (text : List Char) : (d.take text).1.started = true := rfl

theorem take_held (d : Decoder) (held : List UInt8) (text : List Char) :
    ({ d with held := held } : Decoder).take text = ({ (d.take text).1 with held := held }, (d.take text).2) := rfl

def hear (d : Decoder) (text : List Char) : Option (Decoder × List Item) :=
  match text with
  | [] => some (d, [])
  | c :: _ => if !d.started && c == byteOrderMark then none else some (d.take text)

theorem hear_of_started {text : List Char} (hd : d.started = true) (ht : text ≠ []) : d.hear text = some (d.take text) := by
  cases text with
  | nil => exact (ht rfl).elim
  | cons c text => simp [hear, hd]

theorem hear_held (d : Decoder) (held : List UInt8) (text : List Char) :
    ({ d with held := held } : Decoder).hear text = (d.hear text).map fun r => ({ r.1 with held := held }, r.2) := by
  cases text with
  | nil => rfl
  | cons c text =>
    simp only [hear, take_held]
    split <;> rfl

theorem feed_eq (d : Decoder) (bytes : List UInt8) :
    d.feed bytes = (d.hear (Text.Utf8.decodeFront (d.held ++ bytes)).1).map fun r =>
      ({ r.1 with held := (Text.Utf8.decodeFront (d.held ++ bytes)).2 }, r.2) :=
  hear_held d (Text.Utf8.decodeFront (d.held ++ bytes)).2 (Text.Utf8.decodeFront (d.held ++ bytes)).1

theorem hear_append (d : Decoder) (text more : List Char) :
    d.hear (text ++ more) = (d.hear text).bind fun r => (r.1.hear more).map fun q => (q.1, r.2 ++ q.2) := by
  cases text with
  | nil => simp [hear]
  | cons c text =>
    by_cases mark : (!d.started && c == byteOrderMark) = true
    · simp [hear, mark]
    · have first : d.hear (c :: text) = some (d.take (c :: text)) := by simp [hear, mark]
      have whole : d.hear (c :: text ++ more) = some (d.take (c :: text ++ more)) := by simp [hear, mark]
      rw [first, whole, Option.bind_some]
      cases more with
      | nil => simp [hear]
      | cons e more =>
        rw [hear_of_started (started_take d _) (List.cons_ne_nil e more), take_append]
        rfl

/-- To feed more bytes is to feed them to the decoder that has taken up those before. -/
theorem feed_append (d : Decoder) (bytes more : List UInt8) :
    d.feed (bytes ++ more) = (d.feed bytes).bind fun r => (r.1.feed more).map fun q => (q.1, r.2 ++ q.2) := by
  rw [feed_eq, feed_eq, ← List.append_assoc, Text.Utf8.decodeFront_append, hear_append]
  cases d.hear (Text.Utf8.decodeFront (d.held ++ bytes)).1 with
  | none => rfl
  | some r =>
    simp only [Option.bind_some, Option.map_some, feed_eq, Option.map_map]
    rw [hear_held r.1 (Text.Utf8.decodeFront (d.held ++ bytes)).2, Option.map_map]
    rfl

/-- Nothing that is held back makes up a character. -/
def Tight (d : Decoder) : Prop := Text.Utf8.decodeFront d.held = ([], d.held)

theorem tight_feed {r : Decoder × List Item} (h : d.feed bytes = some r) : r.1.Tight := by
  rw [feed_eq] at h
  obtain ⟨q, _, rfl⟩ := Option.map_eq_some_iff.1 h
  exact Text.Utf8.decodeFront_held (d.held ++ bytes)

theorem Tight.feed_nil (h : d.Tight) : d.feed [] = some (d, []) := by
  rw [feed_eq, List.append_nil, h]
  rfl

theorem feedAll_cons (d : Decoder) (chunk : List UInt8) (chunks : List (List UInt8)) :
    d.feedAll (chunk :: chunks) =
      (d.feed chunk).bind fun r => (r.1.feedAll chunks).map fun q => (q.1, r.2 ++ q.2) := by
  rw [feedAll]
  cases d.feed chunk with
  | none => rfl
  | some r =>
    cases h : r.1.feedAll chunks <;> simp [h]

theorem Tight.feedAll (h : d.Tight) : d.feedAll chunks = d.feed chunks.flatten := by
  induction chunks generalizing d with
  | nil => exact h.feed_nil.symm
  | cons chunk chunks ih =>
    rw [List.flatten_cons, feed_append, feedAll_cons]
    refine Option.bind_congr fun r hr => ?_
    rw [ih (tight_feed hr)]

theorem tight_fresh : Tight {} := by simp [Tight, Text.Utf8.decodeFront]

/-! ### Panics -/

theorem feed_of_started (bytes : List UInt8) (h : d.started = true) : ∃ r, d.feed bytes = some r ∧ r.1.started = true := by
  rw [feed_eq]
  cases ht : (Text.Utf8.decodeFront (d.held ++ bytes)).1 with
  | nil => exact ⟨_, rfl, h⟩
  | cons c text =>
    rw [hear_of_started h (List.cons_ne_nil c text)]
    exact ⟨_, rfl, started_take d (c :: text)⟩

theorem feedAll_of_started (chunks : List (List UInt8)) (h : d.started = true) : ∃ r, d.feedAll chunks = some r := by
  induction chunks generalizing d with
  | nil => exact ⟨_, rfl⟩
  | cons chunk chunks ih =>
    obtain ⟨r, hr, hs⟩ := feed_of_started chunk h
    obtain ⟨q, hq⟩ := ih hs
    exact ⟨_, by rw [feedAll_cons, hr, Option.bind_some, hq]; rfl⟩

theorem items_of_unstarted {r : Decoder × List Item} (h : d.feed bytes = some r) (hs : r.1.started = false) :
    r.2 = [] := by
  rw [feed_eq] at h
  cases ht : (Text.Utf8.decodeFront (d.held ++ bytes)).1 with
  | nil =>
    rw [ht] at h
    cases h
    rfl
  | cons c text =>
    simp only [ht, hear] at h
    split at h
    · cases h
    · cases h
      cases hs

/-- What a body in chunks comes to, as far as it is read: the items that are handed over one after the other, and then the
decoder, unless it panicked after them. -/
def handed (d : Decoder) : List (List UInt8) → List Item × Option Decoder
  | [] => ([], some d)
  | chunk :: chunks =>
    match d.feed chunk with
    | none => ([], none)
    | some (d, items) => (items ++ (d.handed chunks).1, (d.handed chunks).2)

theorem handed_eq (d : Decoder) (chunks : List (List UInt8)) :
    d.handed chunks = (((d.feedAll chunks).map Prod.snd).getD [], (d.feedAll chunks).map Prod.fst) := by
  induction chunks generalizing d with
  | nil => rfl
  | cons chunk chunks ih =>
    rw [handed, feedAll_cons]
    cases hd : d.feed chunk with
    | none => rfl
    | some r =>
      simp only [Option.bind_some, ih]
      cases hr : r.1.feedAll chunks with
      | some q => rfl
      | none =>
        have unstarted : r.1.started = false := by
          by_contra hs
          obtain ⟨q, hq⟩ := feedAll_of_started chunks (by simpa using hs)
          rw [hr] at hq
          cases hq
        simp [items_of_unstarted hd unstarted]

end Decoder

/-! ### Bodies -/

variable {chunks chunks' : List (List UInt8)}

def itemsOfText (text : List Char) : List Item :=
  (({} : Draft).addAll ((splitLines [] text).1.map Line.ofChars)).2.filterMap Frame.item?

/-- The items of a body: those of its text as far as it is well formed, then what is wrong with the bytes from there on.
A byte order mark at its beginning is a panic. -/
theorem items_eq (chunks : List (List UInt8)) :
    items chunks none =
      if (Text.Utf8.decodeFront chunks.flatten).1.head? = some Decoder.byteOrderMark then none
      else some (itemsOfText (Text.Utf8.decodeFront chunks.flatten).1 ++
        ({ held := (Text.Utf8.decodeFront chunks.flatten).2 } : Decoder).finish) := by
  have all : items chunks none = (Decoder.feed {} chunks.flatten).map fun r => r.2 ++ r.1.finish := by
    rw [items, Decoder.tight_fresh.feedAll]
    cases Decoder.feed {} chunks.flatten <;> simp
  rw [all, Decoder.feed_eq, List.nil_append]
  cases (Text.Utf8.decodeFront chunks.flatten).1 with
  | nil => rfl
  | cons c text =>
    by_cases mark : c = Decoder.byteOrderMark
    · simp [Decoder.hear, mark]
    · simp only [Decoder.hear, mark, List.head?_cons, Option.some.injEq, if_false, beq_iff_eq, Bool.and_eq_true,
        and_false, Option.map_some]
      rfl

/-- However a body is cut into chunks, the same items are handed over in the same order, and if the decoder panics, it is
after the same items. -/
theorem items_of_same_body (h : chunks.flatten = chunks'.flatten) :
    items chunks none = items chunks' none ∧ Decoder.handed {} chunks = Decoder.handed {} chunks' := by
  have same : Decoder.feedAll {} chunks = Decoder.feedAll {} chunks' := by
    rw [Decoder.tight_fresh.feedAll, Decoder.tight_fresh.feedAll, h]
  refine ⟨?_, ?_⟩
  · rw [items, items, same]
  · rw [Decoder.handed_eq, Decoder.handed_eq, same]

/-- An error event with a character of two bytes, and the beginning of a character after it. -/
def tornBody : List UInt8 := Text.Utf8.encode "event: error\r\ndata: é\r\n\r\n".toList ++ [0xe2, 0x82]

theorem items_of_torn_body :
    [tornBody.take 13, (tornBody.drop 13).take 8, [], tornBody.drop 21].flatten = (tornBody.map fun b => [b]).flatten ∧
    items [tornBody.take 13, (tornBody.drop 13).take 8, [], tornBody.drop 21] none =
      items (tornBody.map fun b => [b]) none ∧
    (items (tornBody.map fun b => [b]) none).map (·.map fun | .ok e => e.txId | .error e => e.message) =
      some ["Stream error: é", "Malformed event stream: UTF8 error: incomplete utf-8 byte sequence from index 0"] := by
  have same : [tornBody.take 13, (tornBody.drop 13).take 8, [], tornBody.drop 21].flatten =
      (tornBody.map fun b => [b]).flatten := by decide +kernel
  exact ⟨same, (items_of_same_body same).1, by decide +kernel⟩

end EventStream

end LedgerLoad
