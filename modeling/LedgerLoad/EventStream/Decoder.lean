import LedgerLoad.Error
import LedgerLoad.EventStream.Frame
import LedgerLoad.Json.Codec
import LedgerLoad.Target.Event
import LedgerLoad.Text.Utf8

/-!
Reading transaction events from the body of an event stream, which arrives in chunks.

Bytes that make up no character yet are held back, and so is a line that is not ended; bytes that never will make one
are held back to the end of the body, where they are reported. A body that begins with a byte order mark makes the
decoder panic.
-/

set_option autoImplicit false

namespace LedgerLoad.EventStream

abbrev Item := Except TargetError TransactionEvent

/-- Errors of the server come as events of type `error`; other types than `transaction` and the default are passed over,
and so are events whose data is empty. -/
def Frame.item? (f : Frame) : Option Item :=
  if f.event = "error".toList then some (.error (.stream (String.ofList f.data)))
  else if f.event = "transaction".toList ∨ f.event = defaultEvent then
    if f.data.isEmpty then none
    else some (match Json.read TransactionEvent.codec.read (String.ofList f.data) with
      | .ok e => .ok e
      | .error fault => .error (.decode fault))
  else none

structure Decoder where
  /-- Bytes from the first that make up no character. -/
  held : List UInt8 := []
  /-- The line that is not ended. -/
  pending : List Char := []
  draft : Draft := {}
  started : Bool := false
deriving DecidableEq, Repr

namespace Decoder

def byteOrderMark : Char := '\uFEFF'

def take (d : Decoder) (text : List Char) : Decoder × List Item :=
  let (lines, pending) := splitLines [] (d.pending ++ text)
  let (draft, frames) := d.draft.addAll (lines.map Line.ofChars)
  ({ d with pending := pending, draft := draft, started := true }, frames.filterMap Frame.item?)

/-- Takes up a chunk; `none` is a panic. -/
def feed (d : Decoder) (chunk : List UInt8) : Option (Decoder × List Item) :=
  let (text, held) := Text.Utf8.decodeFront (d.held ++ chunk)
  let d := { d with held := held }
  match text with
  | [] => some (d, [])
  | c :: _ => if !d.started && c == byteOrderMark then none else some (d.take text)

/-- What is left at the end of the body: bytes that make up no character. An event that is not ended is dropped. -/
def finish (d : Decoder) : List Item :=
  match Text.Utf8.faultText d.held with
  | some what => [.error (.framing ("UTF8 error: " ++ what))]
  | none => []

def feedAll (d : Decoder) : List (List UInt8) → Option (Decoder × List Item)
  | [] => some (d, [])
  | chunk :: chunks => do
    let (d, items) ← d.feed chunk
    let (d, more) ← d.feedAll chunks
    return (d, items ++ more)

end Decoder

/-- All items of a body in chunks; the read fails after them if the body is cut off. `none` is a panic. -/
def items (chunks : List (List UInt8)) (cutOff : Option String) : Option (List Item) := do
  let (d, items) ← Decoder.feedAll {} chunks
  let broken : List Item := cutOff.toList.map fun reason => .error (.http reason)
  return items ++ broken ++ d.finish

end LedgerLoad.EventStream
