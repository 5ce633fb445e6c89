import LedgerLoad.Text.Fields

/-!
Server-sent events: the lines of an event stream, the frames they make up, and how a frame is written.

A line ends in LF, CR LF or CR. A CR that is the last character so far ends no line yet, because an LF may follow. An
empty line ends a frame; a frame without any data is dropped.
-/

set_option autoImplicit false

namespace LedgerLoad.EventStream

/-- An event as it is dispatched: its type and its data, the lines of which have LF between them. -/
structure Frame where
  event : List Char
  data : List Char
deriving DecidableEq, Repr

def defaultEvent : List Char := "message".toList

/-! ### Lines -/

inductive Line where
  | blank
  | comment
  | field (name value : List Char)
deriving DecidableEq, Repr

/-- The value of a field begins after its colon and one space, if there is one. -/
def Line.ofChars : List Char → Line
  | [] => .blank
  | ':' :: _ => .comment
  | s =>
    let (name, rest) := s.span (· != ':')
    match rest with
    | _ :: ' ' :: value => .field name value
    | _ :: value => .field name value
    | [] => .field name []

/-- The whole lines of a text whose first line has begun with `start`, in reverse, and what is left of it. -/
def splitLines (start : List Char) : List Char → List (List Char) × List Char
  | [] => ([], start.reverse)
  | '\n' :: r =>
    let (lines, rest) := splitLines [] r
    (start.reverse :: lines, rest)
  | ['\r'] => ([], start.reverse ++ ['\r'])
  | '\r' :: '\n' :: r =>
    let (lines, rest) := splitLines [] r
    (start.reverse :: lines, rest)
  | '\r' :: c :: r =>
    let (lines, rest) := splitLines [] (c :: r)
    (start.reverse :: lines, rest)
  | c :: r => splitLines (c :: start) r

/-! ### Frames -/

structure Draft where
  event : List Char := []
  data : List (List Char) := []
deriving DecidableEq, Repr

def Draft.dispatch (d : Draft) : Option Frame :=
  if d.data.isEmpty then none
  else some { event := if d.event.isEmpty then defaultEvent else d.event, data := ['\n'].intercalate d.data }

def Draft.add (d : Draft) : Line → Draft × Option Frame
  | .blank => ({}, d.dispatch)
  | .comment => (d, none)
  | .field name value =>
    if name = "event".toList then ({ d with event := value }, none)
    else if name = "data".toList then ({ d with data := d.data ++ [value] }, none)
    else (d, none)

def Draft.addAll (d : Draft) : List Line → Draft × List Frame
  | [] => (d, [])
  | l :: ls =>
    let (d, frame) := d.add l
    let (d, frames) := d.addAll ls
    (d, frame.toList ++ frames)

/-! ### Writing -/

def writeField (name : String) (value : List Char) : List Char := name.toList ++ ':' :: ' ' :: value ++ ['\n']

def Frame.write (f : Frame) : List Char :=
  writeField "event" f.event ++ (Text.splitOn (· == '\n') f.data).flatMap (writeField "data") ++ ['\n']

end LedgerLoad.EventStream
