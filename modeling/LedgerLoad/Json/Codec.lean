import LedgerLoad.Json.Reader

/-!
One description for both directions: how a type is written as JSON and read from it.

A record is read from an object, whose members may come in any order and among unknown ones, or from a list of
its fields in order. The first fault from left to right is the one reported; a field that is missing is
noticed at the end of the object.
-/

set_option autoImplicit false

namespace LedgerLoad.Json

/-- Writing fails for a value that has no written form. -/
structure Codec (α : Type) where
  read : Reader α
  write : α → Option Json

namespace Codec

def bool : Codec Bool := ⟨readBool, fun b => some (.bool b)⟩

def text : Codec String := ⟨readText, fun s => some (.text s)⟩

def float : Codec Float := ⟨readFloat, fun x => some (.float x)⟩

def nat (least most : Nat) : Codec Nat := ⟨readNat least most, fun n => some (.int n)⟩

def int : Codec Int := ⟨readInt, fun n => some (.int n)⟩

def names {α : Type} (named : List (String × α)) (name : α → String) : Codec α :=
  ⟨readName named, fun a => some (.text (name a))⟩

def option {α : Type} (c : Codec α) : Codec (Option α) where
  read := readOption c.read
  write
    | none => some .null
    | some a => c.write a

def list {α : Type} (c : Codec α) : Codec (List α) where
  read := readList c.read
  write as := (as.mapM c.write).map Json.list

def narrow {α β : Type} (c : Codec α) (make : α → Option β) (back : β → Option α) : Codec β where
  read := refine c.read fun a => match make a with
    | some b => .ok b
    | none => .error .other
  write b := (back b).bind c.write

end Codec

/-- A named member of a record, and the value it has when it is missing, if it may be. -/
structure Field (α : Type) where
  name : String
  codec : Codec α
  absent : Option α := none

/-- The fields of a record in order; a record is a nested pair of their values. -/
inductive Fields : Type → Type 1 where
  | nil : Fields Unit
  | cons {α β : Type} (field : Field α) (rest : Fields β) : Fields (α × β)

namespace Fields

def Draft : {ρ : Type} → Fields ρ → Type
  | _, .nil => Unit
  | _, .cons (α := α) _ rest => Option α × rest.Draft

def blank : {ρ : Type} → (fs : Fields ρ) → fs.Draft
  | _, .nil => ()
  | _, .cons _ rest => (none, rest.blank)

/-- How the value of a member is taken up: `none` for an unknown name, a rejection for one that is already
there. -/
def assign : {ρ : Type} → (fs : Fields ρ) → fs.Draft → String → Option (Except Rejection (Reader fs.Draft))
  | _, .nil, _, _ => none
  | _, .cons (α := α) field rest, draft, name =>
    match (draft : Option α × rest.Draft) with
    | (here, later) =>
      if name = field.name then
        if here.isSome then some (.error (.duplicateField field.name))
        else some (.ok fun s => do
          let (a, s) ← field.codec.read s
          return ((some a, later), s))
      else (rest.assign later name).map fun r => r.map fun (read : Reader rest.Draft) => fun s => do
        let (later, s) ← read s
        return ((here, later), s)

def complete : {ρ : Type} → (fs : Fields ρ) → fs.Draft → Except Rejection ρ
  | _, .nil, () => .ok ()
  | _, .cons (α := α) field rest, draft => do
    match (draft : Option α × rest.Draft) with
    | (here, later) =>
      match here.orElse fun _ => field.absent with
      | none => throw (.missingField field.name)
      | some a => return (a, ← rest.complete later)

def colon (s : List Char) : Except Fault (List Char) :=
  match skipSpace s with
  | [] => .error .truncated
  | ':' :: r => .ok r
  | _ => .error .malformed

/-- Whether another member follows, and the text after the opening quote of its key, or at the closing brace. -/
def nextKey (first : Bool) (s : List Char) : Except Fault (Bool × List Char) :=
  match skipSpace s with
  | [] => .error .truncated
  | '\x7d' :: r => .ok (false, '\x7d' :: r)
  | ',' :: r =>
    if first then .error .malformed
    else match skipSpace r with
      | [] => .error .truncated
      | '"' :: r => .ok (true, r)
      | _ => .error .malformed
  | '"' :: r => if first then .ok (true, r) else .error .malformed
  | _ => .error .malformed

def readMembers {ρ : Type} (fs : Fields ρ) (first : Bool) (draft : fs.Draft) : Nat → Reader fs.Draft
  | 0, _ => .error .truncated
  | fuel + 1, s => do
    let (more, s) ← nextKey first s
    if more then
      let (name, s) ← readString .none [] s
      match fs.assign draft name with
      | none => readMembers fs false draft fuel (← skipValue (← colon s))
      | some (.error why) => throw (.rejected why)
      | some (.ok read) =>
        let (draft, s) ← read (← colon s)
        readMembers fs false draft fuel s
    else return (draft, s)

def readInOrder : {ρ : Type} → (fs : Fields ρ) → Bool → Reader ρ
  | _, .nil, _, s => .ok ((), s)
  | _, .cons field rest, first, s => do
    let (more, s) ← nextItem first s
    if more then
      let (a, s) ← field.codec.read s
      let (later, s) ← rest.readInOrder false s
      return ((a, later), s)
    else throw mismatch

def read {ρ : Type} (fs : Fields ρ) : Reader ρ := fun s =>
  match skipSpace s with
  | [] => .error .truncated
  | '\x7b' :: r => do
    let (draft, s) ← fs.readMembers true fs.blank (r.length + 1) r
    match fs.complete draft with
    | .error why => throw (.rejected why)
    | .ok a =>
      match skipSpace s with
      | '\x7d' :: r => return (a, r)
      | _ => throw .malformed
  | '[' :: r => do
    let (a, s) ← fs.readInOrder true r
    return (a, ← closeList s)
  | s => .error (wrongKind s)

def writeMembers : {ρ : Type} → (fs : Fields ρ) → ρ → Option (List (String × Json))
  | _, .nil, _ => some []
  | _, .cons field rest, (a, later) => do
    return (field.name, ← field.codec.write a) :: (← rest.writeMembers later)

def codec {ρ α : Type} (fs : Fields ρ) (make : ρ → α) (back : α → ρ) : Codec α where
  read s := do
    let (a, rest) ← fs.read s
    return (make a, rest)
  write a := (fs.writeMembers (back a)).map Json.record

end Fields

end LedgerLoad.Json
