import LedgerLoad.Error

/-!
Scripts of how a target behaves, for runs in virtual time.

Calls and subscriptions are numbered from 0 in the order in which they are made, whichever worker makes them.
-/

set_option autoImplicit false

namespace LedgerLoad.Rehearsal

/-- How one answer is played: a wait in nanoseconds, then the stop signal is set if the script says so, then the target
panics, fails or succeeds. -/
structure Cue where
  wait : Nat := 0
  stop : Bool := false
  panic : Bool := false
  error : Option TargetError := none

/-- What a subscription has at a place: an item that is played like a call, its end, or nothing ever. -/
inductive Offer where
  | cue (c : Cue)
  | close
  | never

/-- A subscription: how the request for it is answered, and what comes after, from place 0 on. The wait of an item
begins when the item is first asked for. -/
structure Feed where
  subscribe : Cue := {}
  offer : Nat → Offer := fun _ => .never

structure Script where
  call : Nat → String → Cue := fun _ _ => {}
  feed : Nat → Nat → Feed := fun _ _ => {}

end LedgerLoad.Rehearsal
