import LedgerLoad.Proofs.RunnerProgress

/-!
A world looks at its run calls only through their numbers. They can be renumbered, or others put beside them, and all that
happens happens just the same.
-/

set_option autoImplicit false

namespace LedgerLoad.Load

def Action.call? : Action → Option Nat
  | .advanceRun k _ | .attach k _ => some k
  | _ => none

def Action.renumber (φ : Nat → Nat) : Action → Action
  | .advanceRun k early => .advanceRun (φ k) early
  | .attach k stats => .attach (φ k) stats
  | a => a

namespace World

variable {w : World} {a : Action} {as : List Action} {i k : Nat} {x : Worker} {r : RunCall} {early : Bool}
  {T : Array RunCall → Array RunCall} {φ : Nat → Nat} {P : Nat → Prop}

def recast (T : Array RunCall → Array RunCall) (w : World) : World := { w with runs := T w.runs }

/-- Run calls are found under other numbers: those with `P` at least, and each new one. -/
structure Recasts (T : Array RunCall → Array RunCall) (φ : Nat → Nat) (P : Nat → Prop) : Prop where
  find : ∀ (runs : Array RunCall) (k : Nat), P k → (T runs)[φ k]? = runs[k]?
  change : ∀ (runs : Array RunCall) (k : Nat) (f : RunCall → RunCall), P k → (T runs).modify (φ k) f = T (runs.modify k f)
  extend : ∀ (runs : Array RunCall) (config : WorkloadConfig) (monitored : Bool),
    (T runs).push { config := config, monitored := monitored } = T (runs.push { config := config, monitored := monitored })

theorem recast_ite {c : Prop} [Decidable c] {yes no yes' no' : Option World} (hy : yes.map (recast T) = yes')
    (hn : no.map (recast T) = no') : (if c then yes else no).map (recast T) = if c then yes' else no' := by
  split
  · exact hy
  · exact hn

/-! ### Steps of run calls -/

theorem Recasts.setRun (R : Recasts T φ P) (hk : P k) (w : World) (p : RunPhase) :
    (w.setRun k p).recast T = (w.recast T).setRun (φ k) p := by
  simp only [recast, World.setRun, R.change w.runs k _ hk]

theorem Recasts.advanceRun (R : Recasts T φ P) (hk : P k) :
    (w.advanceRun k early r).map (recast T) = (w.recast T).advanceRun (φ k) early r := by
  have goes : ∀ (v : World) (p : RunPhase), (some (v.setRun k p)).map (recast T) = some ((v.recast T).setRun (φ k) p) :=
    fun v p => congrArg some (R.setRun hk v p)
  unfold World.advanceRun
  cases r.phase with
  | entered =>
    cases r.config.scenario with
    | stream => exact goes _ _
    | balance =>
      have same : AccountPool.ofList (w.recast T).accounts = AccountPool.ofList w.accounts := rfl
      dsimp only
      rw [same]
      cases AccountPool.ofList w.accounts <;> exact goes _ _
  | checked pool | claimed pool => exact recast_ite (goes _ _) (goes _ _)
  | waiting d => exact recast_ite (goes _ _) (recast_ite (goes _ _) rfl)
  | joining => exact recast_ite (goes _ _) rfl
  | «over» result => exact recast_ite rfl (goes _ _)
  | returned result | panicked => rfl
  | started d | stoppedEarly d | starting d | noticed | joined faults | ended faults | closing faults => exact goes _ _

/-! ### Steps of workers -/

theorem settleBalance_recast (g : Progress BalancePhase) :
    (w.settleBalance i g).recast T = (w.recast T).settleBalance i g := by
  cases g <;> rfl

theorem settleStream_recast (g : Progress StreamPhase) :
    (w.settleStream i g).recast T = (w.recast T).settleStream i g := by
  cases g <;> rfl

theorem work_recast : (w.work i x).map (recast T) = (w.recast T).work i x := by
  cases x with
  | balance p =>
    change Option.map _ (Option.map _ (p.advance w.view)) = Option.map _ (p.advance w.view)
    rw [Option.map_map]
    exact congrArg (Option.map · _) (funext fun g => settleBalance_recast g)
  | stream p =>
    change Option.map _ (Option.map _ (p.advance w.view)) = Option.map _ (p.advance w.view)
    rw [Option.map_map]
    exact congrArg (Option.map · _) (funext fun g => settleStream_recast g)
  | recordingBalance s p | recordingStream s p | finished why | faulted f => rfl

theorem call_recast {n : Nat} : (w.call i n x).map (recast T) = (w.recast T).call i n x := by
  match x with
  | .balance .drawing =>
    change Option.map _ (w.pool.bind _) = w.pool.bind _
    rw [Option.map_bind]
    refine congrArg w.pool.bind (funext fun pool => ?_)
    refine recast_ite rfl ?_
    cases pool.draw n <;> rfl
  | .balance .start | .balance .unstopped | .balance (.calling _ _) | .stream _ | .recordingBalance _ _
  | .recordingStream _ _ | .finished _ | .faulted _ => rfl

theorem answer_recast {reply : Except TargetError Unit} :
    (w.answer i reply x).map (recast T) = (w.recast T).answer i reply x := by
  match x with
  | .balance (.calling account since) => cases reply <;> rfl
  | .stream p =>
    change Option.map _ ((p.answer reply).bind _) = (p.answer reply).bind _
    cases p.answer reply with
    | none => rfl
    | some q => cases reply <;> rfl
  | .balance .start | .balance .unstopped | .balance .drawing | .recordingBalance _ _ | .recordingStream _ _
  | .finished _ | .faulted _ => rfl

theorem subscribe_recast : (w.subscribe i x).map (recast T) = (w.recast T).subscribe i x := by
  cases x with
  | stream p =>
    change Option.map _ (p.subscribe.bind _) = p.subscribe.bind _
    cases p.subscribe <;> rfl
  | balance p | recordingBalance s p | recordingStream s p | finished why | faulted f => rfl

theorem look_recast {item : Option StreamItem} : (w.look i item x).map (recast T) = (w.recast T).look i item x := by
  cases x with
  | stream p =>
    change Option.map _ ((p.look item).bind _) = (p.look item).bind _
    cases p.look item with
    | none => rfl
    | some g => cases item <;> cases g <;> rfl
  | balance p | recordingBalance s p | recordingStream s p | finished why | faulted f => rfl

theorem wake_recast : (w.wake i x).map (recast T) = (w.recast T).wake i x := by
  cases x with
  | stream p =>
    change Option.map _ (p.wake.map _) = p.wake.map _
    cases p.wake <;> rfl
  | balance p | recordingBalance s p | recordingStream s p | finished why | faulted f => rfl

theorem panic_recast : (w.panic i x).map (recast T) = (w.recast T).panic i x := by
  match x with
  | .balance (.calling _ _) | .stream .subscribing | .stream (.lookingItem _) => rfl
  | .balance .start | .balance .unstopped | .balance .drawing | .stream .start | .stream .unstopped | .stream .ready
  | .stream (.looking _) | .stream (.lookingClock _) | .stream (.parked _) | .stream (.received _)
  | .stream (.failing _) | .stream (.done _) | .recordingBalance _ _ | .recordingStream _ _ | .finished _
  | .faulted _ => rfl

/-! ### All that happens -/

/-- Everything but the run calls whose numbers are not carried over happens just the same. -/
theorem Recasts.step (R : Recasts T φ P) (ha : ∀ k, a.call? = some k → P k) :
    (w.step a).map (recast T) = (w.recast T).step (a.renumber φ) := by
  have worker : ∀ {i : Nat} {f g : Worker → Option World}, (∀ x, (f x).map (recast T) = g x) →
      ((w.workers[i]?).bind f).map (recast T) = (w.workers[i]?).bind g := by
    intro i f g same
    cases w.workers[i]? with
    | none => rfl
    | some x => exact same x
  cases a with
  | pass n | signal | stop => rfl
  | stopMoves => exact recast_ite rfl rfl
  | run config monitored =>
    change some (recast T { w with runs := _ }) = some { w with runs := (T w.runs).push _ }
    rw [R.extend]
    rfl
  | advanceRun k early =>
    have inside : P k := ha k rfl
    change Option.map _ ((w.runs[k]?).bind _) = ((T w.runs)[φ k]?).bind _
    rw [R.find w.runs k inside]
    cases w.runs[k]? with
    | none => rfl
    | some r => exact R.advanceRun inside
  | attach k stats =>
    have inside : P k := ha k rfl
    change Option.map _ ((w.runs[k]?).bind _) = ((T w.runs)[φ k]?).bind _
    rw [R.find w.runs k inside]
    cases w.runs[k]? with
    | none => rfl
    | some r =>
      dsimp only [Option.bind_some]
      cases r.phase with
      | «over» result => exact recast_ite (congrArg some (R.setRun inside _ _)) rfl
      | _ => rfl
  | work i => exact worker fun x => work_recast
  | call i n => exact worker fun x => call_recast
  | answer i reply => exact worker fun x => answer_recast
  | subscribe i => exact worker fun x => subscribe_recast
  | look i item => exact worker fun x => look_recast
  | wake i => exact worker fun x => wake_recast
  | panic i => exact worker fun x => panic_recast

theorem Recasts.run (R : Recasts T φ P) (ha : ∀ a ∈ as, ∀ k, a.call? = some k → P k) :
    (w.run as).map (recast T) = (w.recast T).run (as.map (Action.renumber φ)) := by
  induction as generalizing w with
  | nil => rfl
  | cons a as ih =>
    have first := R.step (w := w) (ha a (by simp))
    change Option.map _ ((w.step a).bind _) = ((w.recast T).step (a.renumber φ)).bind _
    rw [← first]
    cases w.step a with
    | none => rfl
    | some v => exact ih fun b hb => ha b (by simp [hb])

end World

end LedgerLoad.Load
