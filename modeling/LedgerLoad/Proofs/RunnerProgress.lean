import LedgerLoad.Proofs.RunnerLifecycle

/-!
What a runner can do by itself: which steps of workers and of run calls are there to be taken, and how a run call gets on
with every step it takes.
-/

set_option autoImplicit false

namespace LedgerLoad.Load

def Worker.awaits : Worker → Bool
  | .balance (.calling _ _) | .stream .subscribing => true
  | _ => false

namespace RunPhase

def left : RunPhase → Nat
  | .entered => 12
  | .checked _ => 11
  | .claimed _ => 10
  | .started _ => 9
  | .stoppedEarly _ => 8
  | .starting _ => 7
  | .waiting _ => 6
  | .noticed => 5
  | .joining => 4
  | .joined _ => 3
  | .ended _ => 2
  | .closing _ => 1
  | .over _ | .returned _ | .panicked => 0

def staffed : RunPhase → Bool
  | .waiting _ | .noticed | .joining | .joined _ | .ended _ | .closing _ | .over _ | .returned _ => true
  | _ => false

def begun : RunPhase → Bool
  | .started _ | .stoppedEarly _ | .starting _ => true
  | p => p.staffed

theorem left_of_staffed {p : RunPhase} (h : p.staffed = true) : p.left ≤ 6 := by
  cases p with
  | entered | checked pool | claimed pool | started d | stoppedEarly d | starting d | panicked => cases h
  | _ => simp [left]

theorem left_of_begun {p : RunPhase} (h : p.begun = true) : p.left ≤ 9 := by
  cases p with
  | entered | checked pool | claimed pool | panicked => cases h
  | _ => simp [left]

theorem begun_of_staffed {p : RunPhase} (h : p.staffed = true) : p.begun = true := by
  cases p <;> first | rfl | exact h

end RunPhase

namespace World

variable {w w' : World} {a : Action} {i j k : Nat} {x : Worker} {r : RunCall} {early : Bool}

def Overdue (w : World) : Prop := w.stopped = true ∨ w.deadline ≤ w.now

/-! ### Workers -/

theorem exists_live (h : w.allTerminated = false) :
    ∃ (i : Nat) (x : Worker), w.workers[i]? = some x ∧ x.terminated = false := by
  obtain ⟨i, hi, hl⟩ := Array.all_eq_false.1 h
  exact ⟨i, _, Array.getElem?_eq_getElem hi, by simpa using hl⟩

def ownSteps (i : Nat) : List Action := [.work i, .call i 0, .subscribe i, .look i none, .wake i]

/-- A worker that is not gone goes on by itself, unless it waits for an answer of the target. -/
theorem worker_progress (o : w.Orderly) (hx : w.workers[i]? = some x) (hl : x.terminated = false) :
    x.awaits = true ∨ ∃ a ∈ ownSteps i, ∃ w', w.step a = some w' := by
  have go : ∀ {a e}, a ∈ ownSteps i → WorkerStep w i x a e → x.awaits = true ∨ ∃ a ∈ ownSteps i, ∃ w', w.step a = some w' :=
    fun ha hw => .inr ⟨_, ha, _, step_of_happens (.worked hx hw)⟩
  have work : .work i ∈ ownSteps i := by simp [ownSteps]
  cases x with
  | balance p =>
    cases p with
    | start =>
      cases hs : w.stopped with
      | true => exact go work (.inl (.cancels hs))
      | false => exact go work (.inl (.passesFlag hs))
    | unstopped =>
      by_cases hd : w.deadline ≤ w.now
      · exact go work (.inl (.elapses hd))
      · exact go work (.inl (.passesClock (by omega)))
    | drawing =>
      have call : .call i 0 ∈ ownSteps i := by simp [ownSteps]
      obtain ⟨pool, hp⟩ : ∃ pool, w.pool = some pool := by
        obtain ⟨c, staffed, opened⟩ := o.staffed hx
        have serves := staffed.serve i _ hx
        rw [opened.pool, WorkloadConfig.poolOf]
        cases hs : c.scenario with
        | balance => exact ⟨_, rfl⟩
        | stream =>
          rw [hs] at serves
          cases serves
      cases hl : w.poisoned with
      | true => exact go call (.inl (.findsPoison 0 hp hl))
      | false =>
        cases hn : pool.draw 0 with
        | none => exact go call (.inl (.drawsNothing 0 hp hn hl))
        | some account => exact go call (.inl (.calls 0 hp hn hl))
    | calling account since => exact .inl rfl
  | stream p =>
    cases p with
    | start =>
      cases hs : w.stopped with
      | true => exact go work (.inr (.cancels hs))
      | false => exact go work (.inr (.passesFlag hs))
    | unstopped =>
      by_cases hd : w.deadline ≤ w.now
      · exact go work (.inr (.elapses hd))
      · exact go work (.inr (.passesClock (by omega)))
    | ready => exact go (by simp [ownSteps]) (.inr .subscribes)
    | subscribing => exact .inl rfl
    | looking last =>
      cases hs : w.stopped with
      | true => exact go work (.inr (.cancelsOpen last hs))
      | false => exact go work (.inr (.passesFlagOpen last hs))
    | lookingClock last =>
      by_cases hd : w.deadline ≤ w.now
      · exact go work (.inr (.elapsesOpen last hd))
      · exact go work (.inr (.passesClockOpen last (by omega)))
    | lookingItem last => exact go (by simp [ownSteps]) (.inr (.parks last))
    | parked last => exact go (by simp [ownSteps]) (.inr (.wakes last))
    | received last => exact go work (.inr (.times last))
    | failing e =>
      cases hs : w.stopped with
      | true => exact go work (.inr (.cancelsFailure e hs))
      | false => exact go work (.inr (.reports e hs))
    | done why => exact go work (.inr (.repeats why))
  | recordingBalance sample p => exact go work (.inl (.records sample p))
  | recordingStream sample p => exact go work (.inr (.records sample p))
  | finished why | faulted fault => cases hl

/-! ### Run calls -/

/-- A run call that has claimed the runner goes on, unless its deadline cannot be noted or it waits for workers that are
not gone. Once it is overdue it waits for them only to join them. -/
theorem standing_progress (h : w.Standing r.config r.phase)
    (hd : r.phase.begun = true ∨ w.now + r.config.duration.nanos < clockLimit) (hn : r.phase.result? = none) :
    (∃ w', CallStep w k false r w') ∨
      w.allTerminated = false ∧ r.phase.staffed = true ∧ (w.Overdue → r.phase = .joining) := by
  cases hp : r.phase with
  | entered | checked pool =>
    rw [hp] at h
    exact h.elim
  | claimed pool =>
    rw [hp] at hd
    exact .inl ⟨_, .begins hp (hd.resolve_left (by simp [RunPhase.begun, RunPhase.staffed]))⟩
  | started d =>
    cases hs : w.stopped with
    | true => exact .inl ⟨_, .seesStop hp hs⟩
    | false => exact .inl ⟨_, .seesNoStop hp hs⟩
  | stoppedEarly d => exact .inl ⟨_, .saysStop hp⟩
  | starting d => exact .inl ⟨_, .staffs hp⟩
  | waiting d =>
    rw [hp] at h
    obtain ⟨_, _, _, rfl⟩ := h
    cases ht : w.allTerminated with
    | true => exact .inl ⟨_, .joinsFirst hp rfl ht⟩
    | false =>
      by_cases hdue : w.Overdue
      · exact .inl ⟨_, .notices hp (.inr ht) hdue⟩
      · exact .inr ⟨rfl, rfl, fun hd => (hdue hd).elim⟩
  | noticed => exact .inl ⟨_, .saysNotice hp⟩
  | joining =>
    cases ht : w.allTerminated with
    | true => exact .inl ⟨_, .joins hp ht⟩
    | false => exact .inr ⟨rfl, rfl, fun _ => rfl⟩
  | joined faults => exact .inl ⟨_, .notesEnd hp⟩
  | ended faults => exact .inl ⟨_, .saysEnd hp⟩
  | closing faults => exact .inl ⟨_, .closes hp⟩
  | «over» result | returned result =>
    rw [hp] at hn
    cases hn
  | panicked =>
    rw [hp] at h hd
    have late := h.2.2
    have soon := hd.resolve_left (by simp [RunPhase.begun, RunPhase.staffed])
    omega

/-- Where a phase leads: nearer to the end unless it is over, and never back before the start of the workers. -/
structure Onward (p q : RunPhase) : Prop where
  left : p.result? = none → q.left < p.left
  staffed : p.staffed = true → q.staffed = true
  begun : p.begun = true → q.begun = true
  result : p.result?.isSome = true → q.result?.isSome = true

theorem CallStep.onward (h : CallStep w k early r w') :
    ∃ q, w'.runs = (w.setRun k q).runs ∧ w'.now = w.now ∧ Onward r.phase q := by
  cases h with
  | needsNoPool hp | findsPool hp | lacksPool hp | claims hp | comesLate hp | begins hp | leavesRange hp | seesStop hp
  | seesNoStop hp | saysStop hp | staffs hp | joinsFirst hp | notices hp | saysNotice hp | joins hp | notesEnd hp
  | saysEnd hp | closes hp | returns hp =>
    refine ⟨_, rfl, rfl, ?_⟩
    rw [hp]
    constructor <;> simp [RunPhase.left, RunPhase.staffed, RunPhase.begun, RunPhase.result?]

theorem CallStep.advances (h : CallStep w k early r w') (hr : w.runs[k]? = some r) :
    ∃ q, w'.runs[k]? = some { r with phase := q } ∧ w'.now = w.now ∧ Onward r.phase q := by
  obtain ⟨q, hruns, hnow, ho⟩ := h.onward
  refine ⟨q, ?_, hnow, ho⟩
  rw [hruns, runs_setRun, if_pos rfl, hr]
  rfl

theorem Happens.follows (h : Happens w a w') (hr : w.runs[k]? = some r) (ha : ∀ early, a ≠ .advanceRun k early) :
    ∃ q, w'.runs[k]? = some { r with phase := q } ∧ Follows r.phase q := by
  rcases h.cases with ho | ⟨j, early, s, rfl, hs, hc⟩ | ⟨i, x, e, _, _, rfl⟩
  · exact ho.old k r hr
  · have other : j ≠ k := by
      rintro rfl
      exact ha early rfl
    obtain ⟨q, hruns, _⟩ := hc.onward
    refine ⟨r.phase, ?_, .inl rfl⟩
    rw [hruns, runs_setRun, if_neg other]
    exact hr
  · exact ⟨r.phase, hr, .inl rfl⟩

theorem Follows.stays {p q : RunPhase} (h : Follows p q) (hp : ∀ result, p ≠ .over result) : q = p := by
  rcases h with same | ⟨result, ended, _⟩
  · exact same
  · exact (hp result ended).elim

theorem Follows.onward {p q : RunPhase} (h : Follows p q) : q = p ∨ Onward p q := by
  rcases h with rfl | ⟨result, rfl, rfl⟩
  · exact .inl rfl
  · refine .inr ?_
    constructor <;> simp [RunPhase.staffed, RunPhase.begun, RunPhase.result?]

theorem Happens.phase (h : Happens w a w') (hr : w.runs[k]? = some r) :
    ∃ q, w'.runs[k]? = some { r with phase := q } ∧ (q = r.phase ∨ Onward r.phase q) := by
  by_cases ha : ∃ early, a = .advanceRun k early
  · obtain ⟨early, rfl⟩ := ha
    cases h with
    | called k early hs hc =>
      rw [hr] at hs
      cases hs
      obtain ⟨q, hq, _, ho⟩ := hc.advances hr
      exact ⟨q, hq, .inr ho⟩
    | worked _ hw => cases hw.worker
  · obtain ⟨q, hq, hf⟩ := h.follows hr fun early he => ha ⟨early, he⟩
    exact ⟨q, hq, hf.onward⟩

end World

end LedgerLoad.Load
