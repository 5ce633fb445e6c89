import Mathlib.Data.List.Perm.Basic
import LedgerLoad.Proofs.RunnerCompletion
import LedgerLoad.Proofs.RunnerConservation
import LedgerLoad.Proofs.RunnerWinding

/-!
Faults of workers, and what they leave alone.

A worker that faults takes nothing along: the others end for reasons of their own, their samples are in the sink, and the
run reports the fault of the first worker that has one, by the order in which workers were started. The only fault there
is, is a panic of the target: the account pool is never left locked, because a pool that was let in is never empty.
-/

set_option autoImplicit false

namespace LedgerLoad.Load.World

variable {u v v' w w' : World} {a : Action} {as : List Action} {i j k n : Nat} {x : Worker} {e : Effect} {r : RunCall}
  {es : List Entry} {accounts : List String}

/-! ### Why workers end -/

/-- What stands behind the end of worker `i`, in the record or in what all workers see. -/
def Grounds (w : World) (i : Nat) : Finish → Prop
  | .elapsed => ∃ t, .ended i t ∈ w.log ∧ w.deadline ≤ t
  | .requestedCancellation => w.stopped = true
  | .exhausted => ∃ t, .received i .close t ∈ w.log
  | .unexpectedStreamFailure => ∃ e t, .refused i e t ∈ w.log ∨ .received i (.error e) t ∈ w.log

def GroundedPhase (w : World) (i : Nat) : StreamPhase → Prop
  | .done why => w.Grounds i why
  | .failing e => ∃ t, .refused i e t ∈ w.log ∨ .received i (.error e) t ∈ w.log
  | _ => True

def Grounded (w : World) (i : Nat) : Worker → Prop
  | .finished why => w.Grounds i why
  | .stream p | .recordingStream _ p => w.GroundedPhase i p
  | .faulted f => f = .lost true ∧ ∃ t, .panicked i t ∈ w.log
  | .balance _ | .recordingBalance _ _ => True

structure Remembers (w w' : World) : Prop where
  log : ∀ entry ∈ w.log, entry ∈ w'.log
  deadline : w'.deadline = w.deadline
  stopped : w.stopped = true → w'.stopped = true

theorem Quiet.remembers (h : Quiet w w') : Remembers w w' :=
  ⟨fun entry he => by rw [h.log]; exact he, h.deadline, h.stopped⟩

theorem remembers_affect : Remembers w (w.affect i e) :=
  ⟨fun _ he => List.mem_append_right _ he, rfl, id⟩

theorem Grounds.later {why : Finish} (h : w.Grounds i why) (hr : Remembers w w') : w'.Grounds i why := by
  cases why with
  | elapsed =>
    obtain ⟨t, ht, hd⟩ := h
    exact ⟨t, hr.log _ ht, hr.deadline.symm ▸ hd⟩
  | requestedCancellation => exact hr.stopped h
  | exhausted =>
    obtain ⟨t, ht⟩ := h
    exact ⟨t, hr.log _ ht⟩
  | unexpectedStreamFailure =>
    obtain ⟨e, t, ht⟩ := h
    exact ⟨e, t, ht.imp (hr.log _) (hr.log _)⟩

theorem GroundedPhase.later {p : StreamPhase} (h : w.GroundedPhase i p) (hr : Remembers w w') :
    w'.GroundedPhase i p := by
  cases p with
  | done why => exact Grounds.later h hr
  | failing e =>
    obtain ⟨t, ht⟩ := h
    exact ⟨t, ht.imp (hr.log _) (hr.log _)⟩
  | _ => trivial

theorem Grounded.later (h : w.Grounded i x) (hr : Remembers w w') : w'.Grounded i x := by
  cases x with
  | finished why => exact Grounds.later h hr
  | stream p | recordingStream s p => exact GroundedPhase.later h hr
  | faulted f =>
    obtain ⟨hf, t, ht⟩ := h
    exact ⟨hf, t, hr.log _ ht⟩
  | balance p | recordingBalance s p => trivial

theorem Opened.draws {c : WorkloadConfig} {pool : AccountPool} (h : w.Opened c) (hp : w.pool = some pool) (random : Nat) :
    ∃ account ∈ w.accounts, pool.draw random = some account := by
  rw [h.pool, WorkloadConfig.poolOf] at hp
  cases hb : c.scenario with
  | stream =>
    rw [hb] at hp
    cases hp
  | balance =>
    rw [hb] at hp
    cases hp
    have size : 0 < w.accounts.length := List.length_pos_iff.2 (h.supplied hb)
    have inside : random % w.accounts.length < w.accounts.length := Nat.mod_lt _ size
    exact ⟨w.accounts[random % w.accounts.length], List.getElem_mem inside, List.getElem?_eq_getElem inside⟩

structure Sound (w : World) : Prop where
  unlocked : w.poisoned = false
  grounded : ∀ (i : Nat) (x : Worker), w.workers[i]? = some x → w.Grounded i x

theorem BalanceStep.grounded {c : WorkloadConfig} (h : BalanceStep w i x a e) (hl : w.poisoned = false)
    (ho : w.Opened c) : e.poisons = false ∧ (w.affect i e).Grounded i e.worker := by
  cases h with
  | findsPoison n hp locked =>
    rw [hl] at locked
    cases locked
  | drawsNothing n hp nothing =>
    obtain ⟨account, _, drawn⟩ := ho.draws hp n
    rw [nothing] at drawn
    cases drawn
  | cancels hs => exact ⟨rfl, hs⟩
  | elapses hd => exact ⟨rfl, w.now, List.mem_cons_self, hd⟩
  | panics account since => exact ⟨rfl, rfl, w.now, List.mem_cons_of_mem _ List.mem_cons_self⟩
  | passesFlag | passesClock | calls | answered | records => exact ⟨rfl, trivial⟩

theorem StreamStep.grounded (h : StreamStep w i x a e) (hx : w.Grounded i x) :
    e.poisons = false ∧ (w.affect i e).Grounded i e.worker := by
  refine ⟨by cases h <;> rfl, ?_⟩
  cases h with
  | cancels hs | cancelsOpen last hs | cancelsFailure e hs => exact hs
  | elapses hd | elapsesOpen last hd => exact ⟨w.now, List.mem_cons_self, hd⟩
  | closes last => exact ⟨w.now, List.mem_cons_self⟩
  | panicsSubscribing | panicsOpen last => exact ⟨rfl, w.now, List.mem_cons_of_mem _ List.mem_cons_self⟩
  | refused e => exact ⟨w.now, .inl List.mem_cons_self⟩
  | fails last e => exact ⟨w.now, .inr List.mem_cons_self⟩
  | reports e hs =>
    obtain ⟨t, ht⟩ := hx
    exact ⟨e, t, ht⟩
  | repeats why => exact Grounds.later hx remembers_affect
  | records s p => exact GroundedPhase.later hx remembers_affect
  | _ => trivial

theorem Orderly.sound_step (o : w.Orderly) (h : Happens w a w') (hs : w.Sound) : w'.Sound := by
  rcases o.cases h with ⟨_, quiet | sets⟩ | ⟨i, x, e, _, hx, hw, rfl⟩
  · refine ⟨quiet.poisoned.trans hs.unlocked, fun i x hx => ?_⟩
    rw [quiet.workers] at hx
    exact (hs.grounded i x hx).later quiet.remembers
  · refine ⟨sets.unpoisoned, fun i x hx => ?_⟩
    obtain ⟨s, rfl⟩ := sets.fresh i x hx
    cases s <;> trivial
  · obtain ⟨c, _, opened⟩ := o.staffed hx
    have own : e.poisons = false ∧ (w.affect i e).Grounded i e.worker :=
      hw.elim (fun hb => hb.grounded hs.unlocked opened) (fun ht => ht.grounded (hs.grounded i x hx))
    refine ⟨?_, fun j y hy => ?_⟩
    · change (e.poisons || w.poisoned) = false
      rw [own.1, hs.unlocked]
      rfl
    · rw [workers_affect hx] at hy
      split at hy
      · rename_i hj
        subst hj
        cases hy
        exact own.2
      · exact (hs.grounded j y hy).later remembers_affect

theorem sound_of_run (h : (initial accounts).run as = some w) : w.Sound := by
  refine run_induction (P := fun _ v => v.Sound) ⟨rfl, fun i x hx => ?_⟩ (fun bs v b v' hb hv hs => ?_) h
  · exact ((unclaimed_initial accounts).unstaffed.vacant hx).elim
  · exact (orderly_of_run hb).sound_step hs hv

theorem Sound.draws (hs : w.Sound) (o : w.Orderly) (h : Happens w (.call i n) w') :
    ∃ account ∈ w.accounts, w'.workers[i]? = some (.balance (.calling account w.now)) := by
  obtain ⟨x, e, hx, hw, rfl⟩ := h.worker rfl
  obtain ⟨c, _, opened⟩ := o.staffed hx
  rcases hw with hb | hst
  · cases hb with
    | findsPoison n hp locked =>
      rw [hs.unlocked] at locked
      cases locked
    | drawsNothing n hp nothing =>
      obtain ⟨account, _, drawn⟩ := opened.draws hp n
      rw [nothing] at drawn
      cases drawn
    | @calls n pool account hp hn =>
      obtain ⟨other, member, drawn⟩ := opened.draws hp n
      rw [hn] at drawn
      cases drawn
      refine ⟨account, member, ?_⟩
      rw [workers_affect hx, if_pos rfl]
  · cases hst

theorem eq_of_panic (h : Happens w (.panic i) w') :
    w' = { w with
      workers := w.workers.set! i (.faulted (.lost true))
      log := .ended i w.now :: .panicked i w.now :: w.log } := by
  obtain ⟨x, e, _, hw, rfl⟩ := h.worker rfl
  rcases hw with h | h <;> cases h <;> rfl

/-! ### The samples of each worker -/

/-- The samples that the units of work of worker `i` come to along a schedule. -/
def yields (i : Nat) (w : World) : List Action → List Sample
  | [] => []
  | a :: as =>
    match w.step a with
    | none => []
    | some v =>
      (if a.worker? = some i then ((v.workers[i]?).bind Worker.carried).toList else []) ++ yields i v as

theorem yields_eq_gathered (i : Nat) (w : World) (as : List Action) : yields i w as =
    gathered (fun _ a v => if a.worker? = some i then ((v.workers[i]?).bind Worker.carried).toList else []) w as := by
  induction as generalizing w with
  | nil => rfl
  | cons a as ih =>
    simp only [yields, gathered]
    cases w.step a with
    | none => rfl
    | some v => simp only [ih]

theorem yields_concat (h : u.run as = some w) (ha : w.step a = some w') :
    yields i u (as ++ [a]) = yields i u as ++
      if a.worker? = some i then ((w'.workers[i]?).bind Worker.carried).toList else [] := by
  rw [yields_eq_gathered, yields_eq_gathered, gathered_concat h ha]

theorem WorkerStep.sample (h : WorkerStep w i x a e) : e.sample = x.carried := by
  rcases h with h | h <;> cases h <;> rfl

structure Told (w : World) : Prop where
  samples : w.sink.samples.toList = (recorded w.log).reverse
  owners : ∀ entry ∈ w.log, entry.worker < w.workers.size

theorem Orderly.told_step (o : w.Orderly) (h : Happens w a w') (ht : w.Told) : w'.Told := by
  rcases o.cases h with ⟨_, quiet | sets⟩ | ⟨i, x, e, _, hx, hw, rfl⟩
  · refine ⟨?_, ?_⟩
    · rw [quiet.samples, quiet.log]
      exact ht.samples
    · rw [quiet.log, quiet.workers]
      exact ht.owners
  · refine ⟨?_, ?_⟩
    · rw [sets.samples, sets.log]
      rfl
    · rw [sets.log]
      exact fun entry he => nomatch he
  · have size : (w.affect i e).workers.size = w.workers.size := Array.size_setIfInBounds
    refine ⟨?_, fun entry he => ?_⟩
    · change _ = (recorded (e.entries ++ w.log)).reverse
      rw [samples_affect, ht.samples, recorded_append, hw.recorded, List.reverse_append]
      cases e.sample <;> rfl
    · rw [size]
      rcases List.mem_append.1 he with he | he
      · rw [hw.entries_own entry he]
        exact (Array.getElem?_eq_some_iff.1 hx).1
      · exact ht.owners entry he

theorem told_of_run (h : (initial accounts).run as = some w) : w.Told := by
  refine run_induction (P := fun _ v => v.Told) ⟨rfl, fun entry he => ?_⟩ (fun bs v b v' hb hv hs => ?_) h
  · cases he
  · exact (orderly_of_run hb).told_step hs hv

/-- What the units of work of worker `i` came to is recorded, but for the sample that it still carries. -/
theorem yields_of_run (i : Nat) (h : (initial accounts).run as = some w) :
    yields i (initial accounts) as =
      (recorded (own i w.log)).reverse ++ ((w.workers[i]?).bind Worker.carried).toList := by
  refine run_induction (P := fun bs v => yields i (initial accounts) bs =
    (recorded (own i v.log)).reverse ++ ((v.workers[i]?).bind Worker.carried).toList) ?_ ?_ h
  · rfl
  · intro bs v b v' hb ih hs
    rw [yields_concat hb (step_of_happens hs), ih]
    rcases (orderly_of_run hb).cases hs with ⟨idle, quiet | sets⟩ | ⟨j, x, e, hj, hx, hw, rfl⟩
    · rw [idle, quiet.log, quiet.workers]
      simp
    · have before : (v.workers[i]?).bind Worker.carried = none := by
        rw [sets.empty.no_worker]
        rfl
      have after : (v'.workers[i]?).bind Worker.carried = none := by
        cases hx : v'.workers[i]? with
        | none => rfl
        | some x =>
          obtain ⟨s, rfl⟩ := sets.fresh i x hx
          cases s <;> rfl
      rw [idle, before, after, sets.empty.log, sets.log]
      rfl
    · change _ = (recorded (own i (e.entries ++ v.log))).reverse ++ _
      rw [hj, workers_affect hx]
      by_cases hi : j = i
      · subst hi
        rw [if_pos rfl, if_pos rfl, own_append_own hw.entries_own, recorded_append, hw.recorded, hw.sample, hx,
          Option.bind_some, Option.bind_some, List.reverse_append]
        cases x.carried <;> simp
      · rw [if_neg (by simpa using hi), if_neg hi, own_append_other hw.entries_own hi, List.append_nil]

theorem perm_flatMap_own (es : List Entry) (n : Nat) :
    ((List.range n).flatMap fun i => own i es).Perm (es.filter fun entry => decide (entry.worker < n)) := by
  induction n with
  | zero => simp
  | succ n ih =>
    have below : (es.filter fun entry => decide (entry.worker < n + 1)).filter (fun entry => decide (entry.worker < n)) =
        es.filter fun entry => decide (entry.worker < n) := by
      rw [List.filter_filter]
      refine List.filter_congr fun entry _ => ?_
      simp only [Bool.and_eq_decide, decide_eq_true_eq, decide_eq_decide]
      omega
    have last : (es.filter fun entry => decide (entry.worker < n + 1)).filter (fun entry => !decide (entry.worker < n)) =
        own n es := by
      rw [own, List.filter_filter]
      refine List.filter_congr fun entry _ => ?_
      rw [Bool.eq_iff_iff]
      simp only [Bool.and_eq_true, Bool.not_eq_true', decide_eq_false_iff_not, decide_eq_true_eq, beq_iff_eq]
      omega
    have parts := List.filter_append_perm (fun entry => decide (entry.worker < n))
      (es.filter fun entry => decide (entry.worker < n + 1))
    rw [below, last] at parts
    rw [List.range_succ, List.flatMap_append, List.flatMap_singleton]
    exact (ih.append_right _).trans parts

/-- Once all workers are gone, the sink holds what each of them came to, and nothing else. -/
theorem samples_of_yields (h : (initial accounts).run as = some w) (gone : w.allTerminated = true) :
    w.sink.samples.toList.Perm ((List.range w.workers.size).flatMap fun i => yields i (initial accounts) as) := by
  have told := told_of_run h
  have each : ∀ i ∈ List.range w.workers.size,
      ((own i w.log).filterMap Entry.sample?).Perm (yields i (initial accounts) as) := by
    intro i _
    have empty : (w.workers[i]?).bind Worker.carried = none := by
      cases hx : w.workers[i]? with
      | none => rfl
      | some x => exact carried_of_terminated (allTerminated_iff.1 gone i x hx)
    rw [yields_of_run i h, empty, Option.toList_none, List.append_nil]
    exact (List.reverse_perm _).symm
  have all : w.log.filter (fun entry => decide (entry.worker < w.workers.size)) = w.log :=
    List.filter_eq_self.2 fun entry he => by simpa using told.owners entry he
  have parts := perm_flatMap_own w.log w.workers.size
  rw [all] at parts
  have recordedParts := parts.filterMap Entry.sample?
  rw [List.filterMap_flatMap] at recordedParts
  rw [told.samples]
  exact ((List.reverse_perm _).trans recordedParts.symm).trans (List.Perm.flatMap_left _ each)

/-! ### The law -/

/-- How worker `i` gets on, whatever became of the others. -/
structure Fares (w : World) (i : Nat) (x : Worker) : Prop where
  goesOn : x.terminated = false → x.awaits = true ∨ ∃ a ∈ ownSteps i, ∃ w', w.step a = some w'
  finished : ∀ why, x = .finished why → w.Grounds i why
  faulted : ∀ f, x = .faulted f → f = .lost true ∧ ∃ t, .panicked i t ∈ w.log

theorem fares_of_run (h : (initial accounts).run as = some w) (hx : w.workers[i]? = some x) : w.Fares i x := by
  have grounded : w.Grounded i x := (sound_of_run h).grounded i x hx
  refine ⟨fun live => worker_progress (orderly_of_run h) hx live, ?_, ?_⟩
  · rintro why rfl
    exact grounded
  · rintro f rfl
    exact grounded

theorem ClaimedBy.reports (c : w.ClaimedBy k r) (staffed : r.phase.staffed = true) (gone : w.allTerminated = true) :
    ∃ n v q result, n ≤ 6 ∧ w.run (List.replicate n (.advanceRun k false)) = some v ∧
      v.runs[k]? = some { r with phase := q } ∧ q.result? = some result ∧ v.workers = w.workers ∧ v.Reports result := by
  obtain ⟨n, v, q, hn, hrun, cv, same, ends⟩ := c.concludes (.inl (RunPhase.begun_of_staffed staffed))
  have short : r.phase.left ≤ 6 := RunPhase.left_of_staffed staffed
  have workers := same staffed
  rcases ends with ended | ⟨live, _⟩
  · obtain ⟨result, hres⟩ := Option.isSome_iff_exists.1 ended
    exact ⟨n, v, q, result, Nat.le_trans hn short, hrun, cv.call, hres, workers, cv.standing.reports hres⟩
  · rw [allTerminated, workers] at live
    rw [allTerminated, live] at gone
    cases gone

/-- A run reports the fault of the first worker that has one, and only once all of them are gone; then it reports without
waiting for anybody else. The others go on to ends of their own, and what they came to is in the sink. The one fault there
is, is a panic of the target, which changes no other worker: the lock of the account pool is never left behind. -/
theorem first_fault_surfaces (h : (initial accounts).run as = some w) (hk : Claims accounts as k)
    (hr : w.runs[k]? = some r) :
    (∀ result, r.phase.result? = some result →
      w.Reports result ∧ (∀ e, result = .error e → e = .worker (.lost true)) ∧
      w.sink.samples.toList.Perm ((List.range w.workers.size).flatMap fun i => yields i (initial accounts) as)) ∧
    (∀ (v : World) (j : Nat) (s : RunCall), v.ClaimedBy j s → s.phase.staffed = true → v.allTerminated = true →
      ∃ n v' q result, n ≤ 6 ∧ v.run (List.replicate n (.advanceRun j false)) = some v' ∧
        v'.runs[j]? = some { s with phase := q } ∧ q.result? = some result ∧ v'.workers = v.workers ∧
        v'.Reports result) ∧
    (∀ (i : Nat) (x : Worker), w.workers[i]? = some x → w.Fares i x) ∧
    (∀ v i v', (initial accounts).Takes as v (.panic i) v' →
      v' = { v with
        workers := v.workers.set! i (.faulted (.lost true))
        log := .ended i v.now :: .panicked i v.now :: v.log }) ∧
    w.poisoned = false ∧
    (∀ v i n v', (initial accounts).Takes as v (.call i n) v' →
      ∃ account ∈ accounts, v'.workers[i]? = some (.balance (.calling account v.now))) := by
  have sound := sound_of_run h
  refine ⟨fun result hres => ?_, fun v j s c => c.reports, fun i x hx => fares_of_run h hx,
    fun v i v' ht => eq_of_panic ht.happens, sound.unlocked, fun v i n v' ht => ?_⟩
  · have reports : w.Reports result := (claimedBy_of_claims h hk hr).standing.reports hres
    refine ⟨reports, fun e he => ?_, samples_of_yields h (allTerminated_iff.2 reports.gone)⟩
    obtain ⟨f, rfl, i, hi, _⟩ := (reports.error_iff e).1 he
    rw [((fares_of_run h hi).faulted f rfl).1]
  · obtain ⟨bs, cs, hv, _⟩ := ht.rest h
    have accounts_eq := accounts_of_run hv
    rw [← accounts_eq]
    exact (sound_of_run hv).draws (orderly_of_run hv) ht.happens

/-- Three workers query at once. The target panics under the last, later under the second; the first is answered. -/
def stricken : List Action :=
  let config : WorkloadConfig := { scenario := .balance, concurrency := 3, duration := Span.ofSecs 1 }
  [.run config false, .advanceRun 0 false, .advanceRun 0 false, .advanceRun 0 false, .advanceRun 0 false,
    .advanceRun 0 false, .work 0, .work 0, .call 0 0, .work 1, .work 1, .call 1 0, .work 2, .work 2, .call 2 0, .pass 5,
    .panic 2, .pass 5, .panic 1, .answer 0 (.ok ()), .work 0, .signal, .work 0, .advanceRun 0 false, .advanceRun 0 false,
    .advanceRun 0 false, .advanceRun 0 false, .advanceRun 0 false]

def divided : World where
  accounts := ["0.0.1"]
  state := .running
  sink := { window := { start := some 0 } }
  deadline := 1000000000
  pool := some ⟨["0.0.1"]⟩
  workers := #[.finished .elapsed, .faulted .poisoned, .faulted (.lost true)]
  runs := #[{
    config := { scenario := .balance, concurrency := 3, duration := Span.ofSecs 1 }
    monitored := false
    phase := .waiting 1000000000 }]

theorem claimed_divided : divided.ClaimedBy 0
    { config := { scenario := .balance, concurrency := 3, duration := Span.ofSecs 1 }
      monitored := false
      phase := .waiting 1000000000 } := by
  refine ⟨rfl, ⟨.inl rfl, ⟨rfl, fun i x hx => ?_⟩, ⟨⟨0, rfl, rfl⟩, by decide, rfl, rfl, fun _ => by decide⟩, rfl⟩, ?_⟩
  · match i, hx with
    | 0, hx | 1, hx | 2, hx =>
      cases hx
      rfl
  · intro j s hj hs
    have inside : j < 1 := (Array.getElem?_eq_some_iff.1 hs).1
    omega

theorem faults_of_stricken_run : (∃ w r, (initial ["0.0.1"]).run stricken = some w ∧ Claims ["0.0.1"] stricken 0 ∧
      w.runs[0]? = some r ∧ r.phase.result? = some (.error (.worker (.lost true))) ∧
      w.Reports (.error (.worker (.lost true))) ∧ w.sink.samples.size = 1 ∧ w.state = .stopped ∧
      ∃ x, w.workers[0]? = some x ∧ x.fault? = none ∧ w.Fares 0 x) ∧
    ∃ n v, divided.run (List.replicate n (.advanceRun 0 false)) = some v ∧ v.Reports (.error (.worker .poisoned)) := by
  have facts : ((initial ["0.0.1"]).run stricken).map (fun w => (w.state, w.runs.size, w.sink.samples.size,
      (w.runs[0]?).map fun r => r.phase.result?.isSome)) = some (.stopped, 1, 1, some true) := by decide +kernel
  have ends : ((initial ["0.0.1"]).run stricken).map (fun w => ((w.workers[0]?).map Worker.fault?,
      (w.workers[1]?).map Worker.fault?)) = some (some none, some (some (.lost true))) := by decide +kernel
  obtain ⟨w, h, hw⟩ := Option.map_eq_some_iff.1 facts
  rw [h] at ends
  simp only [Option.map_some, Option.some.injEq, Prod.mk.injEq, Option.map_eq_some_iff] at hw ends
  obtain ⟨hstate, hsize, hsamples, r, hr, hres⟩ := hw
  obtain ⟨⟨x, hx, hclean⟩, y, hy, hfault⟩ := ends
  obtain ⟨result, hres⟩ := Option.isSome_iff_exists.1 hres
  have hk : Claims ["0.0.1"] stricken 0 := claims_of_alone h (by rw [hstate]; decide) hsize
  obtain ⟨results, alone, fares, _⟩ := first_fault_surfaces h hk hr
  obtain ⟨reports, only, _⟩ := results result hres
  have failed : result = .error (.worker (.lost true)) := by
    cases result with
    | ok u =>
      have clean := reports.ok_iff.1 rfl 1 y hy
      rw [hfault] at clean
      cases clean
    | error e => rw [only e rfl]
  subst failed
  refine ⟨⟨w, r, h, hk, hr, hres, reports, hsamples, reports.stopped, x, hx, hclean, fares 0 x hx⟩, ?_⟩
  have gone : divided.allTerminated = true := by simp [allTerminated, divided, Worker.terminated]
  obtain ⟨n, v, q, told, _, hrun, _, _, workers, divides⟩ := alone divided 0 _ claimed_divided rfl gone
  have second : v.FirstFault .poisoned := by
    refine ⟨1, by rw [workers]; rfl, fun j y hj hy => ?_⟩
    obtain rfl : j = 0 := by omega
    rw [workers] at hy
    cases hy
    rfl
  rw [(divides.error_iff _).2 ⟨_, rfl, second⟩] at divides
  exact ⟨n, v, hrun, divides⟩

end LedgerLoad.Load.World
