import LedgerLoad.Proofs.RunnerProgress

/-!
How a run call comes to its end, and what it reports there.

By its own steps alone a run call that has claimed the runner comes to its end, or to a wait for workers that are not
gone. What it reports is read off its workers in the order in which they were started, whatever the order in which they
ended.
-/

set_option autoImplicit false

namespace LedgerLoad.Load.World

variable {w w' : World} {k : Nat} {r : RunCall} {early : Bool} {c : WorkloadConfig} {p : RunPhase} {f : WorkerError}
  {result : Except RunnerError Unit}

/-! ### The end of a run call -/

theorem CallStep.workers (h : CallStep w k early r w') (hs : r.phase.staffed = true) : w'.workers = w.workers := by
  cases h with
  | staffs hp =>
    rw [hp] at hs
    cases hs
  | _ => rfl

theorem concludes_within (m : Nat) (c : w.ClaimedBy k r) (hm : r.phase.left < m)
    (hd : r.phase.begun = true ∨ w.now + r.config.duration.nanos < clockLimit) :
    ∃ n v q, n ≤ r.phase.left ∧ w.run (List.replicate n (.advanceRun k false)) = some v ∧
      v.ClaimedBy k { r with phase := q } ∧ (r.phase.staffed = true → v.workers = w.workers) ∧
      (q.result?.isSome = true ∨ v.allTerminated = false ∧ q.staffed = true) := by
  induction m generalizing w r with
  | zero => exact (Nat.not_lt_zero _ hm).elim
  | succ m ih =>
    cases hn : r.phase.result? with
    | some result => exact ⟨0, w, r.phase, Nat.zero_le _, rfl, c, fun _ => rfl, .inl (by rw [hn]; rfl)⟩
    | none =>
      rcases standing_progress c.standing hd hn with ⟨v, hstep⟩ | ⟨live, staffed, _⟩
      · obtain ⟨q, hq, hnow, onward⟩ := hstep.advances c.call
        have happens := Happens.called k false c.call hstep
        obtain ⟨q', cv⟩ := c.step happens
        rw [cv.call_eq hq] at cv
        have lower : q.left < r.phase.left := onward.left hn
        have inRange : q.begun = true ∨ v.now + r.config.duration.nanos < clockLimit := by
          rw [hnow]
          exact hd.imp_left onward.begun
        have left : ({ r with phase := q } : RunCall).phase.left < m := Nat.lt_of_lt_of_le lower (Nat.le_of_lt_succ hm)
        obtain ⟨n, u, q'', hle, hrun, cu, same, ends⟩ := ih cv left inRange
        refine ⟨n + 1, u, q'', Nat.lt_of_le_of_lt hle lower, ?_, cu, fun staffed => ?_, ends⟩
        · exact run_cons_eq_some.2 ⟨v, step_of_happens happens, hrun⟩
        · exact (same (onward.staffed staffed)).trans (hstep.workers staffed)
      · exact ⟨0, w, r.phase, Nat.zero_le _, rfl, c, fun _ => rfl, .inr ⟨live, staffed⟩⟩

/-- By at most so many steps of its own as it has left, a run call comes to its end or to workers that are not gone. -/
theorem ClaimedBy.concludes (c : w.ClaimedBy k r)
    (hd : r.phase.begun = true ∨ w.now + r.config.duration.nanos < clockLimit) :
    ∃ n v q, n ≤ r.phase.left ∧ w.run (List.replicate n (.advanceRun k false)) = some v ∧
      v.ClaimedBy k { r with phase := q } ∧ (r.phase.staffed = true → v.workers = w.workers) ∧
      (q.result?.isSome = true ∨ v.allTerminated = false ∧ q.staffed = true) :=
  concludes_within (r.phase.left + 1) c (Nat.lt_succ_self _) hd

/-! ### What it reports -/

/-- The fault of the first worker that has one, in the order in which workers were started. -/
def FirstFault (w : World) (f : WorkerError) : Prop :=
  ∃ i : Nat, w.workers[i]? = some (.faulted f) ∧
    ∀ (j : Nat) (x : Worker), j < i → w.workers[j]? = some x → x.fault? = none

structure Reports (w : World) (result : Except RunnerError Unit) : Prop where
  ok_iff : result = .ok () ↔ ∀ (i : Nat) (x : Worker), w.workers[i]? = some x → x.fault? = none
  error_iff : ∀ e, result = .error e ↔ ∃ f, e = .worker f ∧ w.FirstFault f
  gone : ∀ (i : Nat) (x : Worker), w.workers[i]? = some x → x.terminated = true
  closed : w.Closed
  stopped : w.state = .stopped

theorem fault_eq_some {x : Worker} (h : x.fault? = some f) : x = .faulted f := by
  cases x with
  | faulted fault =>
    cases h
    rfl
  | _ => cases h

theorem faults_eq_nil_iff :
    w.faults = [] ↔ ∀ (i : Nat) (x : Worker), w.workers[i]? = some x → x.fault? = none := by
  rw [World.faults, List.filterMap_eq_nil_iff]
  constructor
  · intro h i x hx
    exact h x (Array.mem_toList_iff.2 (Array.mem_of_getElem? hx))
  · intro h x hx
    obtain ⟨i, hi⟩ := List.getElem?_of_mem hx
    rw [Array.getElem?_toList] at hi
    exact h i x hi

theorem faults_eq_cons_iff : (∃ fs, w.faults = f :: fs) ↔ w.FirstFault f := by
  constructor
  · rintro ⟨fs, h⟩
    obtain ⟨before, x, after, split, clean, fault, _⟩ := List.filterMap_eq_cons_iff.1 h
    have at_ : ∀ j : Nat, w.workers[j]? = (before ++ x :: after)[j]? := by
      intro j
      rw [← split, Array.getElem?_toList]
    refine ⟨before.length, ?_, fun j y hj hy => ?_⟩
    · rw [at_, List.getElem?_append_right (Nat.le_refl _), Nat.sub_self, List.getElem?_cons_zero, fault_eq_some fault]
    · rw [at_, List.getElem?_append_left hj] at hy
      exact clean y (List.mem_of_getElem? hy)
  · rintro ⟨i, hi, clean⟩
    rw [← Array.getElem?_toList] at hi
    obtain ⟨hlt, he⟩ := List.getElem?_eq_some_iff.1 hi
    have rest : w.workers.toList.drop i = .faulted f :: w.workers.toList.drop (i + 1) := by
      rw [List.drop_eq_getElem_cons hlt, he]
    have none_before : (w.workers.toList.take i).filterMap Worker.fault? = [] := by
      rw [List.filterMap_eq_nil_iff]
      intro y hy
      obtain ⟨j, hj, rfl⟩ := List.mem_take_iff_getElem.1 hy
      exact clean j _ (by omega) (by rw [← Array.getElem?_toList]; exact List.getElem?_eq_getElem _)
    refine ⟨(w.workers.toList.drop (i + 1)).filterMap Worker.fault?, ?_⟩
    calc w.faults = (w.workers.toList.take i ++ w.workers.toList.drop i).filterMap Worker.fault? := by
          rw [List.take_append_drop, World.faults]
      _ = f :: (w.workers.toList.drop (i + 1)).filterMap Worker.fault? := by
          rw [List.filterMap_append, none_before, rest]
          rfl

theorem reports_resultOf (gone : w.allTerminated = true) (closed : w.Closed) (stopped : w.state = .stopped) :
    w.Reports (resultOf w.faults) := by
  refine ⟨?_, fun e => ?_, allTerminated_iff.1 gone, closed, stopped⟩
  · rw [← faults_eq_nil_iff]
    cases w.faults <;> simp [resultOf]
  · simp only [← faults_eq_cons_iff]
    cases w.faults with
    | nil => simp [resultOf]
    | cons g gs =>
      simp only [resultOf, Except.error.injEq, List.cons.injEq, exists_and_left, exists_eq', and_true]
      constructor
      · rintro rfl
        exact ⟨g, rfl, rfl⟩
      · rintro ⟨f, rfl, rfl⟩
        rfl

theorem Standing.reports (h : w.Standing c p) (hr : p.result? = some result) : w.Reports result := by
  have finished : ∀ {res}, w.Standing c (.over res) → w.Reports res := by
    rintro res ⟨stopped, _, _, closed, faults, ⟨gone, rfl⟩, rfl⟩
    exact reports_resultOf gone closed stopped
  cases p <;> simp only [RunPhase.result?, reduceCtorEq, Option.some.injEq] at hr
  all_goals
    subst hr
    exact finished h

end LedgerLoad.Load.World
