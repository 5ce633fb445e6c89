import LedgerLoad.Proofs.RunnerPace

/-!
The samples of one balance worker and its own calls, in order.

A worker has at most one call in flight, and that is its latest. What it yields are the outcomes of the calls before, one
after the other, whatever the other workers and the run do.
-/

set_option autoImplicit false

namespace LedgerLoad.Load

def Call.replied (c : Call) : Bool :=
  match c.ending with
  | .replied _ _ => true
  | _ => false

namespace World

variable {v v' w : World} {a : Action} {as bs : List Action} {i k : ℕ} {x : Worker} {e : Effect} {r : RunCall}
  {accounts : List String} {past : List Call}

def answered (i : ℕ) (w : World) : List String := ((callsOf i w).filter Call.replied).map Call.account

/-- Worker `i` waits for none of its past calls, and what it yielded are their outcomes. -/
structure Replied (accounts : List String) (as : List Action) (w : World) (i : ℕ) (x : Worker) (past : List Call) :
    Prop where
  calls : calls (own i w.log) = x.inFlight i ++ past
  closed : ∀ c ∈ past, ¬ c.waits i = true
  outcomes : (yields i (initial accounts) as).map Sample.outcome = (past.filterMap Call.outcome).reverse

theorem Replied.silent (h : Replied accounts bs v i x past) (hb : (initial accounts).run bs = some v)
    (hx : v.workers[i]? = some x) (hw : WorkerStep v i x a e) (unladen : e.worker.carried = none)
    (same : Load.calls (e.entries ++ own i v.log) = Load.calls (own i v.log)) (still : e.worker.inFlight i = x.inFlight i) :
    Replied accounts (bs ++ [a]) (v.affect i e) i e.worker past := by
  have entries : own i (v.affect i e).log = e.entries ++ own i v.log := own_append_own hw.entries_own
  refine ⟨?_, h.closed, ?_⟩
  · rw [entries, same, still]
    exact h.calls
  · rw [yields_own hb hx hw, unladen, Option.toList_none, List.append_nil]
    exact h.outcomes

theorem Replied.closing {account : String} {since : ℕ} (ending : Ending)
    (h : Replied accounts bs v i (.balance (.calling account since)) past) (hb : (initial accounts).run bs = some v)
    (hx : v.workers[i]? = some (.balance (.calling account since)))
    (hw : WorkerStep v i (.balance (.calling account since)) a e) (he : ending ≠ .pending)
    (closes : Load.calls (e.entries ++ own i v.log) = (Load.calls (own i v.log)).map (Call.close i ending))
    (free : e.worker.inFlight i = [])
    (bill : e.worker.carried.map Sample.outcome =
      ({ worker := i, account := account, start := since, ending := ending } : Call).outcome) :
    Replied accounts (bs ++ [a]) (v.affect i e) i e.worker
      ({ worker := i, account := account, start := since, ending := ending } :: past) := by
  have entries : own i (v.affect i e).log = e.entries ++ own i v.log := own_append_own hw.entries_own
  have unchanged : past.map (Call.close i ending) = past :=
    (List.map_congr_left fun c hc => close_other (h.closed c hc)).trans (List.map_id _)
  refine ⟨?_, fun c hc waits => ?_, ?_⟩
  · rw [entries, closes, h.calls, free, List.map_append, unchanged]
    change [Call.close i ending _] ++ past = _
    rw [close_waiting (by simp [Call.waits])]
    rfl
  · rcases List.mem_cons.1 hc with rfl | hc
    · exact he (waits_iff.1 waits).2
    · exact h.closed c hc waits
  · rw [yields_own hb hx hw, List.map_append, h.outcomes, filterMap_cons_toList, List.reverse_append, ← bill]
    cases e.worker.carried <;> rfl

theorem BalanceStep.replied (h : BalanceStep v i x a e) (serves : x.serves .balance = true)
    (hb : (initial accounts).run bs = some v) (hx : v.workers[i]? = some x) (replied : Replied accounts bs v i x past) :
    ∃ past', Replied accounts (bs ++ [a]) (v.affect i e) i e.worker past' := by
  have hw : WorkerStep v i x a e := .inl h
  cases h with
  | cancels | passesFlag | elapses | passesClock | findsPoison | drawsNothing =>
    exact ⟨past, replied.silent hb hx hw rfl rfl rfl⟩
  | records sample p =>
    cases p <;> cases serves
    exact ⟨past, replied.silent hb hx hw rfl rfl rfl⟩
  | @calls n pool account hp hn hl =>
    have entries : own i (v.affect i _).log = [.called i account v.now] ++ own i v.log := own_append_own hw.entries_own
    refine ⟨past, ?_, replied.closed, ?_⟩
    · rw [entries]
      exact congrArg (List.cons _) replied.calls
    · rw [yields_own hb hx hw]
      exact (congrArg _ (List.append_nil _)).trans replied.outcomes
  | answered account since reply =>
    exact ⟨_, replied.closing (.replied reply v.now) hb hx hw (by simp) rfl rfl outcome_replySample.symm⟩
  | panics account since =>
    exact ⟨_, replied.closing (.panicked v.now) hb hx hw (by simp) rfl rfl rfl⟩

theorem replied_of_run (h : (initial accounts).run as = some w) (cl : w.ClaimedBy k r) (hb : r.config.scenario = .balance)
    (hx : w.workers[i]? = some x) : ∃ past, Replied accounts as w i x past := by
  refine worker_induction (P := fun bs v x => ∃ past, Replied accounts bs v i x past) h cl hx ?_ ?_ ?_
  · intro bs v early d hrun cl inside
    have hs : Happens v (.advanceRun k early) _ := .called k early cl.call (.staffs rfl)
    have none : v.Unstaffed := cl.standing.2.1
    refine ⟨[], ?_, by simp, ?_⟩
    · change calls (own i v.log) = _
      rw [none.log, hb]
      rfl
    · rw [yields_concat hrun (step_of_happens hs), yields_of_run i hrun, none.log, none.no_worker]
      rfl
  · rintro bs v a v' x hrun hs apart hx _ ⟨past, replied⟩
    refine ⟨past, ?_, replied.closed, ?_⟩
    · rw [apart.own]
      exact replied.calls
    · rw [yields_concat hrun (step_of_happens hs), if_neg apart.idle, List.append_nil]
      exact replied.outcomes
  · rintro bs v a x e hrun hx serves hw ⟨past, replied⟩
    rw [hb] at serves
    exact (hw.balance serves).replied serves hrun hx replied

theorem outcomes_of_run (h : (initial accounts).run as = some w) (cl : w.ClaimedBy k r) (hb : r.config.scenario = .balance)
    (hx : w.workers[i]? = some x) :
    (yields i (initial accounts) as).map Sample.outcome = (callsOf i w).filterMap Call.outcome := by
  obtain ⟨past, replied⟩ := replied_of_run h cl hb hx
  have waiting : (x.inFlight i).filterMap Call.outcome = [] := by
    unfold Worker.inFlight
    split <;> rfl
  rw [replied.outcomes, callsOf, replied.calls, List.filterMap_reverse, List.filterMap_append, waiting]
  rfl

/-- A worker whose calls are answered as their accounts deserve records a success for each account that deserves one. -/
theorem successes_of_run {deserves : String → Bool} (h : (initial accounts).run as = some w) (cl : w.ClaimedBy k r)
    (hb : r.config.scenario = .balance) (hx : w.workers[i]? = some x)
    (replies : ∀ c ∈ callsOf i w, ∀ reply at_, c.ending = .replied reply at_ → reply.isOk = deserves c.account) :
    (yields i (initial accounts) as).map (·.success) = (answered i w).map deserves := by
  have successes : (yields i (initial accounts) as).map (·.success) =
      ((callsOf i w).filterMap Call.outcome).map fun outcome => outcome.2.1 := by
    rw [← outcomes_of_run h cl hb hx, List.map_map]
    rfl
  rw [successes, answered, List.map_filterMap, List.map_map, ← List.filterMap_eq_map, List.filterMap_filter]
  refine List.filterMap_congr fun c hc => ?_
  unfold Call.outcome Call.replied
  cases he : c.ending with
  | replied reply at_ =>
    have deserved := replies c hc reply at_ he
    cases reply with
    | ok => simp [← deserved, Except.isOk, Except.toBool]
    | error => simp [← deserved, Except.isOk, Except.toBool]
  | pending | panicked at_ => rfl

end World

end LedgerLoad.Load
