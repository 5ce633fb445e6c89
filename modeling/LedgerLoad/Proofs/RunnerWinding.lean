import LedgerLoad.Proofs.RunnerLifecycle

/-!
What a worker may still do once a stop was requested.

`WindsDown` collects the steps of one worker under a stop. A worker that has yet to look at the flag again, or that is
suspended on its subscription, is `steady`: it asks the target for nothing more and records nothing but what it carries.
Every other worker comes to such a place after the one call or item that it is busy with.
-/

set_option autoImplicit false

namespace LedgerLoad.Load

def Entry.worker : Entry → Nat
  | .called i _ _ | .answered i _ _ _ | .panicked i _ | .subscribed i _ _ | .refused i _ _ | .received i _ _
  | .recorded i _ _ | .ended i _ => i

def Entry.asks : Entry → Bool
  | .called _ _ _ | .subscribed _ _ _ => true
  | _ => false

def Entry.sample? : Entry → Option Sample
  | .recorded _ s _ => some s
  | _ => none

def recorded (es : List Entry) : List Sample := es.filterMap Entry.sample?

def own (i : Nat) (es : List Entry) : List Entry := es.filter fun entry => entry.worker == i

namespace Worker

/-- The next unit of work is yet to be asked for, or its first look at the stop flag is still to come. -/
def entering : Worker → Bool
  | .balance .start | .recordingBalance _ _ | .stream .start | .stream (.looking _) | .stream (.done _)
  | .recordingStream _ _ | .finished _ | .faulted _ => true
  | _ => false

/-- A unit of work is suspended until the target opens the subscription or the subscription yields something. -/
def suspended : Worker → Bool
  | .stream .subscribing | .stream (.parked _) => true
  | _ => false

def steady : Worker → Bool
  | .stream (.failing _) => true
  | x => x.entering || x.suspended

def verdict : Worker → Finish
  | .stream (.done why) | .recordingStream _ (.done why) | .finished why => why
  | _ => .requestedCancellation

/-- How often a worker asks the target for something after a stop, at most. -/
def asksLeft : Worker → Nat
  | .balance .unstopped | .balance .drawing | .stream .unstopped | .stream .ready => 1
  | _ => 0

def samplesLeft : Worker → Nat
  | .balance .unstopped | .balance .drawing | .balance (.calling _ _) | .recordingBalance _ _
  | .stream (.lookingClock _) | .stream (.lookingItem _) | .stream (.received _) | .recordingStream _ _ => 1
  | _ => 0

def stepsLeft : Worker → Nat
  | .balance .start | .stream .start | .stream (.looking _) | .stream (.failing _) | .stream (.done _) => 1
  | .recordingBalance _ _ | .recordingStream _ _ | .stream .subscribing | .stream (.parked _) => 2
  | .balance (.calling _ _) | .stream .ready | .stream (.received _) => 3
  | .balance .drawing | .stream .unstopped | .stream (.lookingItem _) => 4
  | .balance .unstopped | .stream (.lookingClock _) => 5
  | .finished _ | .faulted _ => 0

end Worker

namespace World

variable {v v' w w' : World} {a : Action} {as : List Action} {i j k n : Nat} {x y : Worker} {e : Effect} {s : Scenario}
  {es : List Entry}

theorem recorded_append (es fs : List Entry) : recorded (es ++ fs) = recorded es ++ recorded fs := List.filterMap_append

/-! ### One step -/

theorem WorkerStep.entries_own (h : WorkerStep w i x a e) : ∀ entry ∈ e.entries, entry.worker = i := by
  rcases h with h | h <;> cases h <;> simp [Entry.worker]

theorem WorkerStep.recorded (h : WorkerStep w i x a e) : recorded e.entries = e.sample.toList := by
  rcases h with h | h <;> cases h <;> rfl

/-- A step under a stop takes from what its worker has left of each. -/
theorem WorkerStep.budget (h : WorkerStep w i x a e) (hs : w.stopped = true) (hx : x.serves s = true) :
    e.worker.stepsLeft < x.stepsLeft ∧
    (e.entries.filter Entry.asks).length + e.worker.asksLeft ≤ x.asksLeft ∧
    (Load.recorded e.entries).length + e.worker.samplesLeft ≤ x.samplesLeft := by
  rcases h with h | h
  · cases h with
    | passesFlag hf =>
      rw [hs] at hf
      cases hf
    | records sample p =>
      cases s <;> cases p <;> cases hx
      exact ⟨Nat.lt_succ_self _, Nat.le_refl _, Nat.le_refl _⟩
    | _ =>
      simp [Worker.stepsLeft, Worker.asksLeft, Worker.samplesLeft, Load.recorded, List.filter_cons, List.filterMap_cons,
        Entry.asks, Entry.sample?]
  · cases h with
    | passesFlag hf | passesFlagOpen last hf | reports e hf =>
      rw [hs] at hf
      cases hf
    | records sample p =>
      cases s <;> cases p <;> cases hx
      all_goals exact ⟨Nat.lt_succ_self _, Nat.le_refl _, Nat.le_refl _⟩
    | _ =>
      simp [Worker.stepsLeft, Worker.asksLeft, Worker.samplesLeft, Load.recorded, List.filter_cons, List.filterMap_cons,
        Entry.asks, Entry.sample?]

theorem WorkerStep.steady (h : WorkerStep w i x a e) (hs : w.stopped = true) (hx : x.serves s = true)
    (hst : x.steady = true) :
    e.worker.steady = true ∧ e.worker.verdict = x.verdict ∧ e.entries.filter Entry.asks = [] ∧
    e.worker.carried.toList ++ Load.recorded e.entries = x.carried.toList := by
  rcases h with h | h
  · cases h with
    | passesFlag hf =>
      rw [hs] at hf
      cases hf
    | cancels => exact ⟨rfl, rfl, rfl, rfl⟩
    | records sample p =>
      cases s <;> cases p <;> cases hx
      exact ⟨rfl, rfl, rfl, rfl⟩
    | _ => cases hst
  · cases h with
    | passesFlag hf | passesFlagOpen last hf | reports e hf =>
      rw [hs] at hf
      cases hf
    | records sample p =>
      cases s <;> cases p <;> cases hx
      all_goals exact ⟨rfl, rfl, rfl, rfl⟩
    | cancels | opened | refused e | panicsSubscribing | cancelsOpen last | wakes last | cancelsFailure e | repeats why =>
      exact ⟨rfl, rfl, rfl, rfl⟩
    | _ => cases hst

/-! ### The steps of one worker -/

/-- Under a stop worker `i` goes from `x` to `y` in `n` steps, which leave these entries in the record. -/
inductive WindsDown (i : Nat) : Worker → Nat → List Entry → Worker → Prop where
  | still (x : Worker) : WindsDown i x 0 [] x
  | goes {v : World} {x y : Worker} {a : Action} {e : Effect} {n : Nat} {es : List Entry} (hs : v.stopped = true)
      (h : WorkerStep v i x a e) (rest : WindsDown i e.worker n es y) : WindsDown i x (n + 1) (es ++ e.entries) y

theorem WindsDown.snoc (h : WindsDown i x n es y) (hs : v.stopped = true) (hw : WorkerStep v i y a e) :
    WindsDown i x (n + 1) (e.entries ++ es) e.worker := by
  induction h with
  | still x =>
    have last : WindsDown i x (0 + 1) ([] ++ e.entries) e.worker := .goes hs hw (.still _)
    simpa using last
  | goes hv h rest ih =>
    rw [← List.append_assoc]
    exact .goes hv h (ih hw)

theorem WindsDown.serves (h : WindsDown i x n es y) (hx : x.serves s = true) : y.serves s = true := by
  induction h with
  | still x => exact hx
  | goes hv h rest ih => exact ih (h.serves hx)

theorem WindsDown.budget (h : WindsDown i x n es y) (hx : x.serves s = true) :
    n + y.stepsLeft ≤ x.stepsLeft ∧
    (es.filter Entry.asks).length + y.asksLeft ≤ x.asksLeft ∧
    (recorded es).length + y.samplesLeft ≤ x.samplesLeft := by
  induction h with
  | still x => simp [recorded]
  | goes hv h rest ih =>
    have first := h.budget hv hx
    have later := ih (h.serves hx)
    simp only [recorded, List.filter_append, List.filterMap_append, List.length_append] at first later ⊢
    omega

theorem WindsDown.steady (h : WindsDown i x n es y) (hx : x.serves s = true) (hst : x.steady = true) :
    y.verdict = x.verdict ∧ es.filter Entry.asks = [] ∧ y.carried.toList ++ recorded es = x.carried.toList := by
  induction h with
  | still x => exact ⟨rfl, rfl, List.append_nil _⟩
  | goes hv h rest ih =>
    obtain ⟨steady, verdict, asks, carried⟩ := h.steady hv hx hst
    obtain ⟨verdict', asks', carried'⟩ := ih (h.serves hx) steady
    refine ⟨verdict'.trans verdict, ?_, ?_⟩
    · rw [List.filter_append, asks', asks]
      rfl
    · rw [recorded_append, ← List.append_assoc, carried', carried]

theorem WindsDown.gone (h : WindsDown i x n es y) (hx : x.terminated = true) : n = 0 ∧ es = [] ∧ y = x := by
  cases h with
  | still x => exact ⟨rfl, rfl, rfl⟩
  | goes hv h rest =>
    rw [h.live] at hx
    cases hx

/-- How a call that was in flight ended: it is in flight still, or it was answered and its sample is recorded or about
to be, or the target panicked. -/
def Awaited (i : Nat) (account : String) (since : Nat) (es : List Entry) (y : Worker) : Prop :=
  es = [] ∧ y = .balance (.calling account since) ∨
  (∃ reply at_, .answered i since reply at_ ∈ es ∧ y.carried.toList ++ recorded es = [replySample since at_ reply]) ∨
  ∃ at_, .panicked i at_ ∈ es ∧ recorded es = [] ∧ y = .faulted (.lost true)

theorem WindsDown.awaited {account : String} {since : Nat}
    (h : WindsDown i (.balance (.calling account since)) n es y) : Awaited i account since es y := by
  cases h with
  | still => exact .inl ⟨rfl, rfl⟩
  | goes hv h rest =>
    rcases h with h | h
    · cases h with
      | answered account since reply =>
        obtain ⟨_, _, carried⟩ := rest.steady (s := .balance) rfl rfl
        refine .inr (.inl ⟨reply, _, List.mem_append_right _ (List.mem_singleton_self _), ?_⟩)
        rw [recorded_append, ← List.append_assoc, carried]
        rfl
      | panics account since =>
        obtain ⟨_, rfl, rfl⟩ := rest.gone rfl
        exact .inr (.inr ⟨_, List.mem_cons_of_mem _ (List.mem_singleton_self _), rfl, rfl⟩)
    · cases h

theorem WindsDown.drawing (h : WindsDown i (.balance .drawing) n es y) :
    es.filter Entry.asks = [] ∧ recorded es = [] ∨
    ∃ account since later, es = later ++ [.called i account since] ∧ Awaited i account since later y := by
  cases h with
  | still => exact .inl ⟨rfl, rfl⟩
  | goes hv h rest =>
    rcases h with h | h
    · cases h with
      | calls m hp hn hl => exact .inr ⟨_, _, _, rfl, rest.awaited⟩
      | findsPoison m hp hl =>
        obtain ⟨_, rfl, rfl⟩ := rest.gone rfl
        exact .inl ⟨rfl, rfl⟩
      | drawsNothing m hp hn hl =>
        obtain ⟨_, rfl, rfl⟩ := rest.gone rfl
        exact .inl ⟨rfl, rfl⟩
    · cases h

theorem WindsDown.unstopped (h : WindsDown i (.balance .unstopped) n es y) :
    es.filter Entry.asks = [] ∧ recorded es = [] ∨
    ∃ account since later, es = later ++ [.called i account since] ∧ Awaited i account since later y := by
  cases h with
  | still => exact .inl ⟨rfl, rfl⟩
  | goes hv h rest =>
    rcases h with h | h
    · cases h with
      | elapses hd =>
        obtain ⟨_, rfl, rfl⟩ := rest.gone rfl
        exact .inl ⟨rfl, rfl⟩
      | passesClock hd =>
        rw [List.append_nil]
        exact rest.drawing
    · cases h

theorem WindsDown.fresh (h : WindsDown i (freshWorker s) n es y) :
    y = freshWorker s ∧ es = [] ∨ y = .finished .requestedCancellation := by
  cases h with
  | still => exact .inl ⟨rfl, rfl⟩
  | goes hv h rest =>
    have cancels : ∀ {u : World} {b : Action} {f : Effect}, u.stopped = true → WorkerStep u i (freshWorker s) b f →
        f.worker = .finished .requestedCancellation := by
      intro u b f hu hf
      cases s with
      | balance =>
        cases hf.balance rfl with
        | cancels => rfl
        | passesFlag hn =>
          rw [hu] at hn
          cases hn
      | stream =>
        cases hf.stream rfl with
        | cancels => rfl
        | passesFlag hn =>
          rw [hu] at hn
          cases hn
    rw [cancels hv h] at rest
    exact .inr (rest.gone rfl).2.2

/-! ### All workers -/

def stepsOf (i : Nat) (as : List Action) : Nat := as.countP fun a => a.worker? == some i

theorem stepsOf_concat_none (ha : a.worker? = none) : stepsOf i (as ++ [a]) = stepsOf i as := by
  simp [stepsOf, ha]

theorem stepsOf_concat_own (ha : a.worker? = some i) : stepsOf i (as ++ [a]) = stepsOf i as + 1 := by
  simp [stepsOf, ha]

theorem stepsOf_concat_other (ha : a.worker? = some j) (hj : j ≠ i) : stepsOf i (as ++ [a]) = stepsOf i as := by
  simp [stepsOf, ha, hj]

theorem own_append_own {more : List Entry} (h : ∀ entry ∈ more, entry.worker = i) :
    own i (more ++ es) = more ++ own i es := by
  rw [own, List.filter_append, List.filter_eq_self.2 (fun entry he => by simp [h entry he])]
  rfl

theorem own_append_other {more : List Entry} (h : ∀ entry ∈ more, entry.worker = j) (hj : j ≠ i) :
    own i (more ++ es) = own i es := by
  rw [own, List.filter_append, List.filter_eq_nil_iff.2 (fun entry he => by simp [h entry he, hj])]
  rfl

def Begins (w : World) (i : Nat) (x : Worker) : Prop :=
  w.workers[i]? = some x ∨ w.workers[i]? = none ∧ ∃ s, x = freshWorker s

/-- What a schedule makes of `u` once a stop was requested there, with the new entries of the record. -/
structure WoundDown (u : World) (as : List Action) (w : World) (es : List Entry) : Prop where
  log : w.log = es ++ u.log
  samples : w.sink.samples.toList = u.sink.samples.toList ++ (recorded es).reverse
  stopped : w.stopped = true
  owners : ∀ entry ∈ es, entry.worker < w.workers.size
  absent : ∀ i, w.workers[i]? = none → u.workers[i]? = none ∧ stepsOf i as = 0
  winds : ∀ (i : Nat) (y : Worker), w.workers[i]? = some y →
    ∃ x, u.Begins i x ∧ WindsDown i x (stepsOf i as) (own i es) y

variable {u : World}

theorem WoundDown.quiet (h : WoundDown u as w es) (ha : a.worker? = none) (hq : Quiet w w') :
    WoundDown u (as ++ [a]) w' es := by
  refine ⟨hq.log.trans h.log, ?_, hq.stopped h.stopped, ?_, ?_, ?_⟩
  · rw [hq.samples]
    exact h.samples
  · rw [hq.workers]
    exact h.owners
  · intro i hi
    rw [hq.workers] at hi
    rw [stepsOf_concat_none ha]
    exact h.absent i hi
  · intro i y hy
    rw [hq.workers] at hy
    rw [stepsOf_concat_none ha]
    exact h.winds i y hy

theorem WoundDown.setsUp (h : WoundDown u as w es) (ha : a.worker? = none) (hs : SetsUp w w') :
    WoundDown u (as ++ [a]) w' es := by
  have log := h.log
  rw [hs.empty.log] at log
  obtain ⟨rfl, hlog⟩ := List.append_eq_nil_iff.1 log.symm
  refine ⟨?_, ?_, hs.stopped.trans h.stopped, (fun entry he => nomatch he), ?_, ?_⟩
  · rw [hs.log, hlog]
    rfl
  · rw [hs.samples, ← hs.empty.samples]
    exact h.samples
  · intro i _
    rw [stepsOf_concat_none ha]
    exact h.absent i hs.empty.no_worker
  · intro i y hy
    obtain ⟨s, rfl⟩ := hs.fresh i y hy
    obtain ⟨hu, hn⟩ := h.absent i hs.empty.no_worker
    refine ⟨freshWorker s, .inr ⟨hu, s, rfl⟩, ?_⟩
    rw [stepsOf_concat_none ha, hn]
    exact .still _

theorem WoundDown.affect (h : WoundDown u as w es) (ha : a.worker? = some j) (hx : w.workers[j]? = some x)
    (hw : WorkerStep w j x a e) : WoundDown u (as ++ [a]) (w.affect j e) (e.entries ++ es) := by
  have size : (w.affect j e).workers.size = w.workers.size := Array.size_setIfInBounds
  refine ⟨?_, ?_, h.stopped, ?_, ?_, ?_⟩
  · rw [List.append_assoc, ← h.log]
    rfl
  · rw [samples_affect, h.samples, recorded_append, hw.recorded, List.reverse_append, List.append_assoc]
    cases e.sample <;> rfl
  · intro entry he
    rw [size]
    rcases List.mem_append.1 he with he | he
    · rw [hw.entries_own entry he]
      exact (Array.getElem?_eq_some_iff.1 hx).1
    · exact h.owners entry he
  · intro i hi
    rw [workers_affect hx] at hi
    split at hi
    · cases hi
    · rename_i hj
      rw [stepsOf_concat_other ha hj]
      exact h.absent i hi
  · intro i y hy
    rw [workers_affect hx] at hy
    split at hy
    · rename_i hj
      subst hj
      cases hy
      obtain ⟨x', hb, hd⟩ := h.winds _ x hx
      refine ⟨x', hb, ?_⟩
      rw [stepsOf_concat_own ha, own_append_own hw.entries_own]
      exact hd.snoc h.stopped hw
    · rename_i hj
      obtain ⟨x', hb, hd⟩ := h.winds i y hy
      refine ⟨x', hb, ?_⟩
      rw [stepsOf_concat_other ha hj, own_append_other hw.entries_own hj]
      exact hd

theorem woundDown_of_run (o : u.Orderly) (hs : u.stopped = true) (h : u.run as = some w) :
    w.Orderly ∧ ∃ es, WoundDown u as w es := by
  refine run_induction (P := fun bs v => v.Orderly ∧ ∃ es, WoundDown u bs v es) ?_ ?_ h
  · refine ⟨o, [], ⟨rfl, ?_, hs, (fun entry he => nomatch he), fun i hi => ⟨hi, rfl⟩, fun i y hy => ⟨y, .inl hy, .still y⟩⟩⟩
    exact (List.append_nil _).symm
  · rintro bs v a v' _ ⟨ho, es, hd⟩ hstep
    refine ⟨ho.step hstep, ?_⟩
    rcases ho.cases hstep with ⟨ha, hq | hset⟩ | ⟨i, x, e, ha, hx, hw, rfl⟩
    · exact ⟨es, hd.quiet ha hq⟩
    · exact ⟨es, hd.setsUp ha hset⟩
    · exact ⟨_, hd.affect ha hx hw⟩

end World

end LedgerLoad.Load
