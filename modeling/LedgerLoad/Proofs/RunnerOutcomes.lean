import LedgerLoad.Proofs.RunnerFaults
import LedgerLoad.Proofs.RunnerInduction

/-!
What a worker records of a subscription that brings so many events and then an error.

As long as no stop is requested and the deadline is ahead, a worker records one sample for each item that it is handed, in
order, and it ends only when there is nothing left to be handed. It gets there by itself.
-/

set_option autoImplicit false

namespace LedgerLoad

def StreamItem.outcome : StreamItem → Option (Bool × Option String)
  | .event => some (true, none)
  | .error e => some (false, some e.message)
  | .close => none

def StreamPhase.left : StreamPhase → Nat
  | .start => 7
  | .unstopped => 6
  | .ready => 5
  | .subscribing => 4
  | .looking _ => 3
  | .lookingClock _ => 2
  | .lookingItem _ => 1
  | .parked _ => 4
  | .received _ => 5
  | .failing _ => 4
  | .done _ => 2

def Sample.told (s : Sample) : Bool × Option String := (s.success, s.error)

namespace Load

def Entry.item? : Entry → Option StreamItem
  | .received _ item _ => some item
  | _ => none

def Entry.troubles : Entry → Bool
  | .refused _ _ _ | .panicked _ _ => true
  | _ => false

def heardBy (i : Nat) (es : List Entry) : List StreamItem := ((own i es).filterMap Entry.item?).reverse

def Effect.items (e : Effect) : List StreamItem := (e.entries.filterMap Entry.item?).reverse

namespace Worker

def pending : Worker → List (Bool × Option String)
  | .stream (.received _) => [(true, none)]
  | .stream (.failing e) => [(false, some e.message)]
  | _ => []

def listens : Worker → Bool
  | .stream (.failing _) | .stream (.done _) | .recordingStream _ (.failing _) | .recordingStream _ (.done _) => false
  | .finished _ | .faulted _ => false
  | _ => true

def left : Worker → Nat
  | .stream p => p.left
  | .recordingStream _ p => p.left + 1
  | _ => 0

end Worker

namespace World

variable {u v w w' : World} {a : Action} {as bs : List Action} {i k n : Nat} {x : Worker} {e : Effect} {r : RunCall}
  {accounts : List String} {lost : TargetError}

/-- Nothing but the subscription has ended worker `i`, and nothing else is about to. -/
structure Unhindered (w : World) (i : Nat) : Prop where
  running : w.stopped = false
  early : w.now < w.deadline
  accepted : ∀ e t, .refused i e t ∉ w.log
  steady : ∀ t, .panicked i t ∉ w.log

theorem Unhindered.before (h : w'.Unhindered i) (hr : Remembers w w') (hn : w.now ≤ w'.now) : w.Unhindered i := by
  refine ⟨?_, ?_, fun e t he => h.accepted e t (hr.log _ he), fun t he => h.steady t (hr.log _ he)⟩
  · cases hs : w.stopped with
    | false => rfl
    | true => rw [← hr.stopped hs, h.running]
  · have early := h.early
    rw [hr.deadline] at early
    omega

/-- Every item is told of, or about to be, and a worker goes on for as long as it is handed nothing but events. -/
structure Tells (w : World) (i : Nat) (x : Worker) : Prop where
  told : (heardBy i w.log).filterMap StreamItem.outcome =
    ((recorded (own i w.log)).reverse ++ x.carried.toList).map Sample.told ++ x.pending
  going : x.listens = true → ∀ item ∈ heardBy i w.log, item = .event
  ended : x.listens = false → ∃ item ∈ heardBy i w.log, item ≠ .event

theorem heardBy_affect (h : WorkerStep w i x a e) :
    heardBy i (w.affect i e).log = heardBy i w.log ++ e.items := by
  have entries : own i (w.affect i e).log = e.entries ++ own i w.log := own_append_own h.entries_own
  rw [heardBy, entries, List.filterMap_append, List.reverse_append, heardBy, Effect.items]

theorem recorded_affect (h : WorkerStep w i x a e) :
    (recorded (own i (w.affect i e).log)).reverse = (recorded (own i w.log)).reverse ++ x.carried.toList := by
  have entries : own i (w.affect i e).log = e.entries ++ own i w.log := own_append_own h.entries_own
  rw [entries, recorded_append, h.recorded, h.sample, List.reverse_append]
  cases x.carried <;> rfl

theorem StreamStep.tells (h : StreamStep w i x a e) (serves : x.serves .stream = true)
    (hu : (w.affect i e).Unhindered i) :
    x.pending ++ e.items.filterMap StreamItem.outcome = e.worker.carried.toList.map Sample.told ++ e.worker.pending := by
  cases h with
  | refused error => exact (hu.accepted error w.now List.mem_cons_self).elim
  | cancelsFailure error hs =>
    have running : w.stopped = false := hu.running
    rw [hs] at running
    cases running
  | records s p =>
    cases p with
    | looking last | done why => rfl
    | _ => cases serves
  | _ => rfl

theorem StreamStep.listens (h : StreamStep w i x a e) (serves : x.serves .stream = true)
    (on : e.worker.listens = true) : x.listens = true ∧ ∀ item ∈ e.items, item = .event := by
  cases h with
  | records s p =>
    cases p with
    | looking last => exact ⟨rfl, fun _ hi => nomatch hi⟩
    | done why => cases on
    | _ => cases serves
  | receives last => exact ⟨rfl, fun item hi => List.mem_singleton.1 hi⟩
  | cancels hs | cancelsOpen last hs | elapses hd | elapsesOpen last hd | refused error | panicsSubscribing | panicsOpen last
  | fails last error | closes last | cancelsFailure error hs | reports error hs | repeats why => cases on
  | _ => exact ⟨rfl, fun _ hi => nomatch hi⟩

theorem StreamStep.falls_silent (h : StreamStep w i x a e) (serves : x.serves .stream = true)
    (hu : (w.affect i e).Unhindered i) (off : e.worker.listens = false) :
    x.listens = false ∨ ∃ item ∈ e.items, item ≠ .event := by
  cases h with
  | cancels hs | cancelsOpen last hs =>
    have running : w.stopped = false := hu.running
    rw [hs] at running
    cases running
  | elapses hd | elapsesOpen last hd => exact (Nat.not_lt.2 hd hu.early).elim
  | refused error => exact (hu.accepted error w.now List.mem_cons_self).elim
  | panicsSubscribing | panicsOpen last => exact (hu.steady w.now (List.mem_cons_of_mem _ List.mem_cons_self)).elim
  | fails last error => exact .inr ⟨.error error, List.mem_cons_self, by simp⟩
  | closes last => exact .inr ⟨.close, List.mem_cons_self, by simp⟩
  | cancelsFailure error hs | reports error hs => exact .inl rfl
  | repeats why => exact .inl rfl
  | records s p =>
    cases p with
    | looking last => cases off
    | done why => exact .inl rfl
    | _ => cases serves
  | _ => cases off

theorem Tells.goes (ht : w.Tells i x) (h : StreamStep w i x a e) (serves : x.serves .stream = true)
    (hu : (w.affect i e).Unhindered i) : (w.affect i e).Tells i e.worker := by
  have heard : heardBy i (w.affect i e).log = heardBy i w.log ++ e.items := heardBy_affect (.inr h)
  refine ⟨?_, fun on item hi => ?_, fun off => ?_⟩
  · rw [heard, recorded_affect (.inr h), List.filterMap_append, ht.told, List.append_assoc, h.tells serves hu,
      List.map_append, List.append_assoc]
    simp only [List.map_append, List.append_assoc]
  · obtain ⟨before, new⟩ := h.listens serves on
    rw [heard] at hi
    rcases List.mem_append.1 hi with hi | hi
    · exact ht.going before item hi
    · exact new item hi
  · rw [heard]
    rcases h.falls_silent serves hu off with before | ⟨item, hi, other⟩
    · obtain ⟨item, hi, other⟩ := ht.ended before
      exact ⟨item, List.mem_append_left _ hi, other⟩
    · exact ⟨item, List.mem_append_right _ hi, other⟩

theorem Happens.stopped (h : Happens w a w') (hs : w.stopped = true) : w'.stopped = true := by
  rcases h.cases with outward | ⟨k, early, r, rfl, hr, hc⟩ | ⟨i, x, e, hx, hw, rfl⟩
  · exact outward.toQuiet.stopped hs
  · cases hc <;> exact hs
  · exact hs

theorem Tells.waits (ht : w.Tells i x) (apart : Apart i a w w') : w'.Tells i x := by
  have heard : heardBy i w'.log = heardBy i w.log := by rw [heardBy, apart.own, heardBy]
  refine ⟨?_, ?_, ?_⟩
  · rw [heard, apart.own]
    exact ht.told
  · rw [heard]
    exact ht.going
  · rw [heard]
    exact ht.ended

theorem tells_blank (hl : w.log = []) : w.Tells i (freshWorker .stream) := by
  have heard : heardBy i w.log = [] := by rw [hl]; rfl
  refine ⟨?_, ?_, fun off => nomatch off⟩
  · rw [heard, hl]
    rfl
  · rw [heard]
    exact fun _ _ hi => nomatch hi

theorem tells_of_run (h : (initial accounts).run as = some w) (c : w.ClaimedBy k r) (hs : r.config.scenario = .stream)
    (hx : w.workers[i]? = some x) (hu : w.Unhindered i) : w.Tells i x := by
  refine worker_induction (P := fun _ v x => v.Unhindered i → v.Tells i x) h c hx ?_ ?_ ?_ hu
  · intro bs v early d _ c _ _
    have unstaffed : v.Unstaffed := c.standing.2.1
    rw [hs]
    exact tells_blank unstaffed.log
  · intro bs v a v' x _ happens apart _ _ ih hu
    refine (ih (hu.before ⟨fun entry he => ?_, apart.deadline, fun stopped => ?_⟩ apart.now)).waits apart
    · obtain ⟨es, hes⟩ := apart.grows
      rw [hes]
      exact List.mem_append_right _ he
    · exact happens.stopped stopped
  · intro bs v a x e _ _ serves hw ih hu
    rw [hs] at serves
    exact (ih (hu.before remembers_affect (Nat.le_refl _))).goes (hw.stream serves) serves hu

/-! ### So many events and an error -/

def lostAfter (n : Nat) (lost : TargetError) : List StreamItem := List.replicate n .event ++ [.error lost, .close]

def toldOf (n : Nat) (lost : TargetError) : List (Bool × Option String) :=
  List.replicate n (true, none) ++ [(false, some lost.message)]

theorem outcomes_lostAfter (n : Nat) (lost : TargetError) :
    (lostAfter n lost).filterMap StreamItem.outcome = toldOf n lost := by
  rw [lostAfter, toldOf, List.filterMap_append]
  congr 1
  exact List.filterMap_replicate_of_some rfl

theorem cases_of_heard {items : List StreamItem} (hp : items <+: lostAfter n lost) :
    (items.length ≤ n ∧ items = List.replicate items.length .event) ∨
      (∃ item ∈ items, item ≠ .event) ∧ items.filterMap StreamItem.outcome = toldOf n lost := by
  have parts : lostAfter n lost = (List.replicate n .event ++ [.error lost]) ++ [.close] := by simp [lostAfter]
  have told : (List.replicate n StreamItem.event ++ [StreamItem.error lost]).filterMap StreamItem.outcome = toldOf n lost := by
    rw [← outcomes_lostAfter, parts]
    simp [StreamItem.outcome]
  rw [parts, List.prefix_concat_iff, List.prefix_concat_iff, List.prefix_replicate_iff] at hp
  rcases hp with rfl | rfl | events
  · exact .inr ⟨⟨.close, by simp, by simp⟩, by rw [← parts, outcomes_lostAfter]⟩
  · exact .inr ⟨⟨.error lost, by simp, by simp⟩, told⟩
  · exact .inl events

theorem next_of_going {items : List StreamItem} (hp : items <+: lostAfter n lost) (going : ∀ item ∈ items, item = .event) :
    items ++ [.event] <+: lostAfter n lost ∨ items ++ [.error lost] <+: lostAfter n lost := by
  rcases cases_of_heard hp with ⟨few, events⟩ | ⟨⟨item, hi, other⟩, _⟩
  · rw [events]
    by_cases more : items.length < n
    · left
      have one : List.replicate items.length StreamItem.event ++ [.event] <+: List.replicate n .event := by
        rw [← List.replicate_succ', List.prefix_replicate_iff]
        simpa using Nat.succ_le_of_lt more
      exact one.trans (List.prefix_append _ _)
    · right
      obtain rfl : items.length = n := by omega
      exact ⟨[.close], by simp [lostAfter]⟩
  · exact (other (going item hi)).elim

theorem Tells.of_ended (ht : w.Tells i x) (hp : heardBy i w.log <+: lostAfter n lost) (off : x.listens = false) :
    (heardBy i w.log).filterMap StreamItem.outcome = toldOf n lost := by
  rcases cases_of_heard hp with ⟨_, events⟩ | ⟨_, told⟩
  · obtain ⟨item, hi, other⟩ := ht.ended off
    rw [events] at hi
    exact (other (List.eq_of_mem_replicate hi)).elim
  · exact told

theorem outcomes_of_heard {items : List StreamItem} (hp : items <+: lostAfter n lost) :
    items.filterMap StreamItem.outcome <+: toldOf n lost := by
  rw [← outcomes_lostAfter]
  exact hp.filterMap _

/-! ### Getting to the end -/

structure Advances (n : Nat) (lost : TargetError) (w : World) (i : Nat) (x : Worker) (a : Action) (e : Effect) : Prop where
  step : StreamStep w i x a e
  unhindered : (w.affect i e).Unhindered i
  heard : heardBy i (w.affect i e).log <+: lostAfter n lost
  nearer : 8 * (heardBy i w.log).length + e.worker.left < 8 * (heardBy i (w.affect i e).log).length + x.left

theorem Unhindered.affect (hu : w.Unhindered i) (calm : e.entries.all (!·.troubles) = true) :
    (w.affect i e).Unhindered i := by
  refine ⟨hu.running, hu.early, fun error t he => ?_, fun t he => ?_⟩
  · rcases List.mem_append.1 he with he | he
    · exact Bool.false_ne_true (List.all_eq_true.1 calm _ he)
    · exact hu.accepted error t he
  · rcases List.mem_append.1 he with he | he
    · exact Bool.false_ne_true (List.all_eq_true.1 calm _ he)
    · exact hu.steady t he

/-- A worker goes on by itself, with what its subscription has next when it looks at it. -/
theorem advances (hu : w.Unhindered i) (ht : w.Tells i x) (hp : heardBy i w.log <+: lostAfter n lost)
    (serves : x.serves .stream = true) (live : x.terminated = false) : ∃ a e, Advances n lost w i x a e := by
  have alone : ∀ {a e}, StreamStep w i x a e → e.items = [] → e.worker.left < x.left →
      e.entries.all (!·.troubles) = true → ∃ a e, Advances n lost w i x a e := by
    intro a e step nothing nearer calm
    have heard : heardBy i (w.affect i e).log = heardBy i w.log := by
      rw [heardBy_affect (.inr step), nothing, List.append_nil]
    exact ⟨a, e, step, hu.affect calm, by rwa [heard], by rw [heard]; omega⟩
  cases x with
  | stream p =>
    cases p with
    | start => exact alone (.passesFlag hu.running) rfl (Nat.lt_succ_self _) rfl
    | unstopped => exact alone (.passesClock hu.early) rfl (Nat.lt_succ_self _) rfl
    | ready => exact alone .subscribes rfl (Nat.lt_succ_self _) rfl
    | subscribing => exact alone .opened rfl (Nat.lt_succ_self _) rfl
    | looking last => exact alone (.passesFlagOpen last hu.running) rfl (Nat.lt_succ_self _) rfl
    | lookingClock last => exact alone (.passesClockOpen last hu.early) rfl (Nat.lt_succ_self _) rfl
    | lookingItem last =>
      have hands : ∀ {a e} (item : StreamItem), StreamStep w i (.stream (.lookingItem last)) a e → e.items = [item] →
          e.worker.left ≤ 5 → heardBy i w.log ++ [item] <+: lostAfter n lost → e.entries.all (!·.troubles) = true →
          ∃ a e, Advances n lost w i (.stream (.lookingItem last)) a e := by
        intro a e item step one near hp calm
        have heard : heardBy i (w.affect i e).log = heardBy i w.log ++ [item] := by rw [heardBy_affect (.inr step), one]
        have length : (heardBy i (w.affect i e).log).length = (heardBy i w.log).length + 1 := by rw [heard]; simp
        exact ⟨a, e, step, hu.affect calm, by rwa [heard], by rw [length]; omega⟩
      rcases next_of_going hp (ht.going rfl) with more | last'
      · exact hands .event (.receives last) rfl (Nat.le_refl 5) more rfl
      · exact hands (.error lost) (.fails last lost) rfl (Nat.le_succ 4) last' rfl
    | parked last => exact alone (.wakes last) rfl (Nat.lt_succ_self _) rfl
    | received last => exact alone (.times last) rfl (Nat.lt_succ_self _) rfl
    | failing error => exact alone (.reports error hu.running) rfl (Nat.lt_succ_self _) rfl
    | done why => exact alone (.repeats why) rfl (Nat.zero_lt_succ _) rfl
  | recordingStream s p => exact alone (.records s p) rfl (Nat.lt_succ_self _) rfl
  | balance p | recordingBalance s p => cases serves
  | finished why | faulted fault => cases live

/-- A worker that nothing hinders gets to its end by itself, without any time: an item brings it back by at most four
steps, and there are no more than `n + 2` of them. -/
theorem reaches_end (m : Nat) (hu : w.Unhindered i) (ht : w.Tells i x) (hp : heardBy i w.log <+: lostAfter n lost)
    (hx : w.workers[i]? = some x) (serves : x.serves .stream = true)
    (hm : 8 * (n + 2) + x.left < 8 * (heardBy i w.log).length + m) :
    ∃ bs v y, w.run bs = some v ∧ (∀ a ∈ bs, a.worker? = some i) ∧ v.workers[i]? = some y ∧ y.terminated = true ∧
      v.Tells i y ∧ heardBy i v.log <+: lostAfter n lost := by
  induction m generalizing w x with
  | zero =>
    have length := hp.length_le
    simp only [lostAfter, List.length_append, List.length_replicate, List.length_cons, List.length_nil] at length
    omega
  | succ m ih =>
    cases ended : x.terminated with
    | true => exact ⟨[], w, x, rfl, fun _ h => (nomatch h), hx, ended, ht, hp⟩
    | false =>
      obtain ⟨a, e, next⟩ := advances hu ht hp serves ended
      have there : (w.affect i e).workers[i]? = some e.worker := by rw [workers_affect hx, if_pos rfl]
      have nearer := next.nearer
      have tells := ht.goes next.step serves next.unhindered
      obtain ⟨bs, v, y, hrun, mine, rest⟩ := ih next.unhindered tells next.heard there (next.step.serves serves) (by omega)
      refine ⟨a :: bs, v, y, ?_, ?_, rest⟩
      · rw [run, step_of_happens (.worked hx (.inr next.step))]
        exact hrun
      · rintro b (_ | ⟨_, hb⟩)
        · exact WorkerStep.worker (.inr next.step)
        · exact mine b hb

/-- A worker whose subscription is lost after `n` events records no more than `n` successes and one failure in that order,
and exactly these by the time it is gone, unless a stop, the deadline or a fault of the target comes first. It gets there
from wherever it stands, without any time and with nobody else's help. -/
theorem tells_of_lost_subscription (h : (initial accounts).run as = some w) (c : w.ClaimedBy k r)
    (hs : r.config.scenario = .stream) (hx : w.workers[i]? = some x) (hu : w.Unhindered i)
    (hp : heardBy i w.log <+: lostAfter n lost) :
    (yields i (initial accounts) as).map Sample.told <+: toldOf n lost ∧
      (x.terminated = true → (yields i (initial accounts) as).map Sample.told = toldOf n lost) ∧
      ∃ bs v y, (initial accounts).run (as ++ bs) = some v ∧ (∀ a ∈ bs, a.worker? = some i) ∧
        v.workers[i]? = some y ∧ y.terminated = true ∧
        (yields i (initial accounts) (as ++ bs)).map Sample.told = toldOf n lost := by
  have complete : ∀ {cs v y}, (initial accounts).run cs = some v → v.workers[i]? = some y → y.terminated = true →
      v.Tells i y → heardBy i v.log <+: lostAfter n lost →
      (yields i (initial accounts) cs).map Sample.told = toldOf n lost := by
    intro cs v y hv hy ended ht hp
    have silent : y.listens = false ∧ y.pending = [] := by cases y <;> first | exact ⟨rfl, rfl⟩ | cases ended
    have told := ht.told
    rw [ht.of_ended hp silent.1, silent.2, List.append_nil] at told
    rw [yields_of_run i hv, hy, Option.bind_some, told]
  have tells := tells_of_run h c hs hx hu
  have serves : x.serves .stream = true := by
    rw [← hs]
    exact (c.standing.staffed hx).1.serve i x hx
  refine ⟨?_, fun ended => complete h hx ended tells hp, ?_⟩
  · have told := tells.told
    have upTo : (yields i (initial accounts) as).map Sample.told <+: (heardBy i w.log).filterMap StreamItem.outcome := by
      rw [told, yields_of_run i h, hx]
      exact List.prefix_append _ _
    exact upTo.trans (outcomes_of_heard hp)
  · have room := Nat.lt_add_left (8 * (heardBy i w.log).length) (Nat.lt_succ_self (8 * (n + 2) + x.left))
    obtain ⟨bs, v, y, hrun, mine, hy, ended, ht, hp⟩ := reaches_end _ hu tells hp hx serves room
    have whole := run_append_eq_some.2 ⟨w, h, hrun⟩
    exact ⟨bs, v, y, whole, mine, hy, ended, complete whole hy ended ht hp⟩

end World

end Load

end LedgerLoad
