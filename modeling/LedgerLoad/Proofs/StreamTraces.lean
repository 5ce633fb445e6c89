import LedgerLoad.Proofs.RunnerSteps
import LedgerLoad.Proofs.StreamRecords

/-!
A stream workload puts on record what the grammar of records allows, and gives the units of work that go with it.

What a turn makes of a workload is said once, and each law is kept by every turn: the record is in order and goes with
the phase, the units of work are successes, at most one failure and then one end, and nothing comes after that end. All
of that holds however time passes and whenever a stop is requested.
-/

set_option autoImplicit false

namespace LedgerLoad

/-- How a phase goes with the record that led to it. -/
def StreamPhase.Stands (rate : Nat) (record : List Seen) : StreamPhase → Prop
  | .start => record = []
  | .unstopped => Sight.clock.Follows rate record ∧ subscribed record = false
  | .ready => (Sight.asked rate).Follows rate record
  | .subscribing => Sight.opened.Follows rate record
  | .looking _ | .parked _ | .received _ => Sight.flag.Follows rate record ∧ subscribed record = true
  | .lookingClock _ => Sight.clock.Follows rate record ∧ subscribed record = true
  | .lookingItem _ => Sight.nothing.Follows rate record
  | .failing e => (Sight.judged e).Follows rate record
  | .done why => ∃ x ∈ record.head?, x.Ends why

def StreamPhase.urgent : StreamPhase → Bool
  | .unstopped | .ready | .lookingClock _ | .lookingItem _ | .failing _ => true
  | _ => false

def Turn.disturbs : Turn → Bool
  | .pass _ | .signal => true
  | _ => false

def Turn.requests : Turn → Bool
  | .next => true
  | _ => false

def Turn.answering (reply : Except TargetError Unit) (item : StreamItem) : List Turn :=
  [.work, .subscribe, .wake, .answer reply, .look (some item)]

/-- How many turns of its own and of the target are left until a unit of work is done. -/
def StreamPhase.distance : StreamPhase → Nat
  | .start => 8
  | .unstopped => 7
  | .ready => 6
  | .subscribing | .parked _ => 5
  | .looking _ => 4
  | .lookingClock _ => 3
  | .lookingItem _ => 2
  | .received _ | .failing _ | .done _ => 1

theorem StreamPhase.distance_bounds (p : StreamPhase) : 0 < p.distance ∧ p.distance ≤ 8 := by
  cases p <;> simp [distance]

def StreamPhase.notes : StreamPhase → Bool
  | .received _ => true
  | _ => false

variable {rate : Nat} {x : Seen} {r newer : List Seen} {p p' : StreamPhase} {why f : Finish} {v : View}

theorem StreamPhase.Stands.not_ends (h : p.Stands rate (x :: r)) (hp : ∀ why, p ≠ .done why) : ¬x.Ends f := by
  cases p with
  | done why => exact absurd rfl (hp why)
  | start => cases h
  | unstopped | looking last | parked last | received last | lookingClock last => exact h.1.not_ends
  | ready => exact Sight.Follows.not_ends h
  | subscribing => exact Sight.Follows.not_ends h
  | lookingItem last => exact Sight.Follows.not_ends h
  | failing e => exact Sight.Follows.not_ends h

theorem StreamPhase.Stands.done_iff (h : p.Stands rate r) (hr : Lawful rate r) : p = .done f ↔ ∃ x ∈ r, x.Ends f := by
  constructor
  · rintro rfl
    obtain ⟨x, hx, he⟩ := h
    exact ⟨x, List.mem_of_mem_head? hx, he⟩
  · rintro ⟨x, hx, he⟩
    obtain ⟨y, older, rfl⟩ := List.exists_cons_of_ne_nil (List.ne_nil_of_mem hx)
    rcases List.mem_cons.1 hx with rfl | hx
    · by_cases hp : ∃ why, p = .done why
      · obtain ⟨why, rfl⟩ := hp
        obtain ⟨y, hy, hw⟩ := h
        cases hy
        rw [he.unique hw]
      · exact absurd he (h.not_ends fun why hw => hp ⟨why, hw⟩)
    · exact absurd he (not_ends_of_older hr hx)

/-! ### Turns -/

namespace StreamWorkload

/-- What a turn makes of the phase of a workload that is asked for a unit of work: what is put on record, what is given,
and where it stands then. -/
inductive Moves (v : View) (rate : Nat) : StreamPhase → Turn → Option Sight → Option WorkUnit → StreamPhase → Prop where
  | cancels (hs : v.stopped = true) :
      Moves v rate .start .work (some .flag) (some (.finished .requestedCancellation)) (.done .requestedCancellation)
  | passesFlag (hs : v.stopped = false) : Moves v rate .start .work (some .flag) none .unstopped
  | elapses (hd : v.deadline ≤ v.now) :
      Moves v rate .unstopped .work (some .clock) (some (.finished .elapsed)) (.done .elapsed)
  | passesClock (hd : v.now < v.deadline) : Moves v rate .unstopped .work (some .clock) none .ready
  | subscribes : Moves v rate .ready .subscribe (some (.asked rate)) none .subscribing
  | opened : Moves v rate .subscribing (.answer (.ok ())) (some .opened) none (.looking none)
  | refused (e : TargetError) : Moves v rate .subscribing (.answer (.error e)) (some (.refused e)) none (.failing e)
  | cancelsOpen (last : Option Nat) (hs : v.stopped = true) :
      Moves v rate (.looking last) .work (some .flag) (some (.finished .requestedCancellation))
        (.done .requestedCancellation)
  | passesFlagOpen (last : Option Nat) (hs : v.stopped = false) :
      Moves v rate (.looking last) .work (some .flag) none (.lookingClock last)
  | elapsesOpen (last : Option Nat) (hd : v.deadline ≤ v.now) :
      Moves v rate (.lookingClock last) .work (some .clock) (some (.finished .elapsed)) (.done .elapsed)
  | passesClockOpen (last : Option Nat) (hd : v.now < v.deadline) :
      Moves v rate (.lookingClock last) .work (some .clock) none (.lookingItem last)
  | parks (last : Option Nat) : Moves v rate (.lookingItem last) (.look none) (some .nothing) none (.parked last)
  | receives (last : Option Nat) :
      Moves v rate (.lookingItem last) (.look (some .event)) (some (.handed .event)) none (.received last)
  | fails (last : Option Nat) (e : TargetError) :
      Moves v rate (.lookingItem last) (.look (some (.error e))) (some (.handed (.error e))) none (.failing e)
  | closes (last : Option Nat) :
      Moves v rate (.lookingItem last) (.look (some .close)) (some (.handed .close)) (some (.finished .exhausted))
        (.done .exhausted)
  | wakes (last : Option Nat) : Moves v rate (.parked last) .wake none none (.looking last)
  | times (last : Option Nat) :
      Moves v rate (.received last) .work none (some (.sample (.succeeded (Load.World.gap last v.now) v.stamp)))
        (.looking (some v.now))
  | cancelsFailure (e : TargetError) (hs : v.stopped = true) :
      Moves v rate (.failing e) .work (some (.judged e)) (some (.finished .requestedCancellation))
        (.done .requestedCancellation)
  | reports (e : TargetError) (hs : v.stopped = false) :
      Moves v rate (.failing e) .work (some (.judged e)) (some (.sample (.failed Span.zero e.message v.stamp)))
        (.done .unexpectedStreamFailure)
  | repeats (why : Finish) : Moves v rate (.done why) .work none (some (.finished why)) (.done why)

def moved (s : StreamWorkload) (sight : Option Sight) (unit : Option WorkUnit) (p : StreamPhase) : StreamWorkload :=
  { s with
    phase := p
    busy := unit.isNone
    record := (sight.map (Seen.mk s.view)).toList ++ s.record
    given := unit.toList ++ s.given }

inductive Turns (s : StreamWorkload) : Turn → StreamWorkload → Prop where
  | passes (n : Nat) : Turns s (.pass n) { s with now := s.now + n }
  | signalled : Turns s .signal { s with stopped := true }
  | requested (hb : s.busy = false) : Turns s .next { s with busy := true }
  | moves {t : Turn} {sight : Option Sight} {unit : Option WorkUnit} {p : StreamPhase} (hb : s.busy = true)
      (hm : Moves s.view s.rate s.phase t sight unit p) : Turns s t (s.moved sight unit p)

variable {s s' u : StreamWorkload} {t : Turn} {ts more : List Turn} {sight : Option Sight} {unit : Option WorkUnit}

theorem step_of_moves (hb : s.busy = true) (h : Moves s.view s.rate s.phase t sight unit p) :
    s.step t = some (s.moved sight unit p) := by
  obtain ⟨rate, deadline, now, stopped, phase, busy, record, given⟩ := s
  cases hb
  cases h with
  | cancels hs | passesFlag hs | cancelsOpen last hs | passesFlagOpen last hs | cancelsFailure e hs | reports e hs =>
    cases hs
    rfl
  | elapses hd | elapsesOpen last hd =>
    have late : deadline ≤ now := hd
    simp [step, proceed, StreamPhase.advance, StreamPhase.finish, late, StreamPhase.glance, settle, note, moved, view]
  | passesClock hd | passesClockOpen last hd =>
    have ahead : ¬deadline ≤ now := Nat.not_le.2 hd
    simp [step, proceed, StreamPhase.advance, ahead, StreamPhase.glance, settle, note, moved, view]
  | times last => cases last <;> rfl
  | _ => rfl

theorem turns_of_moves (hb : s.busy = true) (h : s.step t = some s') (hm : Moves s.view s.rate s.phase t sight unit p) :
    Turns s t s' := by
  rw [step_of_moves hb hm] at h
  cases h
  exact .moves hb hm

theorem turns_of_work (hb : s.busy = true) (h : s.step .work = some s') : Turns s .work s' := by
  obtain ⟨rate, deadline, now, stopped, phase, busy, record, given⟩ := s
  cases hb
  cases phase with
  | start =>
    cases stopped with
    | true => exact turns_of_moves rfl h (.cancels rfl)
    | false => exact turns_of_moves rfl h (.passesFlag rfl)
  | looking last =>
    cases stopped with
    | true => exact turns_of_moves rfl h (.cancelsOpen last rfl)
    | false => exact turns_of_moves rfl h (.passesFlagOpen last rfl)
  | failing e =>
    cases stopped with
    | true => exact turns_of_moves rfl h (.cancelsFailure e rfl)
    | false => exact turns_of_moves rfl h (.reports e rfl)
  | unstopped =>
    rcases Nat.lt_or_ge now deadline with hd | hd
    · exact turns_of_moves rfl h (.passesClock hd)
    · exact turns_of_moves rfl h (.elapses hd)
  | lookingClock last =>
    rcases Nat.lt_or_ge now deadline with hd | hd
    · exact turns_of_moves rfl h (.passesClockOpen last hd)
    · exact turns_of_moves rfl h (.elapsesOpen last hd)
  | received last => exact turns_of_moves rfl h (.times last)
  | done why => exact turns_of_moves rfl h (.repeats why)
  | ready | subscribing | lookingItem last | parked last => cases h

theorem turns_of_heard (hb : s.busy = true) (h : s.step t = some s') (ht : t ≠ .work)
    (inside : s.step t = s.proceed t) : Turns s t s' := by
  have heard : s.proceed t = some s' := by rw [← inside, h]
  obtain ⟨rate, deadline, now, stopped, phase, busy, record, given⟩ := s
  cases hb
  cases t with
  | work => exact absurd rfl ht
  | subscribe =>
    cases phase with
    | ready => exact turns_of_moves rfl h .subscribes
    | _ => cases heard
  | answer reply =>
    cases phase with
    | subscribing =>
      match reply with
      | .ok () => exact turns_of_moves rfl h .opened
      | .error e => exact turns_of_moves rfl h (.refused e)
    | _ => cases heard
  | look item =>
    cases phase with
    | lookingItem last =>
      match item with
      | none => exact turns_of_moves rfl h (.parks last)
      | some .event => exact turns_of_moves rfl h (.receives last)
      | some (.error e) => exact turns_of_moves rfl h (.fails last e)
      | some .close => exact turns_of_moves rfl h (.closes last)
    | _ => cases heard
  | wake =>
    cases phase with
    | parked last => exact turns_of_moves rfl h (.wakes last)
    | _ => cases heard
  | pass n | signal | next => cases heard

theorem turns_of_step (h : s.step t = some s') : Turns s t s' := by
  cases t with
  | pass n =>
    cases h
    exact .passes n
  | signal =>
    cases h
    exact .signalled
  | next =>
    cases hb : s.busy with
    | true => simp [step, hb] at h
    | false =>
      simp only [step, hb, Bool.false_eq_true, ↓reduceIte, Option.some.injEq] at h
      subst h
      exact .requested hb
  | work | subscribe | answer reply | look item | wake =>
    cases hb : s.busy with
    | false => simp [step, hb] at h
    | true => first | exact turns_of_work hb h | exact turns_of_heard hb h nofun (by simp [step, hb])

theorem run_preserves {P : StreamWorkload → Prop} (keeps : ∀ s t s', P s → Turns s t s' → P s') (start : P s)
    (h : s.run ts = some s') : P s' := by
  induction ts generalizing s with
  | nil =>
    cases h
    exact start
  | cons t ts ih =>
    obtain ⟨u, hu, rest⟩ := Option.bind_eq_some_iff.1 h
    exact ih (keeps s t u start (turns_of_step hu)) rest

/-! ### What every turn keeps -/

/-- The record is in order and goes with the phase, and only a workload that is asked for something is on its way. -/
structure Coherent (s : StreamWorkload) : Prop where
  lawful : Lawful s.rate s.record
  stands : s.phase.Stands s.rate s.record
  idle : s.busy = false → s.phase = .start ∨ (∃ last, s.phase = .looking last) ∨ ∃ why, s.phase = .done why

theorem Moves.lawful (h : Moves v rate p t sight unit p') (hp : p.Stands rate r) (hr : Lawful rate r) :
    Lawful rate ((sight.map (Seen.mk v)).toList ++ r) := by
  cases h with
  | cancels hs | passesFlag hs =>
    cases hp
    exact ⟨.first, hr⟩
  | cancelsOpen last hs | passesFlagOpen last hs | elapses hd | passesClock hd | elapsesOpen last hd
  | passesClockOpen last hd => exact ⟨hp.1, hr⟩
  | subscribes | opened | parks last | cancelsFailure e hs | reports e hs => exact ⟨hp, hr⟩
  | refused e =>
    cases hp with
    | opens n => exact ⟨.refuses n e, hr⟩
  | receives last | fails last e | closes last =>
    cases hp with
    | finds hd old => exact ⟨.hands _ hd old, hr⟩
  | wakes last | times last | repeats why => exact hr

theorem Moves.stands (h : Moves v rate p t sight unit p') (hp : p.Stands rate r) :
    p'.Stands rate ((sight.map (Seen.mk v)).toList ++ r) := by
  cases h with
  | cancels hs | cancelsOpen last hs => exact ⟨_, rfl, .stopSeen hs⟩
  | elapses hd | elapsesOpen last hd => exact ⟨_, rfl, .timeUp hd⟩
  | closes last => exact ⟨_, rfl, .closed⟩
  | cancelsFailure e hs => exact ⟨_, rfl, .torn e hs⟩
  | reports e hs => exact ⟨_, rfl, .failed e hs⟩
  | passesFlag hs =>
    cases hp
    exact ⟨.clock hs, rfl⟩
  | passesClock hd => exact .asks hd hp.2
  | subscribes => exact .opens rate
  | opened => exact ⟨.listens, by cases hp; rfl⟩
  | refused e => exact .judgesRefusal e
  | passesFlagOpen last hs => exact ⟨.clock hs, hp.2⟩
  | passesClockOpen last hd => exact .finds hd hp.2
  | parks last =>
    cases hp with
    | finds hd old => exact ⟨.wakes, old⟩
  | receives last =>
    cases hp with
    | finds hd old => exact ⟨.goesOn, old⟩
  | fails last e => exact .judgesError e
  | wakes last | times last | repeats why => exact hp

theorem Moves.rests (h : Moves v rate p t sight unit p') (hu : unit.isNone = false) :
    p' = .start ∨ (∃ last, p' = .looking last) ∨ ∃ why, p' = .done why := by
  cases h with
  | times last => exact .inr (.inl ⟨_, rfl⟩)
  | cancels hs | cancelsOpen last hs | elapses hd | elapsesOpen last hd | closes last | cancelsFailure e hs
  | reports e hs | repeats why => exact .inr (.inr ⟨_, rfl⟩)
  | _ => cases hu

theorem Turns.coherent (hc : s.Coherent) (h : Turns s t s') : s'.Coherent := by
  cases h with
  | passes n | signalled => exact ⟨hc.lawful, hc.stands, hc.idle⟩
  | requested hb => exact ⟨hc.lawful, hc.stands, nofun⟩
  | moves hb hm => exact ⟨hm.lawful hc.stands hc.lawful, hm.stands hc.stands, hm.rests⟩

theorem coherent_fresh (rate deadline now : Nat) (stopped : Bool) : (fresh rate deadline now stopped).Coherent :=
  ⟨trivial, rfl, fun _ => .inl rfl⟩

theorem Coherent.run (hc : s.Coherent) (h : s.run ts = some s') : s'.Coherent :=
  run_preserves (fun _ _ _ hc ht => ht.coherent hc) hc h

/-! ### The units of work -/

/-- What a workload has given that stands at `p` with a record: one success for each event, at most one failure, of the
error that was judged to be one, and then its end for as long as it was asked. -/
structure Phrased (r : List Seen) (p : StreamPhase) (us : List WorkUnit) (events failures : List Sample)
    (ends : List Finish) : Prop where
  units : us = events.map .sample ++ failures.map .sample ++ ends.map .finished
  successes : ∀ x ∈ events, x.success = true
  heard : r.countP (fun x => x.sight = .handed .event) = events.length + p.notes.toNat
  judged : ∀ x ∈ failures, ∃ v e, ⟨v, .judged e⟩ ∈ r ∧ v.stopped = false ∧ x = .failed Span.zero e.message v.stamp
  atMost : failures.length ≤ 1
  failed : failures ≠ [] ↔ p = .done .unexpectedStreamFailure
  ended : ∀ g ∈ ends, p = .done g

variable {us : List WorkUnit} {events failures : List Sample} {ends : List Finish}

theorem Phrased.only_events (h : Phrased r p us events failures ends) (hp : ∀ why, p ≠ .done why) :
    failures = [] ∧ ends = [] := by
  constructor
  · exact Decidable.not_not.1 fun some => hp _ (h.failed.1 some)
  · exact List.eq_nil_iff_forall_not_mem.2 fun g hg => hp g (h.ended g hg)

theorem Phrased.goes (h : Phrased r p us events failures ends) (hp : ∀ why, p ≠ .done why)
    (hp' : ∀ why, p' ≠ .done why) (hn : p.notes = false)
    (new : newer.countP (fun x => x.sight = .handed .event) = p'.notes.toNat) :
    Phrased (newer ++ r) p' (us ++ []) events failures ends := by
  obtain ⟨rfl, rfl⟩ := h.only_events hp
  refine ⟨by simp [h.units], h.successes, ?_, nofun, h.atMost, iff_of_false (by simp) (hp' _), nofun⟩
  rw [List.countP_append, h.heard, new, hn]
  exact Nat.add_comm _ _

theorem Phrased.finishes (h : Phrased r p us events failures ends) (hp : ∀ why, p ≠ .done why) (hn : p.notes = false)
    (new : newer.countP (fun x => x.sight = .handed .event) = 0) (hf : f ≠ .unexpectedStreamFailure) :
    Phrased (newer ++ r) (.done f) (us ++ [.finished f]) events [] [f] := by
  obtain ⟨rfl, rfl⟩ := h.only_events hp
  refine ⟨by simp [h.units], h.successes, ?_, nofun, h.atMost, iff_of_false (by simp) (by simp [hf]), by simp⟩
  rw [List.countP_append, h.heard, new, hn]
  exact Nat.zero_add _

theorem Moves.phrased (h : Moves v rate p t sight unit p') (hu : Phrased r p us events failures ends) :
    ∃ events failures ends,
      Phrased ((sight.map (Seen.mk v)).toList ++ r) p' (us ++ unit.toList) events failures ends := by
  cases h with
  | passesFlag hs | passesClock hd | subscribes | opened | refused e | passesFlagOpen last hs | passesClockOpen last hd
  | parks last | receives last | fails last e | wakes last => exact ⟨_, _, _, hu.goes nofun nofun rfl rfl⟩
  | cancels hs | cancelsOpen last hs | elapses hd | elapsesOpen last hd | closes last | cancelsFailure e hs =>
    exact ⟨_, _, _, hu.finishes nofun rfl rfl nofun⟩
  | times last =>
    obtain ⟨rfl, rfl⟩ := hu.only_events nofun
    refine ⟨events ++ [.succeeded (Load.World.gap last v.now) v.stamp], [], [], ?_, ?_, ?_, nofun, hu.atMost,
      iff_of_false (by simp) nofun, nofun⟩
    · simp [hu.units]
    · intro x hx
      rcases List.mem_append.1 hx with hx | hx
      · exact hu.successes x hx
      · rw [List.mem_singleton.1 hx]
        rfl
    · rw [List.length_append]
      exact hu.heard
  | reports e hs =>
    obtain ⟨rfl, rfl⟩ := hu.only_events nofun
    refine ⟨events, [.failed Span.zero e.message v.stamp], [], ?_, hu.successes, hu.heard, ?_, Nat.le_refl 1,
      iff_of_true (by simp) rfl, nofun⟩
    · simp [hu.units]
    · intro x hx
      exact ⟨v, e, List.mem_cons_self, hs, List.mem_singleton.1 hx⟩
  | repeats why =>
    refine ⟨events, failures, ends ++ [why], ?_, hu.successes, hu.heard, hu.judged, hu.atMost, hu.failed, ?_⟩
    · simp [hu.units]
    · intro g hg
      rcases List.mem_append.1 hg with hg | hg
      · exact hu.ended g hg
      · rw [List.mem_singleton.1 hg]

theorem results_moved (s : StreamWorkload) : (s.moved sight unit p).results = s.results ++ unit.toList := by
  cases unit <;> simp [results, moved]

theorem phrased_of_run {deadline now : Nat} {stopped : Bool} (h : (fresh rate deadline now stopped).run ts = some s) :
    ∃ events failures ends, Phrased s.record s.phase s.results events failures ends := by
  refine run_preserves (P := fun s => ∃ events failures ends, Phrased s.record s.phase s.results events failures ends)
    ?_ ⟨[], [], [], rfl, nofun, rfl, nofun, Nat.zero_le 1, by simp [fresh], nofun⟩ h
  rintro s t s' ⟨events, failures, ends, hu⟩ ht
  cases ht with
  | passes n | signalled | requested hb => exact ⟨events, failures, ends, hu⟩
  | moves hb hm =>
    rw [results_moved]
    exact hm.phrased hu

/-! ### What an end is put down to -/

theorem Coherent.attributed (h : s.Coherent) (hf : s.phase = .done f) : Attributed s.record f := by
  refine attributed_of_ends fun g => ?_
  rw [← h.stands.done_iff h.lawful, hf, StreamPhase.done.injEq]

/-! ### Workloads that nothing disturbs -/

def waits (s : StreamWorkload) : Bool :=
  !s.busy || match s.phase with
    | .subscribing | .parked _ => true
    | _ => false

def undisturbed (s : StreamWorkload) : List Turn → Bool
  | [] => true
  | t :: ts => (!t.disturbs || s.waits) && (s.step t).all fun s' => s'.undisturbed ts

/-- The entries of one attempt are of one instant, and so is the next as long as the workload does not wait. -/
structure Attentive (s : StreamWorkload) : Prop where
  prompt : Prompt s.record
  current : s.phase.urgent = true → ∀ x ∈ s.record.head?, x.view = s.view

theorem Moves.urgent (h : Moves v rate p t sight unit p') :
    (∀ x ∈ sight, x.prompt = true → p.urgent = true) ∧ (p'.urgent = true → sight.isSome = true) := by
  cases h <;> simp [Sight.prompt, StreamPhase.urgent]

theorem Coherent.calm (hc : s.Coherent) (hw : s.waits = true) : s.phase.urgent = false := by
  cases hb : s.busy with
  | false => rcases hc.idle hb with hp | ⟨last, hp⟩ | ⟨why, hp⟩ <;> rw [hp] <;> rfl
  | true =>
    rw [waits, hb] at hw
    cases hp : s.phase with
    | start | subscribing | looking last | parked last | received last | done why => rfl
    | unstopped | ready | lookingClock last | lookingItem last | failing e =>
      rw [hp] at hw
      cases hw

theorem Turns.attentive (hc : s.Coherent) (ha : s.Attentive) (h : Turns s t s')
    (waited : t.disturbs = true → s.waits = true) : s'.Attentive := by
  cases h with
  | passes n | signalled =>
    refine ⟨ha.prompt, fun urgent => ?_⟩
    rw [show s.phase.urgent = false from hc.calm (waited rfl)] at urgent
    cases urgent
  | requested hb => exact ⟨ha.prompt, ha.current⟩
  | @moves _ sight unit p' hb hm =>
    obtain ⟨before, after⟩ := hm.urgent
    cases sight with
    | none => exact ⟨ha.prompt, fun urgent => nomatch after urgent⟩
    | some x =>
      refine ⟨⟨fun hx => ha.current (before x rfl hx), ha.prompt⟩, fun _ y hy => ?_⟩
      cases hy
      rfl

theorem attentive_of_run (hc : s.Coherent) (ha : s.Attentive) (h : s.run ts = some s') (quiet : s.undisturbed ts = true) :
    s'.Attentive := by
  induction ts generalizing s with
  | nil =>
    cases h
    exact ha
  | cons t ts ih =>
    obtain ⟨u, hu, rest⟩ := Option.bind_eq_some_iff.1 h
    have turn := turns_of_step hu
    simp only [undisturbed, hu, Option.all_some, Bool.and_eq_true, Bool.or_eq_true, Bool.not_eq_true'] at quiet
    obtain ⟨waited, quiet⟩ := quiet
    refine ih (turn.coherent hc) (turn.attentive hc ha fun disturbs => ?_) rest quiet
    rw [disturbs] at waited
    exact waited.resolve_left nofun

theorem Coherent.punctual (h : s.Coherent) (hp : Prompt s.record) (hf : s.phase = .done f) : Punctual s.record f := by
  have law := h.lawful
  have attributed := h.attributed hf
  have stands := h.stands
  rw [hf] at stands
  obtain ⟨x, hx, he⟩ := stands
  have last : ∀ y ∈ s.record.head?, y.Ends f := fun y hy => by
    cases hx.symm.trans hy
    exact he
  refine ⟨fun v n hv => in_time law hp hv (.inl ⟨n, rfl⟩), attributed.failure.trans ⟨?_, ?_⟩,
    attributed.closed.trans ⟨?_, ?_⟩, x, hx, last_of_ends law hp hx he attributed⟩
  · rintro ⟨v, e, hv, hs⟩
    refine ⟨v, e, hs, (error_of_judged law hp hv).imp_right fun handed => ⟨handed, ?_⟩⟩
    exact (in_time law hp handed (.inr ⟨_, rfl⟩)).2
  · rintro ⟨v, e, hs, refused | ⟨handed, _⟩⟩
    · exact ⟨v, e, judged_of_error law hp refused (.inl rfl) last, hs⟩
    · exact ⟨v, e, judged_of_error law hp handed (.inr rfl) last, hs⟩
  · rintro ⟨v, hv⟩
    exact ⟨v, hv, in_time law hp hv (.inr ⟨_, rfl⟩)⟩
  · rintro ⟨v, hv, _⟩
    exact ⟨v, hv⟩

/-! ### What comes later -/

structure Later (s s' : StreamWorkload) : Prop where
  record : ∃ newer, s'.record = newer ++ s.record ∧
    ∀ x ∈ newer, (s.stopped = true → x.view.stopped = true) ∧ s.now ≤ x.view.now ∧ x.view.deadline = s.deadline
  stopped : s.stopped = true → s'.stopped = true
  now : s.now ≤ s'.now
  deadline : s'.deadline = s.deadline
  rate : s'.rate = s.rate

theorem Turns.later (hl : Later u s) (h : Turns s t s') : Later u s' := by
  cases h with
  | passes n => exact ⟨hl.record, hl.stopped, Nat.le_trans hl.now (Nat.le_add_right _ _), hl.deadline, hl.rate⟩
  | signalled => exact ⟨hl.record, fun _ => rfl, hl.now, hl.deadline, hl.rate⟩
  | requested hb => exact ⟨hl.record, hl.stopped, hl.now, hl.deadline, hl.rate⟩
  | @moves _ sight unit p' hb hm =>
    refine ⟨?_, hl.stopped, hl.now, hl.deadline, hl.rate⟩
    obtain ⟨newer, same, since⟩ := hl.record
    refine ⟨(sight.map (Seen.mk s.view)).toList ++ newer, by simp [moved, same], fun x hx => ?_⟩
    rcases List.mem_append.1 hx with hx | hx
    · obtain ⟨y, _, rfl⟩ := Option.map_eq_some_iff.1 (Option.mem_toList.1 hx)
      exact ⟨hl.stopped, hl.now, hl.deadline⟩
    · exact since x hx

theorem later_of_run (h : s.run ts = some s') : Later s s' := by
  have start : Later s s := ⟨⟨[], rfl, nofun⟩, id, Nat.le_refl _, rfl, rfl⟩
  exact run_preserves (fun _ _ _ hl ht => ht.later hl) start h

structure Over (f : Finish) (s s' : StreamWorkload) : Prop where
  phase : s'.phase = .done f
  record : s'.record = s.record
  results : ∃ n, s'.results = s.results ++ List.replicate n (.finished f)

theorem Turns.over (ho : Over f u s) (h : Turns s t s') : Over f u s' := by
  cases h with
  | passes n | signalled | requested hb => exact ⟨ho.phase, ho.record, ho.results⟩
  | moves hb hm =>
    have phase := ho.phase
    obtain ⟨n, results⟩ := ho.results
    rw [phase] at hm
    cases hm with
    | repeats why =>
      refine ⟨rfl, ho.record, n + 1, ?_⟩
      rw [results_moved, results, List.replicate_succ', List.append_assoc]
      rfl

theorem unsubscribed_of_run (hc : s'.Coherent) (h : s.run ts = some s') (hr : s.record = [])
    (hs : s.stopped = true ∨ s.deadline ≤ s.now) : subscribed s'.record = false := by
  obtain ⟨newer, same, since⟩ := (later_of_run h).record
  rw [hr, List.append_nil] at same
  rw [same, subscribed, List.any_eq_false]
  rintro ⟨v, sight⟩ hx asks
  cases sight with
  | asked n =>
    have law : Lawful s'.rate newer := by
      rw [← same]
      exact hc.lawful
    obtain ⟨⟨w, hw, unstopped⟩, z, hz, ahead⟩ := looks_before_asking law hx
    rcases hs with hs | hs
    · have stopped : w.stopped = true := (since _ hw).1 hs
      rw [unstopped] at stopped
      cases stopped
    · obtain ⟨_, now, deadline⟩ := since _ hz
      have late : z.deadline ≤ z.now := by
        rw [show z.deadline = s.deadline from deadline]
        exact Nat.le_trans hs now
      exact Nat.not_le.2 ahead late
  | _ => cases asks

/-- Once a stop is requested, nothing is taken for a failure any more. -/
theorem unfailing_of_run (hc : s.Coherent) (hc' : s'.Coherent) (h : s.run ts = some s') (hs : s.stopped = true)
    (hp : s.phase ≠ .done .unexpectedStreamFailure) : s'.phase ≠ .done .unexpectedStreamFailure := by
  intro failed
  obtain ⟨v, e, hx, unstopped⟩ := (hc'.attributed failed).failure.1 rfl
  obtain ⟨newer, same, since⟩ := (later_of_run h).record
  rw [same] at hx
  rcases List.mem_append.1 hx with hx | hx
  · have stopped : v.stopped = true := (since _ hx).1 hs
    rw [unstopped] at stopped
    cases stopped
  · exact hp ((hc.stands.done_iff hc.lawful).2 ⟨_, hx, .failed e unstopped⟩)

theorem over_of_run (hf : s.phase = .done f) (h : s.run ts = some s') : Over f s s' := by
  have start : Over f s s := ⟨hf, rfl, 0, by simp⟩
  exact run_preserves (fun _ _ _ ho ht => ht.over ho) start h

/-! ### Requests and answers -/

theorem Moves.requests (h : Moves v rate p t sight unit p') : t.requests = false := by
  cases h <;> rfl

/-- Each request is answered by one unit of work, the last one perhaps not yet. -/
theorem results_of_requests (h : s.run ts = some s') :
    s'.results.length + s'.busy.toNat = s.results.length + s.busy.toNat + ts.countP Turn.requests := by
  induction ts generalizing s with
  | nil =>
    cases h
    rfl
  | cons t ts ih =>
    obtain ⟨u, hu, rest⟩ := Option.bind_eq_some_iff.1 h
    rw [ih rest, List.countP_cons]
    cases turns_of_step hu with
    | passes n | signalled => rfl
    | requested hb => simp [hb, Turn.requests, results]; omega
    | @moves _ sight unit p' hb hm =>
      rw [results_moved, hm.requests]
      cases unit <;> simp [moved, hb]

theorem exists_move (v : View) (rate : Nat) (p : StreamPhase) (reply : Except TargetError Unit) (item : StreamItem) :
    ∃ t ∈ Turn.answering reply item, ∃ sight unit p',
      Moves v rate p t sight unit p' ∧ ((∃ u, unit = some u) ∨ unit = none ∧ p'.distance < p.distance) := by
  cases p with
  | start =>
    cases hs : v.stopped with
    | true => exact ⟨.work, by simp [Turn.answering], _, _, _, .cancels hs, .inl ⟨_, rfl⟩⟩
    | false => exact ⟨.work, by simp [Turn.answering], _, _, _, .passesFlag hs, .inr ⟨rfl, by decide⟩⟩
  | unstopped =>
    rcases Nat.lt_or_ge v.now v.deadline with hd | hd
    · exact ⟨.work, by simp [Turn.answering], _, _, _, .passesClock hd, .inr ⟨rfl, by decide⟩⟩
    · exact ⟨.work, by simp [Turn.answering], _, _, _, .elapses hd, .inl ⟨_, rfl⟩⟩
  | ready => exact ⟨.subscribe, by simp [Turn.answering], _, _, _, .subscribes, .inr ⟨rfl, by decide⟩⟩
  | subscribing =>
    refine ⟨.answer reply, by simp [Turn.answering], ?_⟩
    match reply with
    | .ok () => exact ⟨_, _, _, .opened, .inr ⟨rfl, by decide⟩⟩
    | .error e => exact ⟨_, _, _, .refused e, .inr ⟨rfl, by simp [StreamPhase.distance]⟩⟩
  | looking last =>
    cases hs : v.stopped with
    | true => exact ⟨.work, by simp [Turn.answering], _, _, _, .cancelsOpen last hs, .inl ⟨_, rfl⟩⟩
    | false =>
      exact ⟨.work, by simp [Turn.answering], _, _, _, .passesFlagOpen last hs, .inr ⟨rfl, by simp [StreamPhase.distance]⟩⟩
  | lookingClock last =>
    rcases Nat.lt_or_ge v.now v.deadline with hd | hd
    · exact ⟨.work, by simp [Turn.answering], _, _, _, .passesClockOpen last hd, .inr ⟨rfl, by simp [StreamPhase.distance]⟩⟩
    · exact ⟨.work, by simp [Turn.answering], _, _, _, .elapsesOpen last hd, .inl ⟨_, rfl⟩⟩
  | lookingItem last =>
    refine ⟨.look (some item), by simp [Turn.answering], ?_⟩
    match item with
    | .event => exact ⟨_, _, _, .receives last, .inr ⟨rfl, by simp [StreamPhase.distance]⟩⟩
    | .error e => exact ⟨_, _, _, .fails last e, .inr ⟨rfl, by simp [StreamPhase.distance]⟩⟩
    | .close => exact ⟨_, _, _, .closes last, .inl ⟨_, rfl⟩⟩
  | parked last =>
    exact ⟨.wake, by simp [Turn.answering], _, _, _, .wakes last, .inr ⟨rfl, by simp [StreamPhase.distance]⟩⟩
  | received last => exact ⟨.work, by simp [Turn.answering], _, _, _, .times last, .inl ⟨_, rfl⟩⟩
  | failing e =>
    cases hs : v.stopped with
    | true => exact ⟨.work, by simp [Turn.answering], _, _, _, .cancelsFailure e hs, .inl ⟨_, rfl⟩⟩
    | false => exact ⟨.work, by simp [Turn.answering], _, _, _, .reports e hs, .inl ⟨_, rfl⟩⟩
  | done why => exact ⟨.work, by simp [Turn.answering], _, _, _, .repeats why, .inl ⟨_, rfl⟩⟩

/-- A workload that is asked for something has a turn to take, whatever the target says to it. -/
theorem answers_or_nears (hb : s.busy = true) (reply : Except TargetError Unit) (item : StreamItem) :
    ∃ t ∈ Turn.answering reply item, ∃ s', s.step t = some s' ∧
      ((∃ u, s'.results = s.results ++ [u]) ∨
        s'.busy = true ∧ s'.results = s.results ∧ s'.phase.distance < s.phase.distance) := by
  obtain ⟨t, ht, sight, unit, p', hm, hu⟩ := exists_move s.view s.rate s.phase reply item
  refine ⟨t, ht, _, step_of_moves hb hm, ?_⟩
  rw [results_moved]
  rcases hu with ⟨u, rfl⟩ | ⟨rfl, nearer⟩
  · exact .inl ⟨u, rfl⟩
  · exact .inr ⟨rfl, List.append_nil _, nearer⟩

theorem answered {n : Nat} (hb : s.busy = true) (hn : s.phase.distance ≤ n) (reply : Except TargetError Unit)
    (item : StreamItem) : ∃ ts s' u, s.run ts = some s' ∧ s'.results = s.results ++ [u] ∧ ts.length ≤ n ∧
      ∀ t ∈ ts, t ∈ Turn.answering reply item := by
  induction n generalizing s with
  | zero =>
    have far := s.phase.distance_bounds
    omega
  | succ n ih =>
    obtain ⟨t, ht, s', hs, ⟨u, hu⟩ | ⟨busy, same, nearer⟩⟩ := answers_or_nears hb reply item
    · refine ⟨[t], s', u, by simp [run, hs], hu, by simp, fun t' ht' => ?_⟩
      rw [List.mem_singleton.1 ht']
      exact ht
    · obtain ⟨ts, w, u, hw, hu, few, all⟩ := ih busy (by omega)
      refine ⟨t :: ts, w, u, by simp [run, hs, hw], by rw [hu, same], by simp [few], fun t' ht' => ?_⟩
      rcases List.mem_cons.1 ht' with rfl | ht'
      · exact ht
      · exact all t' ht'

/-! ### The law -/

/-- What a stream workload gives is some successes, one for each event, at most one failure, and then one end again and
again. It asks for one subscription at most, at its rate, and for none once a stop is requested or the deadline has
passed. It ends with a failure if and only if it judged an error with no stop in sight, and with a close if and only if
it was handed one; else a stop that it saw or a deadline that it saw pass has ended it. If nothing disturbs it, that is
told by the instant at which it heard of the error or of the close, and by its last instant. Once it has come to its
end it asks for nothing and looks at nothing. -/
theorem trace_of_requests {rate deadline now : Nat} {stopped : Bool} {ts : List Turn} {s : StreamWorkload}
    (h : (fresh rate deadline now stopped).run ts = some s) :
    (∃ events failures ends, Phrased s.record s.phase s.results events failures ends) ∧
    s.results.length + s.busy.toNat = ts.countP Turn.requests ∧
    (s.busy = true → ∀ (reply : Except TargetError Unit) (item : StreamItem), ∃ more s' u,
      s.run more = some s' ∧ s'.results = s.results ++ [u] ∧ more.length ≤ 8 ∧
      ∀ t ∈ more, t ∈ Turn.answering reply item) ∧
    Lawful rate s.record ∧
    s.record.countP (fun x => x.sight.asks) ≤ 1 ∧
    (∀ v n, ⟨v, .asked n⟩ ∈ s.record → n = rate) ∧
    (∀ f, s.phase = .done f → Attributed s.record f) ∧
    ((fresh rate deadline now stopped).undisturbed ts = true → ∀ f, s.phase = .done f → Punctual s.record f) ∧
    (∀ (more : List Turn) (s' : StreamWorkload), s.run more = some s' →
      (∀ f, s.phase = .done f → Over f s s') ∧
      (s.record = [] → s.stopped = true ∨ s.deadline ≤ s.now → subscribed s'.record = false) ∧
      (s.stopped = true → s.phase ≠ .done .unexpectedStreamFailure → s'.phase ≠ .done .unexpectedStreamFailure)) := by
  have start := coherent_fresh rate deadline now stopped
  have coherent : s.Coherent := start.run h
  have law : Lawful rate s.record := by
    have same : s.rate = rate := (later_of_run h).rate
    rw [← same]
    exact coherent.lawful
  have once : s.record.countP (fun x => x.sight.asks) ≤ 1 := by
    rw [countP_asks law]
    exact Bool.toNat_le _
  have requests := results_of_requests h
  have nothing : (fresh rate deadline now stopped).results.length + (fresh rate deadline now stopped).busy.toNat = 0 :=
    rfl
  refine ⟨phrased_of_run h, by omega, fun busy reply item => ?_, law, once, fun v n hx => rate_of_asked law hx,
    fun f hf => coherent.attributed hf, fun quiet f hf => ?_, fun more s' hm => ⟨fun f hf => over_of_run hf hm, ?_, ?_⟩⟩
  · exact answered busy s.phase.distance_bounds.2 reply item
  · exact coherent.punctual (attentive_of_run start ⟨trivial, nofun⟩ h quiet).prompt hf
  · exact unsubscribed_of_run (coherent.run hm) hm
  · exact unfailing_of_run coherent (coherent.run hm) hm

/-- A subscription that is opened late brings one event and then an error. The stop comes after that, and the deadline
passes, and the workload is asked twice more. -/
def reset : List Turn :=
  [.next, .work, .work, .subscribe, .pass 10, .answer (.ok ()), .work, .work, .look none, .pass 5, .wake, .work, .work,
    .look (some .event), .work, .pass 1, .next, .work, .work, .look none, .pass 7, .wake, .work, .work,
    .look (some (.error (.stream "reset"))), .work, .signal, .pass 100, .next, .work, .next, .work]

theorem trace_of_reset : ∃ s, (fresh 25 100 0 false).run reset = some s ∧
    s.results = [.sample (.succeeded Span.zero (View.stamp ⟨false, 15, 100⟩)),
      .sample (.failed Span.zero (TargetError.stream "reset").message (View.stamp ⟨false, 23, 100⟩)),
      .finished .unexpectedStreamFailure, .finished .unexpectedStreamFailure] ∧
    Lawful 25 s.record ∧ ⟨⟨false, 0, 100⟩, .asked 25⟩ ∈ s.record ∧ s.record.countP (fun x => x.sight.asks) ≤ 1 ∧
    ⟨⟨false, 23, 100⟩, .handed (.error (.stream "reset"))⟩ ∈ s.record ∧
    Attributed s.record .unexpectedStreamFailure ∧ Punctual s.record .unexpectedStreamFailure ∧
    ∀ (more : List Turn) (s' : StreamWorkload), s.run more = some s' → Over .unexpectedStreamFailure s s' := by
  obtain ⟨s, h, results, phase, asked, handed⟩ : ∃ s, (fresh 25 100 0 false).run reset = some s ∧
      s.results = [.sample (.succeeded Span.zero (View.stamp ⟨false, 15, 100⟩)),
        .sample (.failed Span.zero (TargetError.stream "reset").message (View.stamp ⟨false, 23, 100⟩)),
        .finished .unexpectedStreamFailure, .finished .unexpectedStreamFailure] ∧
      s.phase = .done .unexpectedStreamFailure ∧ ⟨⟨false, 0, 100⟩, .asked 25⟩ ∈ s.record ∧
      ⟨⟨false, 23, 100⟩, .handed (.error (.stream "reset"))⟩ ∈ s.record := by
    refine ⟨_, rfl, ?_, rfl, ?_, ?_⟩ <;> decide +kernel
  have quiet : (fresh 25 100 0 false).undisturbed reset = true := by decide +kernel
  obtain ⟨_, _, _, lawful, once, _, attributed, punctual, later⟩ := trace_of_requests h
  exact ⟨s, h, results, lawful, asked, once, handed, attributed _ phase, punctual quiet _ phase,
    fun more s' hm => (later more s' hm).1 _ phase⟩

/-- A stop goes before a deadline that has passed, and before an item that is there. -/
example : ((fresh 25 100 0 false).run [.next, .work, .work, .subscribe, .answer (.ok ()), .work, .work, .look none,
    .pass 100, .signal, .wake, .work]).map results = some [.finished .requestedCancellation] := by decide +kernel

end StreamWorkload

end LedgerLoad
