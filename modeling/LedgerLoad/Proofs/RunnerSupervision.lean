import LedgerLoad.Load.Supervision
import LedgerLoad.Proofs.MonitorReadings
import LedgerLoad.Proofs.RunnerPunctuality

/-!
A monitored runner and the same runner without monitors.

Take the monitors and their figures away, and what is left of a schedule of the one is a schedule of the other; and whatever
the runner could do without monitors it can do with them. Monitors only look on, then: no call waits for them, and each one
that is over hands over the figures of what its own monitor has read.
-/

set_option autoImplicit false

namespace LedgerLoad.Load

def RunCall.bare (r : RunCall) : RunCall := { r with monitored := false }

namespace World

variable {u v w w' : World} {a : Action} {i j k : Nat} {x : Worker} {e : Effect} {r c : RunCall} {early : Bool}
  {p : RunPhase}

def bare (w : World) : World :=
  { w with sink := { w.sink with resources := none }, runs := w.runs.map RunCall.bare }

/-! ### Steps of the runner -/

theorem runs_bare : w.bare.runs[k]? = (w.runs[k]?).map RunCall.bare := Array.getElem?_map

theorem bare_initial (accounts : List String) : (initial accounts).bare = initial accounts := by
  simp [bare, initial]

theorem bare_setRun : (w.setRun k p).bare = w.bare.setRun k p := by
  have same : (w.runs.modify k fun r => { r with phase := p }).map RunCall.bare =
      (w.runs.map RunCall.bare).modify k fun r => { r with phase := p } := by
    refine Array.ext_getElem? fun j => ?_
    rw [Array.getElem?_map, Array.getElem?_modify, Array.getElem?_modify, Array.getElem?_map]
    split
    · rw [Option.map_map, Option.map_map]
      rfl
    · rfl
  simp only [bare, setRun, same]

theorem call_of_setRun (h : (w.setRun k p).runs[j]? = some c) :
    (k = j ∧ ∃ r, w.runs[k]? = some r ∧ c = { r with phase := p }) ∨ (k ≠ j ∧ w.runs[j]? = some c) := by
  rw [runs_setRun] at h
  split at h
  · rename_i same
    subst same
    obtain ⟨r, hr, rfl⟩ := Option.map_eq_some_iff.1 h
    exact .inl ⟨rfl, r, hr, rfl⟩
  · rename_i other
    exact .inr ⟨other, h⟩

theorem bare_ite {c : Prop} [Decidable c] {yes no yes' no' : Option World} (hy : yes.map bare = yes')
    (hn : no.map bare = no') : (if c then yes else no).map bare = if c then yes' else no' := by
  split
  · exact hy
  · exact hn

/-- A call goes the same way without its monitor, up to where it would hand over. -/
theorem advanceRun_bare (h : ∀ result, r.phase = .over result → r.monitored = false) :
    (w.advanceRun k early r).map bare = w.bare.advanceRun k early r.bare := by
  have goes : ∀ (v : World) (p : RunPhase), (some (v.setRun k p)).map bare = some (v.bare.setRun k p) :=
    fun v p => congrArg some bare_setRun
  have phase : r.bare.phase = r.phase := rfl
  unfold World.advanceRun
  rw [phase]
  cases hp : r.phase with
  | entered =>
    have scenario : r.bare.config.scenario = r.config.scenario := rfl
    dsimp only
    rw [scenario]
    cases r.config.scenario with
    | stream => exact goes _ _
    | balance =>
      have same : AccountPool.ofList w.bare.accounts = AccountPool.ofList w.accounts := rfl
      dsimp only
      rw [same]
      cases AccountPool.ofList w.accounts <;> exact goes _ _
  | checked pool | claimed pool => exact bare_ite (goes _ _) (goes _ _)
  | waiting d => exact bare_ite (goes _ _) (bare_ite (goes _ _) rfl)
  | joining => exact bare_ite (goes _ _) rfl
  | «over» result =>
    have plain : r.monitored = false := h result hp
    have plain' : r.bare.monitored = false := rfl
    simp only [plain, plain']
    exact goes _ _
  | returned result | panicked => rfl
  | started d | stoppedEarly d | starting d | noticed | joined faults | ended faults | closing faults => exact goes _ _

theorem WorkerStep.of_same (h : WorkerStep w i x a e) (view : v.view = w.view) (pool : v.pool = w.pool)
    (poisoned : v.poisoned = w.poisoned) (rate : v.rate = w.rate) : WorkerStep v i x a e := by
  cases v
  cases w
  simp only [World.view, View.mk.injEq] at view pool poisoned rate
  obtain ⟨stopped, now, deadline⟩ := view
  subst stopped now deadline pool poisoned rate
  rcases h with h | h
  · exact .inl (by cases h <;> constructor <;> assumption)
  · exact .inr (by cases h <;> constructor <;> assumption)

theorem affect_bare : (w.affect i e).bare = w.bare.affect i e := by
  cases hs : e.sample <;> simp [affect, bare, hs, Sink.add]

theorem worked_bare (ha : a.worker? = some i) : (w.step a).map bare = w.bare.step a := by
  refine Option.ext fun v => ?_
  rw [Option.map_eq_some_iff]
  constructor
  · rintro ⟨w', hw, rfl⟩
    obtain ⟨x, e, hx, step, rfl⟩ := (happens_of_step hw).worker ha
    rw [affect_bare]
    have hx' : w.bare.workers[i]? = some x := hx
    exact step_of_happens (.worked hx' (step.of_same rfl rfl rfl rfl))
  · intro hv
    obtain ⟨x, e, hx, step, rfl⟩ := (happens_of_step hv).worker ha
    have hx' : w.workers[i]? = some x := hx
    exact ⟨w.affect i e, step_of_happens (.worked hx' (step.of_same rfl rfl rfl rfl)), affect_bare⟩

/-- Everything but a call that is over and monitored goes the same way without monitors. -/
theorem step_bare (plain : a.plain = true) (h : ∀ k early r result, a = .advanceRun k early → w.runs[k]? = some r →
    r.phase = .over result → r.monitored = false) : (w.step a).map bare = w.bare.step a := by
  cases a with
  | pass n | signal | stop => rfl
  | stopMoves => exact bare_ite rfl rfl
  | run config monitored | attach k stats => cases plain
  | advanceRun k early =>
    change Option.map _ ((w.runs[k]?).bind _) = (w.bare.runs[k]?).bind _
    rw [runs_bare]
    cases hr : w.runs[k]? with
    | none => rfl
    | some r => exact advanceRun_bare fun result hp => h k early r result rfl hr hp
  | work i | call i n | answer i reply | subscribe i | look i item | wake i | panic i => exact worked_bare rfl

/-- A step changes how far one call has come, if anything about calls. None returns that has a monitor. -/
theorem runs_plain (plain : a.plain = true) (h : Happens w a w') :
    w'.sink.resources = w.sink.resources ∧ (w'.runs = w.runs ∨ ∃ k r q, w.runs[k]? = some r ∧ w'.runs = (w.setRun k q).runs ∧
      (∀ result, r.phase ≠ .returned result) ∧ (r.monitored = true → ∀ result, q ≠ .returned result)) := by
  cases h with
  | passes | signalled | stopCalled | stopMoves => exact ⟨rfl, .inl rfl⟩
  | runCalled | attached => cases plain
  | @called k early r _ hr hc =>
    cases hc with
    | needsNoPool hp | findsPool hp | lacksPool hp | claims hp | comesLate hp | begins hp | leavesRange hp | seesStop hp
    | seesNoStop hp | saysStop hp | staffs hp | joinsFirst hp | notices hp | saysNotice hp | joins hp | notesEnd hp
    | saysEnd hp | closes hp => exact ⟨rfl, .inr ⟨k, r, _, hr, rfl, by simp [hp], fun _ _ same => by cases same⟩⟩
    | returns hp hm => exact ⟨rfl, .inr ⟨k, r, _, hr, rfl, by simp [hp], fun monitored => by simp [hm] at monitored⟩⟩
  | @worked i x a e hx hw =>
    refine ⟨?_, .inl rfl⟩
    cases hs : e.sample <;> simp [affect, hs, Sink.add]

end World

/-- What an event is to the runner without monitors: a look is nothing to it, and a call hands over by returning. -/
def Event.bare : Event → List Action
  | .run config _ => [.run config false]
  | .look _ _ => []
  | .handOver k => [.advanceRun k false]
  | .other a => [a]

namespace Supervision

variable {s s' t : Supervision} {e : Event} {es fs : List Event} {j k : Nat} {r : RunCall} {m : Monitor}
  {result : Except RunnerError Unit} {accounts : List String} {a : Action} {v w : World}

inductive Occurs (s : Supervision) : Event → Supervision → Prop where
  | run (config : WorkloadConfig) (interval : Option Nat) :
      Occurs s (.run config interval)
        { world := { s.world with runs := s.world.runs.push { config := config, monitored := interval.isSome } }
          monitors := s.monitors.push (interval.map fun p => Monitor.start p s.world.now) }
  | look (k : Nat) (p : Probe) {m : Monitor} (hm : s.monitors[k]? = some (some m)) (listening : m.listening = true)
      (due : m.due ≤ s.world.now) :
      Occurs s (.look k p) { s with monitors := s.monitors.set! k (some (m.look s.world.now p)) }
  | handOver (k : Nat) {m : Monitor} {r : RunCall} {result : Except RunnerError Unit}
      (hm : s.monitors[k]? = some (some m)) (hr : s.world.runs[k]? = some r) (hp : r.phase = .over result)
      (monitored : r.monitored = true) :
      Occurs s (.handOver k)
        { world := { s.world with sink := s.world.sink.setResources m.figures }.setRun k (.returned result)
          monitors := s.monitors.set! k (some m.stop) }
  | other {a : Action} {w : World} (plain : a.plain = true) (h : World.Happens s.world a w) :
      Occurs s (.other a) { s with world := w }

theorem occurs_of_step (h : s.step e = some s') : Occurs s e s' := by
  cases e with
  | run config interval =>
    cases h
    exact .run config interval
  | look k p =>
    obtain ⟨m?, hm, looked⟩ := Option.bind_eq_some_iff.1 h
    obtain ⟨m, rfl, looks⟩ := Option.bind_eq_some_iff.1 looked
    split at looks
    · rename_i ready
      rw [Bool.and_eq_true, decide_eq_true_iff] at ready
      cases looks
      exact .look k p hm ready.1 ready.2
    · cases looks
  | handOver k =>
    obtain ⟨m?, hm, handed⟩ := Option.bind_eq_some_iff.1 h
    obtain ⟨m, rfl, hands⟩ := Option.bind_eq_some_iff.1 handed
    obtain ⟨w, hw, returns⟩ := Option.bind_eq_some_iff.1 hands
    cases returns
    cases World.happens_of_step hw with
    | attached k stats hr hp monitored => exact .handOver k hm hr hp monitored
    | worked _ works => cases works.worker
  | other a =>
    change (if a.plain then _ else none) = some s' at h
    split at h
    · rename_i plain
      obtain ⟨w, hw, rfl⟩ := Option.map_eq_some_iff.1 h
      exact .other plain (World.happens_of_step hw)
    · cases h

theorem step_of_occurs (h : Occurs s e s') : s.step e = some s' := by
  cases h with
  | run config interval => rfl
  | look k p hm listening due => simp [step, hm, listening, due]
  | @handOver k m r result hm hr hp monitored =>
    have attached := World.step_of_happens (.attached k m.figures hr hp monitored)
    simp only [step, hm, Option.bind_eq_bind, Option.bind_some]
    rw [attached]
    rfl
  | other plain h => simp [step, plain, World.step_of_happens h]

/-! ### Along a schedule -/

theorem run_cons_eq_some : s.run (e :: es) = some s' ↔ ∃ t, s.step e = some t ∧ t.run es = some s' :=
  Option.bind_eq_some_iff

theorem run_preserves {P : Supervision → Prop} (step : ∀ s e s', P s → Occurs s e s' → P s') (start : P s)
    (h : s.run es = some s') : P s' := by
  induction es generalizing s with
  | nil =>
    cases h
    exact start
  | cons e es ih =>
    obtain ⟨t, ht, h⟩ := run_cons_eq_some.1 h
    exact ih (step s e t start (occurs_of_step ht)) h

theorem Occurs.bare (h : Occurs s e s') : s.world.bare.run e.bare = some s'.world.bare := by
  have one : ∀ {v w : World} {a : Action}, v.step a = some w → v.run [a] = some w := fun hv =>
    World.run_cons_eq_some.2 ⟨_, hv, rfl⟩
  cases h with
  | run config interval =>
    refine one (congrArg some ?_)
    simp [World.bare, RunCall.bare]
  | look k p => rfl
  | @handOver k m r result hm hr hp monitored =>
    have found : s.world.bare.runs[k]? = some r.bare := by rw [World.runs_bare, hr]; rfl
    refine one ((World.step_of_happens (.called k false found (.returns hp rfl))).trans (congrArg some ?_))
    rw [World.bare_setRun]
    rfl
  | @other a w plain h =>
    refine one ?_
    have same := World.step_bare (w := s.world) plain fun k early r result ha hr hp => by
      subst ha
      cases h with
      | called k early hs hc =>
        rw [hr] at hs
        cases hs
        cases hc with
        | returns _ hm => exact hm
        | _ => simp_all
      | worked _ works => cases works.worker
    rw [← same, World.step_of_happens h]
    rfl

theorem run_bare (h : s.run es = some s') : s.world.bare.run (es.flatMap Event.bare) = some s'.world.bare := by
  induction es generalizing s with
  | nil =>
    cases h
    rfl
  | cons e es ih =>
    obtain ⟨t, ht, h⟩ := run_cons_eq_some.1 h
    rw [List.flatMap_cons]
    exact World.run_append_eq_some.2 ⟨t.world.bare, (occurs_of_step ht).bare, ih h⟩

/-! ### What is kept of calls and monitors -/

/-- A monitored call has a monitor, which is stopped when the call returns and not before; any other call has none. -/
def Attends (r : RunCall) : Option Monitor → Prop
  | none => r.monitored = false
  | some m => r.monitored = true ∧ m.Keeps ∧ (m.stopped = true ↔ ∃ result, r.phase = .returned result)

structure Attended (s : Supervision) : Prop where
  size : s.monitors.size = s.world.runs.size
  each : ∀ (k : Nat) (r : RunCall) (m? : Option Monitor), s.world.runs[k]? = some r → s.monitors[k]? = some m? → Attends r m?

theorem Attends.advance {m? : Option Monitor} {q : RunPhase} (h : Attends r m?) (before : ∀ result, r.phase ≠ .returned result)
    (after : r.monitored = true → ∀ result, q ≠ .returned result) : Attends { r with phase := q } m? := by
  cases m? with
  | none => exact h
  | some m =>
    obtain ⟨monitored, keeps, stopped⟩ := h
    refine ⟨monitored, keeps, ?_⟩
    rw [stopped]
    constructor
    · rintro ⟨result, ended⟩
      exact (before result ended).elim
    · rintro ⟨result, ended⟩
      exact (after monitored result ended).elim

theorem monitor_of_set {monitors : Array (Option Monitor)} {m? n? : Option Monitor}
    (h : (monitors.set! k m?)[j]? = some n?) : (k = j ∧ n? = m?) ∨ (k ≠ j ∧ monitors[j]? = some n?) := by
  rw [Array.set!_eq_setIfInBounds, Array.getElem?_setIfInBounds] at h
  split at h
  · rename_i same
    split at h
    · exact .inl ⟨same, (Option.some.inj h).symm⟩
    · cases h
  · rename_i other
    exact .inr ⟨other, h⟩

theorem attended_initial : (initial accounts).Attended :=
  ⟨rfl, fun k r m? hr => by simp [initial, World.initial] at hr⟩

theorem Attended.monitor (h : s.Attended) (hr : s.world.runs[k]? = some r) (monitored : r.monitored = true) :
    ∃ m, s.monitors[k]? = some (some m) ∧ m.Keeps ∧ (m.stopped = true ↔ ∃ result, r.phase = .returned result) := by
  have inside : k < s.monitors.size := by
    rw [h.size]
    exact (Array.getElem?_eq_some_iff.1 hr).1
  have attends := h.each k r _ hr (Array.getElem?_eq_getElem inside)
  rw [Array.getElem?_eq_getElem inside]
  cases hm : s.monitors[k] with
  | none =>
    rw [hm] at attends
    have alone : r.monitored = false := attends
    rw [monitored] at alone
    cases alone
  | some m =>
    rw [hm] at attends
    exact ⟨m, rfl, attends.2⟩

theorem Attended.occurs (h : s.Attended) (o : Occurs s e s') : s'.Attended := by
  cases o with
  | run config interval =>
    refine ⟨by simp [h.size], fun k r m? hr hm => ?_⟩
    rw [Array.getElem?_push] at hr hm
    by_cases last : k = s.world.runs.size
    · rw [if_pos last] at hr
      rw [if_pos (last.trans h.size.symm)] at hm
      cases hr
      cases hm
      cases interval with
      | none => rfl
      | some p => exact ⟨rfl, Monitor.keeps_start, by simp [Monitor.start]⟩
    · rw [if_neg last] at hr
      rw [if_neg fun he => last (he.trans h.size)] at hm
      exact h.each k r m? hr hm
  | @look k p m hm listening due =>
    refine ⟨by simp [h.size], fun j r m? hr hj => ?_⟩
    obtain ⟨rfl, rfl⟩ | ⟨_, hj⟩ := monitor_of_set hj
    · obtain ⟨monitored, keeps, stopped⟩ := h.each k r _ hr hm
      exact ⟨monitored, keeps.look (Monitor.alive_of_listening listening), stopped⟩
    · exact h.each j r m? hr hj
  | @handOver k m r result hm hr hp monitored =>
    refine ⟨by simp [h.size, World.setRun], fun j c m? hc hj => ?_⟩
    obtain ⟨rfl, rfl⟩ | ⟨other, hj⟩ := monitor_of_set hj
    · obtain ⟨_, x, hx, rfl⟩ | ⟨other, _⟩ := World.call_of_setRun hc
      · obtain rfl := Option.some.inj (hr.symm.trans hx)
        exact ⟨monitored, (h.each k r _ hr hm).2.1, iff_of_true rfl ⟨result, rfl⟩⟩
      · exact (other rfl).elim
    · obtain ⟨same, _⟩ | ⟨_, hc⟩ := World.call_of_setRun hc
      · exact (other same).elim
      · exact h.each j c m? hc hj
  | @other a w plain happens =>
    rcases (World.runs_plain plain happens).2 with same | ⟨k, r, q, hr, runs, before, after⟩
    · exact ⟨by rw [same]; exact h.size, fun k r m? hr hm => h.each k r m? (by rw [← same]; exact hr) hm⟩
    · refine ⟨by rw [runs]; simp [World.setRun, h.size], fun j c m? hc hm => ?_⟩
      change w.runs[j]? = some c at hc
      rw [runs] at hc
      obtain ⟨rfl, x, hx, rfl⟩ | ⟨_, hc⟩ := World.call_of_setRun hc
      · obtain rfl := Option.some.inj (hr.symm.trans hx)
        exact (h.each k r m? hr hm).advance before after
      · exact h.each j c m? hc hm

/-! ### What the runner can do without monitors, it can do with them -/

theorem occurs_of_bare (h : s.Attended) (plain : a.plain = true) (hv : s.world.bare.step a = some v) :
    ∃ e s', s.step e = some s' ∧ s'.world.bare = v ∧
      (e = .other a ∨ ∃ k early, a = .advanceRun k early ∧ e = .handOver k) := by
  by_cases handsOver : ∃ k early r result, a = .advanceRun k early ∧ s.world.runs[k]? = some r ∧ r.phase = .over result ∧
      r.monitored = true
  · obtain ⟨k, early, r, result, rfl, hr, hp, monitored⟩ := handsOver
    obtain ⟨m, hm, _⟩ := h.monitor hr monitored
    have found : s.world.bare.runs[k]? = some r.bare := by rw [World.runs_bare, hr]; rfl
    have returns := World.step_of_happens (.called k early found (.returns hp rfl))
    refine ⟨.handOver k, _, step_of_occurs (.handOver k hm hr hp monitored), ?_, .inr ⟨k, early, rfl, rfl⟩⟩
    rw [returns] at hv
    rw [← Option.some.inj hv, World.bare_setRun]
    rfl
  · have same := World.step_bare (w := s.world) plain fun k early r result ha hr hp => by
      rw [← Bool.not_eq_true]
      exact fun monitored => handsOver ⟨k, early, r, result, ha, hr, hp, monitored⟩
    rw [hv] at same
    obtain ⟨w, hw, bare⟩ := Option.map_eq_some_iff.1 same
    exact ⟨.other a, _, step_of_occurs (.other plain (World.happens_of_step hw)), bare, .inl rfl⟩

/-! ### Monitors that nothing keeps waiting -/

def prompt (s : Supervision) : Event → Bool
  | .other (.pass n) => s.monitors.all fun m? => m?.all fun m => !m.listening || decide (s.world.now + n ≤ m.due)
  | _ => true

def punctual (s : Supervision) : List Event → Bool
  | [] => true
  | e :: es => s.prompt e && (s.step e).all fun t => t.punctual es

theorem due_of_prompt {n : Nat} (h : s.prompt (.other (.pass n)) = true) (hm : s.monitors[k]? = some (some m))
    (listening : m.listening = true) : s.world.now + n ≤ m.due := by
  have each := Array.all_eq_true'.1 h (some m) (Array.mem_of_getElem? hm)
  simpa [listening] using each

def Unhindered (s : Supervision) : Prop :=
  ∀ (k : Nat) (m : Monitor), s.monitors[k]? = some (some m) → m.stopped = false → m.Timely s.world.now

theorem Unhindered.occurs (h : s.Unhindered) (prompt : s.prompt e = true) (o : Occurs s e s') : s'.Unhindered := by
  intro j n hj running
  cases o with
  | run config interval =>
    rw [Array.getElem?_push] at hj
    split at hj
    · obtain ⟨p, -, rfl⟩ := Option.map_eq_some_iff.1 (Option.some.inj hj)
      exact Monitor.timely_start
    · exact h j n hj running
  | @look k p m hm listening due =>
    obtain ⟨_, same⟩ | ⟨_, hj⟩ := monitor_of_set hj
    · cases same
      exact (h k m hm running).look (Monitor.alive_of_listening listening) due
    · exact h j n hj running
  | @handOver k m r result hm hr hp monitored =>
    obtain ⟨_, same⟩ | ⟨_, hj⟩ := monitor_of_set hj
    · cases same
      cases running
    · exact h j n hj running
  | @other a w plain happens =>
    by_cases passes : ∃ d, a = .pass d
    · obtain ⟨d, rfl⟩ := passes
      have now : w.now = s.world.now + d := by
        cases happens with
        | passes => rfl
        | worked _ works => cases works.worker
      rw [now]
      refine (h j n hj running).pass (Nat.le_add_right _ _) fun alive => due_of_prompt prompt hj ?_
      rw [Monitor.listening, alive, running]
      rfl
    · have now : w.now = s.world.now := World.now_step happens fun d hd => passes ⟨d, hd⟩
      rw [now]
      exact h j n hj running

theorem unhindered_of_punctual (h : s.Unhindered) (punctual : s.punctual es = true) (hr : s.run es = some s') :
    s'.Unhindered := by
  induction es generalizing s with
  | nil =>
    cases hr
    exact h
  | cons e es ih =>
    obtain ⟨t, ht, hr⟩ := run_cons_eq_some.1 hr
    rw [Supervision.punctual, ht, Bool.and_eq_true] at punctual
    exact ih (h.occurs punctual.1 (occurs_of_step ht)) punctual.2 hr

/-! ### Handing over -/

theorem Occurs.returned (o : Occurs s e s') (hr : s.world.runs[k]? = some r) (hp : r.phase = .returned result) :
    s'.world.runs[k]? = some r := by
  cases o with
  | run config interval =>
    have inside := (Array.getElem?_eq_some_iff.1 hr).1
    rw [Array.getElem?_push, if_neg inside.ne]
    exact hr
  | look => exact hr
  | @handOver j m c x hm hc hover monitored =>
    have other : j ≠ k := by
      rintro rfl
      rw [hr] at hc
      cases hc
      rw [hp] at hover
      cases hover
    rw [World.runs_setRun, if_neg other]
    exact hr
  | @other a w plain happens =>
    rcases (World.runs_plain plain happens).2 with same | ⟨j, c, q, hc, runs, before, _⟩
    · rw [same]
      exact hr
    · have other : j ≠ k := by
        rintro rfl
        rw [hr] at hc
        cases hc
        exact before result hp
      rw [runs, World.runs_setRun, if_neg other]
      exact hr

theorem returned_stays (h : s.run es = some s') (hr : s.world.runs[k]? = some r) (hp : r.phase = .returned result) :
    s'.world.runs[k]? = some r :=
  run_preserves (P := fun t => t.world.runs[k]? = some r) (fun _ _ _ found o => o.returned found hp) hr h

theorem Occurs.resources (o : Occurs s e s') (he : ∀ j, e ≠ .handOver j) :
    s'.world.sink.resources = s.world.sink.resources := by
  cases o with
  | run | look => rfl
  | handOver k => exact (he k rfl).elim
  | other plain happens => exact (World.runs_plain plain happens).1

theorem resources_stay (h : s.run es = some s') (hs : ∀ j, .handOver j ∉ es) :
    s'.world.sink.resources = s.world.sink.resources := by
  induction es generalizing s with
  | nil =>
    cases h
    rfl
  | cons e es ih =>
    obtain ⟨t, ht, h⟩ := run_cons_eq_some.1 h
    rw [ih h fun j hj => hs j (List.mem_cons_of_mem e hj)]
    exact (occurs_of_step ht).resources fun j he => hs j (he ▸ List.mem_cons_self)

def Pending (s : Supervision) (k : Nat) : Prop :=
  ∀ r result, s.world.runs[k]? = some r → r.monitored = true → r.phase ≠ .returned result

theorem Pending.occurs (h : s.Pending k) (o : Occurs s e s') (he : e ≠ .handOver k) : s'.Pending k := by
  intro c x hc monitored
  cases o with
  | run config interval =>
    rw [Array.getElem?_push] at hc
    split at hc
    · cases hc
      exact fun same => by cases same
    · exact h c x hc monitored
  | look => exact h c x hc monitored
  | @handOver j m r result hm hr hp _ =>
    have other : j ≠ k := fun same => he (by rw [same])
    rw [World.runs_setRun, if_neg other] at hc
    exact h c x hc monitored
  | @other a w plain happens =>
    change w.runs[k]? = some c at hc
    rcases (World.runs_plain plain happens).2 with same | ⟨j, r, q, hr, runs, _, after⟩
    · rw [same] at hc
      exact h c x hc monitored
    · rw [runs] at hc
      obtain ⟨rfl, y, hy, rfl⟩ | ⟨_, hc⟩ := World.call_of_setRun hc
      · obtain rfl := Option.some.inj (hr.symm.trans hy)
        exact after monitored x
      · exact h c x hc monitored

/-- A monitored call that has returned, and had not before, has handed over on the way. Its figures stand until another call
hands over. -/
theorem handed_over (pending : s.Pending k) (h : s.run es = some s') (hr : s'.world.runs[k]? = some r)
    (monitored : r.monitored = true) (hp : r.phase = .returned result) :
    ∃ front back t m, es = front ++ .handOver k :: back ∧ s.run front = some t ∧
      t.world.runs[k]? = some { r with phase := .over result } ∧ t.monitors[k]? = some (some m) ∧
      ((∀ j, .handOver j ∉ back) → s'.world.sink.resources = some m.figures) := by
  induction es generalizing s with
  | nil =>
    cases h
    exact (pending r result hr monitored hp).elim
  | cons e es ih =>
    obtain ⟨t, ht, h⟩ := run_cons_eq_some.1 h
    have occurs := occurs_of_step ht
    by_cases own : e = .handOver k
    · subst own
      cases occurs with
      | @handOver _ m c x hm hc hover _ =>
        refine ⟨[], es, s, m, rfl, rfl, ?_, hm, fun silent => resources_stay h silent⟩
        have after : (({ s.world with sink := s.world.sink.setResources m.figures }.setRun k (.returned x)).runs)[k]? =
            some { c with phase := .returned x } := by
          rw [World.runs_setRun, if_pos rfl, hc]
          rfl
        have last := returned_stays h after rfl
        rw [hr] at last
        cases last
        cases hp
        rw [hc, ← hover]
    · obtain ⟨front, back, u, m, rfl, hu, rest⟩ := ih (pending.occurs occurs own) h
      exact ⟨e :: front, back, u, m, rfl, run_cons_eq_some.2 ⟨t, ht, hu⟩, rest⟩

/-! ### Monitored runs -/

/-- What a monitor reads is counted exactly, and monitoring does nothing to a run. A monitor by itself looks as often as the
time it was given has room for, or up to the first panic, and a look that reads nothing changes no figure. Along every
schedule, a runner with monitors goes the way it goes without; it can take every step it could take without; a call that is
over, whatever its result, hands over the figures of what its monitor has read and returns that result; and no monitored call
has returned without. -/
theorem monitoring_of_run :
    (∀ (probe : ℕ → Probe) (millis stop : ℕ), 0 < millis → 0 < stop → ¬ millis * 1000000 ∣ stop →
      LookedAt (stop / (millis * 1000000) + 1) ((Monitor.start (millis * 1000000) 0).runUntil probe stop).looks ∧
      ((Monitor.start (millis * 1000000) 0).runUntil probe stop).Follows probe ∧
      Aggregates (((Monitor.start (millis * 1000000) 0).runUntil probe stop).looks.filterMap Probe.reading?)
        ((Monitor.start (millis * 1000000) 0).runUntil probe stop).figures) ∧
    (∀ (m : Monitor) (now : ℕ), (m.look now .nothing).figures = m.figures) ∧
    ∀ (accounts : List String) (es : List Event) (s : Supervision), (initial accounts).run es = some s →
      (World.initial accounts).run (es.flatMap Event.bare) = some s.world.bare ∧
      (∀ a v, a.plain = true → s.world.bare.step a = some v → ∃ e t, s.step e = some t ∧ t.world.bare = v ∧
        (e = .other a ∨ ∃ k early, a = .advanceRun k early ∧ e = .handOver k)) ∧
      (∀ k r result, s.world.runs[k]? = some r → r.monitored = true → r.phase = .over result →
        ∃ m t, s.monitors[k]? = some (some m) ∧ s.step (.handOver k) = some t ∧
          t.world.runs[k]? = some { r with phase := .returned result } ∧ t.world.sink.resources = some m.figures ∧
          Aggregates (m.looks.filterMap Probe.reading?) m.figures ∧
          ((initial accounts).punctual es = true → ∀ millis, 0 < millis → m.interval = millis * 1000000 →
            m.began < s.world.now → ¬ m.interval ∣ s.world.now - m.began →
            LookedAt ((s.world.now - m.began) / m.interval + 1) m.looks)) ∧
      (∀ k r result, s.world.runs[k]? = some r → r.monitored = true → r.phase = .returned result →
        ∃ front back t m, es = front ++ .handOver k :: back ∧ (initial accounts).run front = some t ∧
          t.world.runs[k]? = some { r with phase := .over result } ∧ t.monitors[k]? = some (some m) ∧
          ((∀ j, .handOver j ∉ back) → s.world.sink.resources = some m.figures)) := by
  refine ⟨fun probe millis stop positive hs between => Monitor.runUntil_start (by omega) hs between, fun m now => ?_,
    fun accounts es s h => ?_⟩
  · cases alive : m.sampler.alive <;> simp [Monitor.figures, Monitor.look, Sampler.tick, alive]
  have attended : s.Attended := run_preserves (fun _ _ _ kept o => kept.occurs o) attended_initial h
  have bare : (World.initial accounts).run (es.flatMap Event.bare) = some s.world.bare := by
    rw [← World.bare_initial]
    exact run_bare h
  refine ⟨bare, fun a v => occurs_of_bare attended, fun k r result hr monitored hp => ?_,
    fun k r result hr monitored hp => handed_over ?_ h hr monitored hp⟩
  · obtain ⟨m, hm, keeps, stopped⟩ := attended.monitor hr monitored
    refine ⟨m, _, hm, step_of_occurs (.handOver k hm hr hp monitored), ?_, rfl, keeps.aggregates, ?_⟩
    · rw [World.runs_setRun, if_pos rfl, hr]
      rfl
    · intro punctual millis positive interval began between
      have running : m.stopped = false := by
        rw [← Bool.not_eq_true, stopped]
        rintro ⟨x, ended⟩
        rw [hp] at ended
        cases ended
      have unhindered : s.Unhindered := unhindered_of_punctual (fun k m hm => by simp [initial] at hm) punctual h
      exact (unhindered k m hm running).lookedAt (by omega) began between
  · intro r result hr
    simp [initial, World.initial] at hr

/-- A monitored run that a stop ends before it has begun: one reading, one look without, and a second and a half intervals
until the run is over. -/
def watched : List Event :=
  let config : WorkloadConfig := { scenario := .stream, concurrency := 1, duration := Span.ofSecs 1 }
  let advance : Event := .other (.advanceRun 0 false)
  [.other .signal, .run config (some 100000000), .look 0 (.reading ⟨0, 104857600⟩), advance, advance, advance, advance,
    advance, advance, .other (.work 0), .other (.pass 100000000), .look 0 .nothing, .other (.pass 50000000), advance,
    advance, advance, advance]

theorem monitoring_of_watched :
    LookedAt 3 ((Monitor.start 100000000 0).runUntil (fun _ => .nothing) 250000000).looks ∧
    ∃ s m t r, (initial []).run watched = some s ∧ s.monitors[0]? = some (some m) ∧ s.step (.handOver 0) = some t ∧
      t.world.runs[0]? = some r ∧ (∃ result, r.phase = .returned result) ∧ t.world.sink.resources = some m.figures ∧
      LookedAt 2 m.looks := by
  obtain ⟨alone, _, along⟩ := monitoring_of_run
  have facts : ((initial []).run watched).bind (fun s => (s.step (.handOver 0)).bind fun _ => (s.monitors[0]?).bind fun m? =>
      m?.map fun m => (m.interval, m.began, s.world.now)) = some (100000000, 0, 150000000) := by decide +kernel
  obtain ⟨s, hs, rest⟩ := Option.bind_eq_some_iff.1 facts
  obtain ⟨t, ht, rest⟩ := Option.bind_eq_some_iff.1 rest
  obtain ⟨m?, hm, rest⟩ := Option.bind_eq_some_iff.1 rest
  obtain ⟨m, rfl, values⟩ := Option.map_eq_some_iff.1 rest
  simp only [Prod.mk.injEq] at values
  obtain ⟨interval, began, now⟩ := values
  have punctual : (initial []).punctual watched = true := by decide +kernel
  obtain ⟨r, result, hr, hp, monitored⟩ : ∃ r result, s.world.runs[0]? = some r ∧ r.phase = .over result ∧
      r.monitored = true := by
    cases occurs_of_step ht with
    | handOver _ _ hr hp monitored => exact ⟨_, _, hr, hp, monitored⟩
  obtain ⟨n, t, hn, ht, returned, figures, _, count⟩ := (along [] watched s hs).2.2.1 0 r result hr monitored hp
  rw [hm] at hn
  cases hn
  have looked := count punctual 100 (by decide) interval (by omega) (by rw [interval, began, now]; decide)
  rw [interval, began, now] at looked
  have several := alone (fun _ => .nothing) 100 250000000 (by decide) (by decide) (by decide)
  exact ⟨several.1, s, m, t, _, hs, hm, ht, returned, ⟨result, rfl⟩, figures, looked⟩

end Supervision

end LedgerLoad.Load
