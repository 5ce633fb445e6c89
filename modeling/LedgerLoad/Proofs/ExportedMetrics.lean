import LedgerLoad.Decimal.Binary
import LedgerLoad.Proofs.SinkFigures
import Mathlib.Data.Bool.Count

/-!
What is exported about samples, next to the sink that keeps them.

A sample is counted, timed and stored in steps of its own, and other workers come in between. What was exported depends on
the steps that were made, and not on their order. So it agrees with the sink whenever nobody is in the middle of a sample,
and otherwise it is ahead of the sink by no more than one sample of every worker.
-/

set_option autoImplicit false

namespace LedgerLoad

def Metrics.received (m : Metrics) : List Float := m.latencies.toList.map Decimal.ofNat

namespace Sink

def opened (m : Metrics) : Sink := { metrics := m }

/-- What was exported since `m` is what is in the sink. -/
structure Exported (m : Metrics) (s : Sink) : Prop where
  successes : s.metrics.successes = m.successes + s.successfulRequests
  errors : s.metrics.errors = m.errors + (s.totalRequests - s.successfulRequests)
  total : s.metrics.successes + s.metrics.errors = m.successes + m.errors + s.totalRequests
  latencies : ∃ values, s.metrics.latencies.toList = m.latencies.toList ++ values ∧
    values.Perm (s.latencies.map (·.nanos)) ∧
    values.Perm ((s.samples.toList.filter fun x => x.success ∧ x.latency ≠ Span.zero).map (·.latency.nanos))
  received : ∃ values, s.metrics.received = m.received ++ values ∧
    values.Perm (s.latencies.map fun v => Decimal.ofNat v.nanos)

/-! ### Steps -/

/-- What nobody can come in the middle of. -/
inductive Act where
  | count (success : Bool)
  | time (nanos : Nat)
  | push (x : Sample)
  | start (at_ : Nat)
  | finish (at_ : Nat)
  | resources (r : ResourceStats)

namespace Act

def counted? : Act → Option Bool
  | .count success => some success
  | _ => none

def timed? : Act → Option Nat
  | .time nanos => some nanos
  | _ => none

def pushed? : Act → Option Sample
  | .push x => some x
  | _ => none

end Act

def perform (s : Sink) : Act → Sink
  | .count true => { s with metrics := { s.metrics with successes := s.metrics.successes + 1 } }
  | .count false => { s with metrics := { s.metrics with errors := s.metrics.errors + 1 } }
  | .time nanos => { s with metrics := { s.metrics with latencies := s.metrics.latencies.push nanos } }
  | .push x => { s with samples := s.samples.push x }
  | .start at_ => s.setStart at_
  | .finish at_ => s.setEnd at_
  | .resources r => s.setResources r

def performs (s : Sink) (acts : List Act) : Sink := acts.foldl perform s

end Sink

open Sink (Act)

def Write.acts : Write → List Act
  | .sample x => .count x.success :: ((if x.hasLatency then [.time x.latency.nanos] else []) ++ [.push x])
  | .start at_ => [.start at_]
  | .finish at_ => [.finish at_]
  | .resources r => [.resources r]

namespace Sink

variable {m : Metrics} {acts job : List Act} {ws : List Write}

/-- Without anybody coming in between, the steps are the write. -/
theorem performs_acts (s : Sink) (w : Write) : s.performs w.acts = s.write w := by
  cases w with
  | sample x =>
    obtain ⟨latency, success, error, timestamp⟩ := x
    cases success with
    | false => rfl
    | true =>
      change _ = s.add _
      cases timed : latency.isZero <;> simp [Write.acts, performs, perform, add, Metrics.record, Sample.hasLatency, timed]
  | start at_ => rfl
  | finish at_ => rfl
  | resources r => rfl

theorem performs_flatMap (s : Sink) (ws : List Write) : s.performs (ws.flatMap Write.acts) = s.writes ws := by
  induction ws generalizing s with
  | nil => rfl
  | cons w ws ih =>
    rw [List.flatMap_cons, performs, List.foldl_append]
    change (s.performs w.acts).performs _ = _
    rw [performs_acts, ih]
    rfl

/-! ### Tallies of steps -/

theorem samples_performs (s : Sink) (acts : List Act) :
    (s.performs acts).samples.toList = s.samples.toList ++ acts.filterMap Act.pushed? := by
  induction acts generalizing s with
  | nil => exact (List.append_nil _).symm
  | cons a acts ih =>
    refine (ih (s.perform a)).trans ?_
    rcases a with (_ | _) | _ | x | _ | _ | _
    case push => simp [perform, Act.pushed?]
    all_goals rfl

theorem latencies_performs (s : Sink) (acts : List Act) :
    (s.performs acts).metrics.latencies.toList = s.metrics.latencies.toList ++ acts.filterMap Act.timed? := by
  induction acts generalizing s with
  | nil => exact (List.append_nil _).symm
  | cons a acts ih =>
    refine (ih (s.perform a)).trans ?_
    rcases a with (_ | _) | nanos | _ | _ | _ | _
    case time => simp [perform, Act.timed?]
    all_goals rfl

theorem counts_performs (s : Sink) (acts : List Act) :
    (s.performs acts).metrics.successes = s.metrics.successes + (acts.filterMap Act.counted?).count true ∧
      (s.performs acts).metrics.errors = s.metrics.errors + (acts.filterMap Act.counted?).count false := by
  induction acts generalizing s with
  | nil => exact ⟨rfl, rfl⟩
  | cons a acts ih =>
    obtain ⟨successes, errors⟩ := ih (s.perform a)
    change ((s.perform a).performs acts).metrics.successes = _ ∧ ((s.perform a).performs acts).metrics.errors = _
    rw [successes, errors]
    rcases a with (_ | _) | _ | _ | _ | _ | _
    case count.false | count.true => simp [perform, Act.counted?]; omega
    all_goals exact ⟨rfl, rfl⟩

theorem filterMap_acts {β : Type} {f : Act → Option β} {g : Sample → Option β}
    (one : ∀ w : Write, w.acts.filterMap f = (w.sample?.bind g).toList) (ws : List Write) :
    (ws.flatMap Write.acts).filterMap f = (added ws).filterMap g := by
  rw [List.filterMap_flatMap, added, List.filterMap_filterMap, List.filterMap_eq_flatMap_toList]
  exact congrArg ws.flatMap (funext one)

theorem pushed_acts (ws : List Write) : (ws.flatMap Write.acts).filterMap Act.pushed? = added ws := by
  have one : ∀ w : Write, w.acts.filterMap Act.pushed? = (w.sample?.bind some).toList := by
    rintro (x | _ | _ | _)
    case sample => cases timed : x.hasLatency <;> simp only [Write.acts, timed] <;> rfl
    all_goals rfl
  rw [filterMap_acts one, List.filterMap_some]

theorem counted_acts (ws : List Write) : (ws.flatMap Write.acts).filterMap Act.counted? = (added ws).map (·.success) := by
  have one : ∀ w : Write, w.acts.filterMap Act.counted? = (w.sample?.bind (some ∘ Sample.success)).toList := by
    rintro (x | _ | _ | _)
    case sample => cases timed : x.hasLatency <;> simp only [Write.acts, timed] <;> rfl
    all_goals rfl
  rw [filterMap_acts one, List.filterMap_eq_map]

theorem timed_acts (ws : List Write) : (ws.flatMap Write.acts).filterMap Act.timed? =
    ((added ws).filter Sample.hasLatency).map (·.latency.nanos) := by
  have one : ∀ w : Write, w.acts.filterMap Act.timed? =
      (w.sample?.bind fun x => if x.hasLatency then some x.latency.nanos else none).toList := by
    rintro (x | _ | _ | _)
    case sample =>
      change _ = (if x.hasLatency then some x.latency.nanos else none).toList
      cases timed : x.hasLatency <;> simp only [Write.acts, timed] <;> rfl
    all_goals rfl
  rw [filterMap_acts one, ← List.filterMap_eq_map, List.filterMap_filter]
  rfl

theorem count_outcomes {outcomes : List Bool} {xs : List Sample} (h : outcomes.Perm (xs.map (·.success))) :
    outcomes.count true = xs.countP (·.success) ∧ outcomes.count false = xs.length - xs.countP (·.success) := by
  have successes : outcomes.count true = xs.countP (·.success) := by
    rw [h.count_eq, List.count, List.countP_map]
    simp [Function.comp_def]
  have failures : outcomes.count false = xs.countP fun x => !x.success := by
    rw [h.count_eq, List.count, List.countP_map]
    simp [Function.comp_def]
  have all := Figures.length_eq_success_add_failure xs
  exact ⟨successes, by omega⟩

theorem hasLatency_eq (x : Sample) : x.hasLatency = decide (x.success ∧ x.latency ≠ Span.zero) := by
  have zero : x.latency.nanos = 0 ↔ x.latency = Span.zero := by
    constructor
    · exact fun h => Span.ext_nanos h
    · intro h
      rw [h]
      rfl
  rw [Bool.eq_iff_iff]
  simp [Sample.hasLatency, Span.isZero, ← zero]

theorem exported_performs (m : Metrics) (h : acts.Perm (ws.flatMap Write.acts)) :
    Exported m ((opened m).performs acts) := by
  obtain ⟨successes, errors⟩ := counts_performs (opened m) acts
  have values := latencies_performs (opened m) acts
  have samples : ((opened m).performs acts).samples.toList = acts.filterMap Act.pushed? := samples_performs _ acts
  have pushed := h.filterMap Act.pushed?
  rw [pushed_acts, ← samples] at pushed
  have counted := h.filterMap Act.counted?
  rw [counted_acts] at counted
  have timed := h.filterMap Act.timed?
  rw [timed_acts] at timed
  generalize (opened m).performs acts = t at *
  obtain ⟨succeeded, failed⟩ := count_outcomes (counted.trans (pushed.map _).symm)
  have measured := timed.trans ((pushed.filter _).map _).symm
  have sorted : (t.latencies.map (·.nanos)).Perm ((t.samples.toList.filter Sample.hasLatency).map (·.latency.nanos)) := by
    have unsorted := (Figures.latencies_perm t.samples.toList).map (·.nanos)
    rwa [List.map_map] at unsorted
  have latencies := measured.trans sorted.symm
  rw [succeeded] at successes
  rw [failed, Array.length_toList] at errors
  have le : t.samples.toList.countP (·.success) ≤ t.samples.size := by
    rw [← Array.length_toList]
    exact List.countP_le_length
  refine ⟨successes, errors, ?_, ⟨_, values, latencies, ?_⟩, ⟨(acts.filterMap Act.timed?).map Decimal.ofNat, ?_, ?_⟩⟩
  · rw [successes, errors, totalRequests]
    change m.successes + _ + (m.errors + _) = _
    omega
  · rwa [← funext hasLatency_eq]
  · rw [Metrics.received, values, List.map_append]
    rfl
  · have doubles := latencies.map Decimal.ofNat
    rwa [List.map_map] at doubles

/-! ### Workers that take turns -/

/-- Workers with one sink, and the steps that each of them has left. -/
structure Crew where
  sink : Sink
  jobs : List (List Act)

namespace Crew

variable {c : Crew} {jobs : List (List Act)} {w : Write} {i : Nat}

def of (s : Sink) (work : List (List Write)) : Crew := ⟨s, work.map (·.flatMap Write.acts)⟩

def pending (c : Crew) : List Act := c.jobs.flatten

def turn (c : Crew) (i : Nat) : Crew :=
  match c.jobs[i]? with
  | some (a :: rest) => ⟨c.sink.perform a, c.jobs.set i rest⟩
  | _ => c

def turns (c : Crew) (schedule : List Nat) : Crew := schedule.foldl turn c

theorem flatten_set {a : Act} {rest : List Act} (h : jobs[i]? = some (a :: rest)) :
    jobs.flatten.Perm (a :: (jobs.set i rest).flatten) := by
  induction jobs generalizing i with
  | nil => cases h
  | cons job jobs ih =>
    cases i with
    | zero =>
      cases h
      exact List.Perm.refl _
    | succ i =>
      have tail : jobs.flatten.Perm (a :: (jobs.set i rest).flatten) := ih h
      exact (tail.append_left job).trans List.perm_middle

theorem turn_cases (c : Crew) (i : Nat) : c.turn i = c ∨
    ∃ a rest, c.jobs[i]? = some (a :: rest) ∧ c.turn i = ⟨c.sink.perform a, c.jobs.set i rest⟩ := by
  unfold turn
  split
  · rename_i a rest next
    exact .inr ⟨a, rest, next, rfl⟩
  · exact .inl rfl

theorem turn_performs (c : Crew) (i : Nat) :
    ∃ done, (c.turn i).sink = c.sink.performs done ∧ c.pending.Perm (done ++ (c.turn i).pending) := by
  obtain same | ⟨a, rest, next, step⟩ := c.turn_cases i
  · rw [same]
    exact ⟨[], rfl, List.Perm.refl _⟩
  · rw [step]
    exact ⟨[a], rfl, flatten_set next⟩

theorem turns_perform (c : Crew) (schedule : List Nat) :
    ∃ done, (c.turns schedule).sink = c.sink.performs done ∧ c.pending.Perm (done ++ (c.turns schedule).pending) := by
  induction schedule generalizing c with
  | nil => exact ⟨[], rfl, List.Perm.refl _⟩
  | cons i schedule ih =>
    obtain ⟨first, made, left⟩ := c.turn_performs i
    obtain ⟨later, madeLater, leftLater⟩ := ih (c.turn i)
    refine ⟨first ++ later, ?_, ?_⟩
    · rw [performs, List.foldl_append]
      change ((c.turn i).turns schedule).sink = (c.sink.performs first).performs later
      rw [madeLater, made]
    · rw [List.append_assoc]
      exact left.trans (leftLater.append_left first)

/-! ### In the middle of a sample -/

def Midway (job : List Act) : Prop := ∃ ws : List Write, job <:+ ws.flatMap Write.acts

def counts (acts : List Act) : Nat := (acts.filterMap Act.counted?).length

def pushes (acts : List Act) : Nat := (acts.filterMap Act.pushed?).length

theorem counts_append (acts acts' : List Act) : counts (acts ++ acts') = counts acts + counts acts' := by
  rw [counts, List.filterMap_append, List.length_append]
  rfl

theorem pushes_append (acts acts' : List Act) : pushes (acts ++ acts') = pushes acts + pushes acts' := by
  rw [pushes, List.filterMap_append, List.length_append]
  rfl

theorem pushes_eq_counts (ws : List Write) : pushes (ws.flatMap Write.acts) = counts (ws.flatMap Write.acts) := by
  rw [pushes, counts, pushed_acts, counted_acts, List.length_map]

theorem acts_eq_cons (w : Write) : ∃ a rest, w.acts = a :: rest ∧ counts rest = 0 ∧ pushes rest ≤ 1 := by
  cases w with
  | sample x => exact ⟨_, _, rfl, by cases x.hasLatency <;> exact ⟨rfl, Nat.le_refl 1⟩⟩
  | _ => exact ⟨_, [], rfl, rfl, Nat.zero_le 1⟩

theorem pushes_of_suffix (h : job <:+ w.acts) : counts job ≤ pushes job ∧ pushes job ≤ counts job + 1 := by
  obtain ⟨a, rest, first, counted, pushed⟩ := acts_eq_cons w
  rw [first, List.suffix_cons_iff, ← first] at h
  obtain rfl | part := h
  · have balanced := pushes_eq_counts [w]
    rw [List.flatMap_singleton] at balanced
    omega
  · have fewerCounts : counts job ≤ counts rest := (part.sublist.filterMap _).length_le
    have fewerPushes : pushes job ≤ pushes rest := (part.sublist.filterMap _).length_le
    omega

theorem Midway.ahead (h : Midway job) : counts job ≤ pushes job ∧ pushes job ≤ counts job + 1 := by
  obtain ⟨ws, h⟩ := h
  induction ws with
  | nil =>
    obtain rfl : job = [] := List.suffix_nil.1 h
    decide
  | cons w ws ih =>
    obtain ⟨front, parts⟩ := h
    rw [List.flatMap_cons] at parts
    obtain ⟨now, first, rfl⟩ | ⟨later, rfl, rest⟩ := List.append_eq_append_iff.1 parts
    · have balanced := pushes_eq_counts ws
      have last := pushes_of_suffix ⟨front, first.symm⟩
      rw [pushes_append, counts_append]
      omega
    · exact ih ⟨later, rest.symm⟩

theorem turn_midway (h : ∀ job ∈ c.jobs, Midway job) : ∀ job ∈ (c.turn i).jobs, Midway job := by
  obtain same | ⟨a, rest, next, step⟩ := c.turn_cases i
  · rwa [same]
  · rw [step]
    intro job hjob
    obtain old | rfl := List.mem_or_eq_of_mem_set hjob
    · exact h job old
    · obtain ⟨ws, part⟩ := h _ (List.mem_of_getElem? next)
      exact ⟨ws, (List.suffix_cons a job).trans part⟩

theorem length_turn (c : Crew) (i : Nat) : (c.turn i).jobs.length = c.jobs.length := by
  obtain same | ⟨a, rest, next, step⟩ := c.turn_cases i
  · rw [same]
  · rw [step, List.length_set]

theorem turns_midway (h : ∀ job ∈ c.jobs, Midway job) (schedule : List Nat) :
    (c.turns schedule).jobs.length = c.jobs.length ∧ ∀ job ∈ (c.turns schedule).jobs, Midway job := by
  induction schedule generalizing c with
  | nil => exact ⟨rfl, h⟩
  | cons i schedule ih =>
    obtain ⟨size, midway⟩ := ih (turn_midway (i := i) h)
    exact ⟨size.trans (c.length_turn i), midway⟩

theorem pushes_pending (h : ∀ job ∈ jobs, Midway job) :
    counts jobs.flatten ≤ pushes jobs.flatten ∧ pushes jobs.flatten ≤ counts jobs.flatten + jobs.length := by
  induction jobs with
  | nil => decide
  | cons job jobs ih =>
    have first := (h job List.mem_cons_self).ahead
    have rest := ih fun other hother => h other (List.mem_cons_of_mem job hother)
    rw [List.flatten_cons, counts_append, pushes_append, List.length_cons]
    omega

theorem length_performs (m : Metrics) (acts : List Act) :
    ((opened m).performs acts).metrics.successes + ((opened m).performs acts).metrics.errors =
      m.successes + m.errors + counts acts ∧
    ((opened m).performs acts).totalRequests = pushes acts := by
  obtain ⟨successes, errors⟩ := counts_performs (opened m) acts
  have both := List.count_true_add_count_false (acts.filterMap Act.counted?)
  constructor
  · rw [successes, errors, counts, ← both]
    change m.successes + _ + (m.errors + _) = _
    omega
  · rw [totalRequests, ← Array.length_toList, samples_performs]
    rfl

theorem pending_of (s : Sink) (work : List (List Write)) : (of s work).pending = work.flatten.flatMap Write.acts := by
  rw [pending, of, List.flatMap_def, List.map_flatten, List.flatten_flatten, List.map_map]
  rfl

theorem of_midway (s : Sink) (work : List (List Write)) : ∀ job ∈ (of s work).jobs, Midway job := by
  intro job hjob
  obtain ⟨ws, _, rfl⟩ := List.mem_map.1 hjob
  exact ⟨ws, List.suffix_rfl⟩

/-- Between the first step of a sample and its last, a worker is ahead of the sink. -/
theorem turns_ahead (m : Metrics) (work : List (List Write)) (schedule : List Nat) :
    let c := (of (opened m) work).turns schedule
    m.successes + m.errors + c.sink.totalRequests ≤ c.sink.metrics.successes + c.sink.metrics.errors ∧
      c.sink.metrics.successes + c.sink.metrics.errors ≤ m.successes + m.errors + c.sink.totalRequests + work.length := by
  intro c
  obtain ⟨done, made, left⟩ := (of (opened m) work).turns_perform schedule
  obtain ⟨size, midway⟩ := turns_midway (of_midway (opened m) work) schedule
  obtain ⟨grown, stored⟩ := length_performs m done
  obtain ⟨least, most⟩ := pushes_pending midway
  rw [pending_of] at left
  have allCounts : counts _ = counts _ := (left.filterMap Act.counted?).length_eq
  have allPushes : pushes _ = pushes _ := (left.filterMap Act.pushed?).length_eq
  rw [counts_append, ← pushes_eq_counts] at allCounts
  rw [pushes_append] at allPushes
  rw [size, of, List.length_map] at most
  rw [show c.sink = (opened m).performs done from made, grown, stored]
  change counts c.pending ≤ pushes c.pending at least
  change pushes c.pending ≤ counts c.pending + work.length at most
  change _ = counts done + counts c.pending at allCounts
  change _ = pushes done + pushes c.pending at allPushes
  omega

theorem turns_done (m : Metrics) (work : List (List Write)) (schedule : List Nat) :
    let c := (of (opened m) work).turns schedule
    c.pending = [] → Exported m c.sink ∧ c.sink.samples.toList.Perm (added work.flatten) := by
  intro c none
  obtain ⟨done, made, left⟩ := (of (opened m) work).turns_perform schedule
  change c.sink = (opened m).performs done at made
  change List.Perm _ (done ++ c.pending) at left
  rw [pending_of, none, List.append_nil] at left
  rw [made]
  refine ⟨exported_performs m left.symm, ?_⟩
  have pushed := left.symm.filterMap Act.pushed?
  rw [pushed_acts] at pushed
  rwa [samples_performs]

end Crew

/-- Whatever is written to a new sink, one after the other, was exported as well. The same is so for workers that write in
turns, once all of them are done. Until then the counters are ahead of the sink by no more than one sample of every worker. -/
theorem exports_agree (m : Metrics) :
    (∀ ws, Exported m ((opened m).writes ws)) ∧
    ∀ (work : List (List Write)) (schedule : List Nat),
      let c := (Crew.of (opened m) work).turns schedule
      (m.successes + m.errors + c.sink.totalRequests ≤ c.sink.metrics.successes + c.sink.metrics.errors ∧
        c.sink.metrics.successes + c.sink.metrics.errors ≤ m.successes + m.errors + c.sink.totalRequests + work.length) ∧
      (c.pending = [] → Exported m c.sink ∧ c.sink.samples.toList.Perm (added work.flatten)) := by
  refine ⟨fun ws => ?_, fun work schedule => ⟨Crew.turns_ahead m work schedule, Crew.turns_done m work schedule⟩⟩
  rw [← performs_flatMap]
  exact exported_performs m (List.Perm.refl _)

/-- Two workers. One measures and then fails, the other has a first event and then measures. -/
def pair : List (List Write) :=
  [[.sample (.succeeded (Span.ofMillis 20) {}), .sample (.failed (Span.ofMillis 500) "boom" {})],
    [.start 3, .sample (.unmeasured {}), .sample (.succeeded (Span.ofMillis 10) {})]]

theorem exports_of_pair :
    let c := (Crew.of (opened ⟨4, 1, #[7]⟩) pair).turns [0, 1, 1, 1, 1, 0, 1, 0, 0, 1, 0]
    c.pending = [] ∧ Exported ⟨4, 1, #[7]⟩ c.sink ∧ c.sink.samples.toList.Perm (added pair.flatten) ∧
      c.sink.totalRequests = 4 ∧ c.sink.metrics = ⟨7, 2, #[7, 20000000, 10000000]⟩ := by
  intro c
  have idle : c.pending = [] := by rfl
  obtain ⟨exported, samples⟩ := ((exports_agree ⟨4, 1, #[7]⟩).2 pair _).2 idle
  exact ⟨idle, exported, samples, by rfl, by decide +kernel⟩

end Sink

end LedgerLoad
