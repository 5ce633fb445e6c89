import LedgerLoad.Proofs.RunnerFaults
import LedgerLoad.Proofs.RunnerInduction
import LedgerLoad.Proofs.StreamTraces

/-!
The workers of a stream run are stream workloads, each by itself.

A worker moves when its workload moves, and asks for the next unit of work once the last one is on the sink. So what
holds of a workload that is asked for one unit of work after another holds of every worker, whatever the others do.
-/

set_option autoImplicit false

namespace LedgerLoad

def WorkUnit.sample? : WorkUnit → Option Sample
  | .sample y => some y
  | .finished _ => none

theorem filterMap_sample (ys : List Sample) : (ys.map WorkUnit.sample).filterMap WorkUnit.sample? = ys := by
  induction ys with
  | nil => rfl
  | cons y ys ih => simp [WorkUnit.sample?, ih]

theorem filterMap_finished (ends : List Finish) : (ends.map WorkUnit.finished).filterMap WorkUnit.sample? = [] := by
  simp [List.filterMap_map, WorkUnit.sample?]

namespace StreamWorkload

variable {s s' u : StreamWorkload} {ts us : List Turn} {t : Turn} {v : View} {sight : Option Sight}
  {unit : Option WorkUnit} {p p' : StreamPhase}

theorem run_append (h : s.run ts = some u) : s.run (ts ++ us) = u.run us := by
  induction ts generalizing s with
  | nil =>
    cases h
    rfl
  | cons t ts ih =>
    obtain ⟨v, hv, rest⟩ := Option.bind_eq_some_iff.1 h
    simp only [List.cons_append, run, hv]
    exact ih rest

theorem exists_later (s : StreamWorkload) (now : Nat) (stopped : Bool) (hn : s.now ≤ now)
    (hs : s.stopped = true → stopped = true) :
    ∃ ts, s.run ts = some { s with now := now, stopped := stopped } := by
  obtain ⟨rate, deadline, before, was, phase, busy, record, given⟩ := s
  have passed : before + (now - before) = now := Nat.add_sub_of_le hn
  cases was with
  | true =>
    cases hs rfl
    exact ⟨[.pass (now - before)], by simp [run, step, passed]⟩
  | false =>
    cases stopped with
    | true => exact ⟨[.pass (now - before), .signal], by simp [run, step, passed]⟩
    | false => exact ⟨[.pass (now - before)], by simp [run, step, passed]⟩

end StreamWorkload

namespace Load

open StreamWorkload (Moves fresh)

namespace Worker

def drives (s : StreamWorkload) : Worker → Prop
  | .stream p => s.busy = true ∧ s.phase = p
  | .recordingStream _ p => s.busy = false ∧ s.phase = p
  | .finished why => s.phase = .done why
  | .faulted _ => True
  | _ => False

def ended : Worker → List WorkUnit
  | .finished why => [.finished why]
  | _ => []

end Worker

namespace World

inductive Settles : Option WorkUnit → StreamPhase → Worker → Prop where
  | goes (p : StreamPhase) : Settles none p (.stream p)
  | yields (y : Sample) (p : StreamPhase) : Settles (some (.sample y)) p (.recordingStream y p)
  | ends (why : Finish) : Settles (some (.finished why)) (.done why) (.finished why)

variable {w w' v : World} {a : Action} {as : List Action} {i k : Nat} {x : Worker} {e : Effect} {r : RunCall}
  {accounts : List String} {ys : List Sample} {p : StreamPhase} {s : StreamWorkload}

theorem Settles.drives {sight : Option Sight} {unit : Option WorkUnit} (h : Settles unit p x) :
    x.drives (s.moved sight unit p) := by
  cases h with
  | goes | yields y => exact ⟨rfl, rfl⟩
  | ends why => rfl

theorem Settles.units {unit : Option WorkUnit} (h : Settles unit p x) :
    unit.toList = x.carried.toList.map .sample ++ x.ended := by
  cases h <;> rfl

theorem StreamStep.moves (h : StreamStep w i (.stream p) a e) :
    e.worker = .faulted (.lost true) ∨
      ∃ t sight unit p', Moves w.view w.rate p t sight unit p' ∧ Settles unit p' e.worker := by
  cases h with
  | panicsSubscribing | panicsOpen last => exact .inl rfl
  | cancels hs => exact .inr ⟨_, _, _, _, .cancels hs, .ends _⟩
  | passesFlag hs => exact .inr ⟨_, _, _, _, .passesFlag hs, .goes _⟩
  | elapses hd => exact .inr ⟨_, _, _, _, .elapses hd, .ends _⟩
  | passesClock hd => exact .inr ⟨_, _, _, _, .passesClock hd, .goes _⟩
  | subscribes => exact .inr ⟨_, _, _, _, .subscribes, .goes _⟩
  | opened => exact .inr ⟨_, _, _, _, .opened, .goes _⟩
  | refused error => exact .inr ⟨_, _, _, _, .refused error, .goes _⟩
  | cancelsOpen last hs => exact .inr ⟨_, _, _, _, .cancelsOpen last hs, .ends _⟩
  | passesFlagOpen last hs => exact .inr ⟨_, _, _, _, .passesFlagOpen last hs, .goes _⟩
  | elapsesOpen last hd => exact .inr ⟨_, _, _, _, .elapsesOpen last hd, .ends _⟩
  | passesClockOpen last hd => exact .inr ⟨_, _, _, _, .passesClockOpen last hd, .goes _⟩
  | parks last => exact .inr ⟨_, _, _, _, .parks last, .goes _⟩
  | receives last => exact .inr ⟨_, _, _, _, .receives last, .goes _⟩
  | fails last error => exact .inr ⟨_, _, _, _, .fails last error, .goes _⟩
  | closes last => exact .inr ⟨_, _, _, _, .closes last, .ends _⟩
  | wakes last => exact .inr ⟨_, _, _, _, .wakes last, .goes _⟩
  | times last => exact .inr ⟨_, _, _, _, .times last, .yields _ _⟩
  | cancelsFailure error hs => exact .inr ⟨_, _, _, _, .cancelsFailure error hs, .ends _⟩
  | reports error hs => exact .inr ⟨_, _, _, _, .reports error hs, .yields _ _⟩
  | repeats why => exact .inr ⟨_, _, _, _, .repeats why, .ends _⟩

/-- A workload that stands where a worker has come to that contributed the samples `ys`, in the same world. -/
structure Drives (w : World) (x : Worker) (ys : List Sample) (s : StreamWorkload) : Prop where
  view : s.view = w.view
  rate : s.rate = w.rate
  stands : x.drives s
  results : s.results = ys.map .sample ++ x.ended

theorem StreamStep.drives (h : StreamStep w i x a e) (serves : x.serves .stream = true) (hd : Drives w x ys s) :
    ∃ ts s', s.run ts = some s' ∧ Drives (w.affect i e) e.worker (ys ++ e.worker.carried.toList) s' := by
  obtain ⟨view, rate, stands, results⟩ := hd
  cases x with
  | stream p =>
    obtain ⟨busy, rfl⟩ := stands
    have before : s.results = ys.map .sample := by simpa [Worker.ended] using results
    rcases h.moves with he | ⟨t, sight, unit, p', hm, settles⟩
    · refine ⟨[], s, rfl, view, rate, ?_, ?_⟩
      · rw [he]
        trivial
      · simp [he, before, Worker.carried, Worker.ended]
    · rw [← view, ← rate] at hm
      refine ⟨[t], s.moved sight unit p', by simp [StreamWorkload.run, StreamWorkload.step_of_moves busy hm], view, rate,
        settles.drives, ?_⟩
      rw [StreamWorkload.results_moved, before, settles.units, List.map_append, List.append_assoc]
  | recordingStream y p =>
    obtain ⟨idle, rfl⟩ := stands
    cases h with
    | records =>
      refine ⟨[.next], { s with busy := true }, by simp [StreamWorkload.run, StreamWorkload.step, idle], view, rate,
        ⟨rfl, rfl⟩, ?_⟩
      change s.results = _
      simpa [Worker.carried, Worker.ended] using results
  | finished why | faulted fault => cases h
  | balance p | recordingBalance y p => cases serves

theorem Drives.waits (hd : Drives v x ys s) (hn : v.now ≤ w.now) (hs : v.stopped = true → w.stopped = true)
    (deadline : w.deadline = v.deadline) (rate : w.rate = v.rate) : ∃ ts s', s.run ts = some s' ∧ Drives w x ys s' := by
  have view := hd.view
  simp only [StreamWorkload.view, World.view, View.mk.injEq] at view
  obtain ⟨stopped, now, same⟩ := view
  obtain ⟨ts, later⟩ := s.exists_later w.now w.stopped (by rw [now]; exact hn) (by rw [stopped]; exact hs)
  refine ⟨ts, _, later, ?_, hd.rate.trans rate.symm, ?_, hd.results⟩
  · simp [StreamWorkload.view, World.view, same, deadline]
  · have stands := hd.stands
    cases x <;> exact stands

theorem steady_of_happens (o : v.Orderly) (h : Happens v a w) (hx : v.workers[i]? = some x) :
    w.rate = v.rate ∧ (v.stopped = true → w.stopped = true) := by
  rcases o.cases h with ⟨_, quiet | sets⟩ | ⟨j, y, e, _, _, _, rfl⟩
  · exact ⟨quiet.rate, quiet.stopped⟩
  · rw [sets.empty.no_worker] at hx
    cases hx
  · exact ⟨rfl, id⟩

/-- Each worker of a stream run stands where a stream workload stands that was asked for its units of work one after
another, with the rate and the deadline of the run, and it contributed what that workload gave. -/
theorem workload_of_worker (h : (initial accounts).run as = some w) (c : w.ClaimedBy k r)
    (hs : r.config.scenario = .stream) (hx : w.workers[i]? = some x) : ∃ now stopped ts s,
      (fresh w.rate w.deadline now stopped).run ts = some s ∧ Drives w x (yields i (initial accounts) as) s := by
  refine worker_induction (P := fun bs v x => ∃ now stopped ts s,
    (fresh v.rate v.deadline now stopped).run ts = some s ∧ Drives v x (yields i (initial accounts) bs) s) h c hx
    ?_ ?_ ?_
  · intro bs v early d hb c _
    have step := step_of_happens (.called k early c.call (.staffs rfl))
    have unstaffed : v.Unstaffed := c.standing.2.1
    have nothing : yields i (initial accounts) (bs ++ [.advanceRun k early]) = [] := by
      rw [yields_concat hb step, yields_of_run i hb, unstaffed.log, unstaffed.no_worker]
      rfl
    rw [nothing, hs]
    exact ⟨v.now, v.stopped, [.next], _, rfl, rfl, rfl, ⟨rfl, rfl⟩, rfl⟩
  · rintro bs v a v' x hb happens apart hx - ⟨now, stopped, ts, s, run, hd⟩
    obtain ⟨rate, keeps⟩ := steady_of_happens (orderly_of_run hb) happens hx
    obtain ⟨us, s', later, hd'⟩ := hd.waits apart.now keeps apart.deadline rate
    have same : yields i (initial accounts) (bs ++ [a]) = yields i (initial accounts) bs := by
      rw [yields_concat hb (step_of_happens happens), if_neg apart.idle, List.append_nil]
    rw [same, rate, apart.deadline]
    exact ⟨now, stopped, ts ++ us, s', (StreamWorkload.run_append run).trans later, hd'⟩
  · rintro bs v a x e hb hx serves hw ⟨now, stopped, ts, s, run, hd⟩
    rw [hs] at serves
    obtain ⟨us, s', later, hd'⟩ := (hw.stream serves).drives serves hd
    have more : yields i (initial accounts) (bs ++ [a]) = yields i (initial accounts) bs ++ e.worker.carried.toList := by
      rw [yields_concat hb (step_of_happens (.worked hx hw)), if_pos hw.worker, workers_affect hx, if_pos rfl,
        Option.bind_some]
    rw [more]
    exact ⟨now, stopped, ts ++ us, s', (StreamWorkload.run_append run).trans later, hd'⟩

/-- Some successes and then at most one failure, which is there if and only if the worker has ended with one. -/
def FailsLast (x : Worker) (ys : List Sample) : Prop :=
  ∃ events failures : List Sample, ys = events ++ failures ∧ (∀ y ∈ events, y.success = true) ∧
    (∀ y ∈ failures, y.success = false) ∧ failures.length ≤ 1 ∧
    ∀ why, x = .finished why → (failures ≠ [] ↔ why = .unexpectedStreamFailure)

theorem failsLast_of_worker (h : (initial accounts).run as = some w) (c : w.ClaimedBy k r)
    (hs : r.config.scenario = .stream) (hx : w.workers[i]? = some x) : FailsLast x (yields i (initial accounts) as) := by
  obtain ⟨now, stopped, ts, s, run, hd⟩ := workload_of_worker h c hs hx
  obtain ⟨events, failures, ends, hu⟩ := StreamWorkload.phrased_of_run run
  have samples : s.results.filterMap WorkUnit.sample? = yields i (initial accounts) as := by
    rw [hd.results, List.filterMap_append, filterMap_sample, show x.ended.filterMap WorkUnit.sample? = [] by cases x <;> rfl]
    exact List.append_nil _
  refine ⟨events, failures, ?_, hu.successes, fun y hy => ?_, hu.atMost, fun why hw => ?_⟩
  · rw [← samples, hu.units, List.filterMap_append, List.filterMap_append, filterMap_sample, filterMap_sample,
      filterMap_finished, List.append_nil]
  · obtain ⟨_, _, _, _, rfl⟩ := hu.judged y hy
    rfl
  · have stands := hd.stands
    rw [hw] at stands
    rw [hu.failed, show s.phase = .done why from stands, StreamPhase.done.injEq]

end World

end Load

end LedgerLoad
