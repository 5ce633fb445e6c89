import LedgerLoad.Proofs.RunnerProgress
import LedgerLoad.Rehearsal.Plan

/-!
A plan that is played is a schedule.

All that a stage does to its world it does by actions of the world, so the world at the end of a plan is one that a
schedule leads to. If the plan has one monitored run and tells how it went, the run has returned there.
-/

set_option autoImplicit false

namespace LedgerLoad.Rehearsal

open Load (World Worker Action RunPhase RunCall)
open Load.World (Happens Follows run_append_eq_some)

namespace Stage

def Leads (s t : Stage) : Prop := ∃ as, s.world.run as = some t.world

variable {s t u : Stage} {k i : Nat}

theorem Leads.refl (s : Stage) : s.Leads s := ⟨[], rfl⟩

theorem Leads.of_world (h : t.world = s.world) : s.Leads t := ⟨[], by rw [h]; rfl⟩

theorem Leads.trans (h : s.Leads t) (h' : t.Leads u) : s.Leads u := by
  obtain ⟨as, hs⟩ := h
  obtain ⟨bs, ht⟩ := h'
  exact ⟨as ++ bs, run_append_eq_some.2 ⟨t.world, hs, ht⟩⟩

theorem leads_act (s : Stage) (a : Action) : s.Leads (s.act a) := by
  cases step : s.world.step a with
  | none => exact .of_world (by simp [act, step])
  | some w => exact ⟨[a], by simp [World.run, act, step]⟩

@[simp] theorem world_setSeat (s : Stage) (i : Nat) (x : Seat) : (s.setSeat i x).world = s.world := by
  unfold setSeat
  split <;> rfl

@[simp] theorem world_await (s : Stage) (i : Nat) (x : Seat) (c : Cue) : (s.await i x c).world = s.world :=
  world_setSeat s i _

@[simp] theorem world_askItem (s : Stage) (i : Nat) : (s.askItem i).world = s.world := by
  simp only [askItem]
  split <;> simp

theorem leads_heed (s : Stage) (c : Cue) : s.Leads (s.heed c) := by
  unfold heed
  split
  · exact s.leads_act .signal
  · exact .refl s

theorem leads_heed_act (s : Stage) (c : Cue) (i : Nat) (x : Seat) (a : Action) : s.Leads (((s.heed c).setSeat i x).act a) :=
  ((s.leads_heed c).trans (.of_world (world_setSeat _ i x))).trans (leads_act _ a)

theorem leads_lookItem (s : Stage) (i : Nat) : s.Leads (s.lookItem i) := by
  have asked : s.Leads (if (s.seat i).awaited then s else s.askItem i) := by
    split
    · exact .refl s
    · exact .of_world (world_askItem s i)
  refine asked.trans ?_
  simp only [lookItem]
  generalize (if (s.seat i).awaited then s else s.askItem i) = v
  split
  · split
    · split <;> exact leads_heed_act v _ i _ _
    · exact leads_act v _
  · split <;> exact leads_act v _

theorem leads_playAnswer (h : s.playAnswer i = some t) : s.Leads t := by
  simp only [playAnswer] at h
  split at h
  · cases h
    split <;> exact leads_heed_act s _ i _ _
  · cases h

theorem leads_drive (h : s.drive i = some t) : s.Leads t := by
  unfold drive at h
  split at h
  · cases h
  · cases h
  · cases h
  · dsimp only at h
    split at h
    · cases h
      exact (s.leads_act _).trans (.of_world (world_await _ i _ _))
    · cases h
      exact s.leads_act _
  · exact leads_playAnswer h
  · cases h
    exact (s.leads_act (.subscribe i)).trans (.of_world (world_await _ i _ _))
  · exact leads_playAnswer h
  · cases h
    exact s.leads_lookItem i
  · dsimp only at h
    split at h
    · cases h
      exact s.leads_act _
    · cases h
  · cases h
    exact s.leads_act _

theorem leads_driveAll (i fuel : Nat) (s : Stage) (moved : Bool) : s.Leads (driveAll i fuel s moved).1 := by
  induction fuel generalizing s moved with
  | zero => exact .refl s
  | succ fuel ih =>
    unfold driveAll
    split
    · rename_i t step
      exact (leads_drive step).trans (ih t true)
    · exact .refl s

theorem leads_round (fuel : Nat) (workers : List Nat) (s : Stage) (moved : Bool) :
    s.Leads (workers.foldl
      (fun (s, moved) i => let (s, m) := driveAll i fuel s false; (s, moved || m)) (s, moved)).1 := by
  induction workers generalizing s moved with
  | nil => exact .refl s
  | cons i workers ih => exact (leads_driveAll i fuel s false).trans (ih _ _)

theorem leads_settle (fuel : Nat) (s : Stage) : s.Leads (settle fuel s) := by
  induction fuel generalizing s with
  | zero => exact .refl s
  | succ fuel ih =>
    have round := leads_round fuel (List.range s.world.workers.size) s false
    simp only [settle]
    split
    · exact round.trans (ih _)
    · exact round

theorem leads_moveTo (s : Stage) (t : Nat) : s.Leads (s.moveTo t) := s.leads_act _

end Stage

namespace Plan

open Stage (Leads)

variable {s : Stage} {seen : List Observation} {requests : List (Nat × Request)} {r : RunCall} {k : Nat}

theorem leads_callStop (s : Stage) : s.Leads (callStop s) := (s.leads_act .stop).trans (Stage.leads_act _ .stopMoves)

theorem leads_perform (s : Stage) (seen : List Observation) (q : Request) : s.Leads (perform s seen q).1 := by
  cases q with
  | stop => exact leads_callStop s
  | signal => exact s.leads_act .signal
  | observe => exact .refl s

theorem leads_performDue (s : Stage) (seen : List Observation) (requests : List (Nat × Request)) :
    s.Leads (performDue s seen requests).1 := by
  induction requests generalizing s seen with
  | nil => exact .refl s
  | cons request requests ih =>
    simp only [performDue]
    split
    · exact (leads_perform s seen request.2).trans (ih _ _)
    · exact .refl s

theorem leads_advanceRun (k fuel : Nat) (s : Stage) : s.Leads (advanceRun k fuel s) := by
  induction fuel generalizing s with
  | zero => exact .refl s
  | succ fuel ih =>
    unfold advanceRun
    split
    · rename_i w step
      have one : s.Leads { s with world := w } := ⟨[.advanceRun k false], by simp [World.run, step]⟩
      exact one.trans (ih _)
    · exact .refl s

theorem leads_playRun (k fuel : Nat) (s : Stage) (seen : List Observation) (requests : List (Nat × Request)) :
    s.Leads (playRun k fuel s seen requests).1 := by
  induction fuel generalizing s seen requests with
  | zero => exact .refl s
  | succ fuel ih =>
    have before := leads_advanceRun k 16 s
    have due := leads_performDue (advanceRun k 16 s) seen requests
    have settled := Stage.leads_settle fuel (performDue (advanceRun k 16 s) seen requests).1
    have after := leads_advanceRun k 16 ((performDue (advanceRun k 16 s) seen requests).1.settle fuel)
    have here := ((before.trans due).trans settled).trans after
    simp only [playRun]
    split
    · exact here
    · exact here
    · exact here
    · split
      · exact here
      · exact (here.trans (Stage.leads_moveTo _ _)).trans (ih _ _ _)

theorem leads_finishRequests (s : Stage) (seen : List Observation) (requests : List (Nat × Request)) :
    s.Leads (finishRequests s seen requests).1 := by
  induction requests generalizing s seen with
  | nil => exact .refl s
  | cons request requests ih =>
    exact ((s.leads_moveTo request.1).trans (leads_perform _ seen request.2)).trans (ih _ _)

/-! ### The call of a plan -/

theorem call_leads {t : Stage} (h : s.Leads t) (hr : s.world.runs[k]? = some r) :
    ∃ q, t.world.runs[k]? = some { r with phase := q } := by
  obtain ⟨as, run⟩ := h
  refine World.run_preserves (P := fun w => ∃ q, w.runs[k]? = some { r with phase := q }) ?_ ⟨r.phase, hr⟩ run
  rintro v a v' ⟨q, hq⟩ happens
  obtain ⟨q', hq', _⟩ := happens.phase hq
  exact ⟨q', hq'⟩

theorem call_act {a : Action} (hr : s.world.runs[k]? = some r) (hp : ∀ result, r.phase ≠ .over result)
    (ha : ∀ early, a ≠ .advanceRun k early) : (s.act a).world.runs[k]? = some r := by
  cases step : s.world.step a with
  | none => simpa [Stage.act, step] using hr
  | some w =>
    obtain ⟨q, hq, follows⟩ := (World.happens_of_step step).follows hr ha
    have same : q = r.phase := follows.stays hp
    rw [same] at hq
    simpa [Stage.act, step] using hq

theorem call_callStop (hr : s.world.runs[k]? = some r) (hp : ∀ result, r.phase ≠ .over result) :
    (callStop s).world.runs[k]? = some r :=
  call_act (call_act hr hp (by simp)) hp (by simp)

theorem call_finishRequests (hr : s.world.runs[k]? = some r) (hp : ∀ result, r.phase ≠ .over result)
    (seen : List Observation) (requests : List (Nat × Request)) :
    (finishRequests s seen requests).1.world.runs[k]? = some r := by
  induction requests generalizing s seen with
  | nil => exact hr
  | cons request requests ih =>
    have moved : (s.moveTo request.1).world.runs[k]? = some r := call_act hr hp (by simp)
    refine ih ?_ _
    cases request.2 with
    | stop => exact call_callStop moved hp
    | signal => exact call_act moved hp (by simp)
    | observe => exact moved

theorem phase_eq (hr : s.world.runs[k]? = some r) : phase s k = r.phase := by
  rw [phase, hr]
  rfl

theorem call_attached {result : Except RunnerError Unit} (hr : s.world.runs[k]? = some r) (monitored : r.monitored = true)
    (hp : r.phase = .over result) (stats : ResourceStats) :
    (s.act (.attach k stats)).world.runs[k]? = some { r with phase := .returned result } := by
  have step : s.world.step (.attach k stats) =
      some ({ s.world with sink := s.world.sink.setResources stats }.setRun k (.returned result)) := by
    simp [World.step, hr, hp, monitored]
  simp only [Stage.act, step, Option.getD_some, World.runs_setRun, if_pos, hr, Option.map_some]

theorem playRuns_one (p : Plan) (fuel : Nat) {monitor : List Probe × Nat} (monitored : p.monitor = some monitor)
    (s : Stage) (seen : List Observation) (requests : List (Nat × Request)) :
    let k := s.world.runs.size
    let t := (playRun k fuel (s.act (.run p.config true)) seen requests).1
    (∃ result stats, phase t k = .over result ∧ (playRuns p fuel 1 s seen requests).1 = t.act (.attach k stats)) ∨
    (∀ result, phase t k ≠ .over result) ∧ (playRuns p fuel 1 s seen requests).1 = t := by
  intro k t
  simp only [playRuns, monitored, Option.isSome_some]
  split
  · rename_i m result _ ended
    exact .inl ⟨result, _, ended, rfl⟩
  · rename_i other
    exact .inr ⟨fun result ended => other monitor result rfl ended, rfl⟩

theorem call_playRuns (p : Plan) (fuel : Nat) {monitor : List Probe × Nat} (monitored : p.monitor = some monitor)
    (s : Stage) (seen : List Observation) (requests : List (Nat × Request)) :
    s.Leads (playRuns p fuel 1 s seen requests).1 ∧
    ∃ r : RunCall, (playRuns p fuel 1 s seen requests).1.world.runs[s.world.runs.size]? = some r ∧ r.config = p.config ∧
      r.monitored = true ∧ ∀ result, r.phase ≠ .over result := by
  have call : (s.act (.run p.config true)).world.runs[s.world.runs.size]? =
      some { config := p.config, monitored := true } := by
    simp [Stage.act, World.step]
  have played := leads_playRun s.world.runs.size fuel (s.act (.run p.config true)) seen requests
  have before := (s.leads_act (.run p.config true)).trans played
  obtain ⟨q, hq⟩ := call_leads played call
  have here := phase_eq hq
  obtain ⟨result, stats, ended, whole⟩ | ⟨going, whole⟩ := playRuns_one p fuel monitored s seen requests
  · rw [whole]
    have returned := call_attached hq rfl (here.symm.trans ended) stats
    exact ⟨before.trans (Stage.leads_act _ _), _, returned, rfl, rfl, by simp⟩
  · rw [whole]
    exact ⟨before, _, hq, rfl, rfl, fun result ended => going result (here.trans ended)⟩

/-- A plan with one monitored run that tells how the run went ends in a world where the run has returned. -/
theorem returned_of_play (p : Plan) (fuel : Nat) {monitor : List Probe × Nat} {outcome : Except RunnerError Unit}
    (alone : p.runs = 1) (monitored : p.monitor = some monitor) (told : (p.play fuel).runs = [some outcome]) :
    ∃ as r, (World.initial p.accounts).run as = some (p.play fuel).stage.world ∧
      (p.play fuel).stage.world.runs = #[r] ∧ r.config = p.config ∧ r.monitored = true ∧ r.phase = .returned outcome := by
  let start : Stage := { world := World.initial p.accounts, script := p.script, wired := p.wired }
  let ready := if p.stopBefore then callStop start else start
  let ran := playRuns p fuel 1 ready [] p.requests
  let finished := (finishRequests ran.1 ran.2.1 ran.2.2).1
  have ended : (p.play fuel).stage = if p.stopAfter then callStop finished else finished := by
    simp only [play, alone]
    rfl
  have readied : start.Leads ready := by
    simp only [ready]
    split
    · exact leads_callStop start
    · exact .refl start
  obtain ⟨running, r, call, config, watched, notOver⟩ := call_playRuns p fuel monitored ready [] p.requests
  have later := call_finishRequests call notOver ran.2.1 ran.2.2
  have last : ran.1.Leads (p.play fuel).stage ∧ (p.play fuel).stage.world.runs[ready.world.runs.size]? = some r := by
    rw [ended]
    have requested := leads_finishRequests ran.1 ran.2.1 ran.2.2
    split
    · exact ⟨requested.trans (leads_callStop _), call_callStop later notOver⟩
    · exact ⟨requested, later⟩
  obtain ⟨as, reached⟩ := (readied.trans running).trans last.1
  have results : (p.play fuel).stage.world.runs.toList.map resultOf = [some outcome] := told
  obtain ⟨r', only, result⟩ := List.map_eq_singleton_iff.1 results
  have runs : (p.play fuel).stage.world.runs = #[r'] := Array.toList_inj.1 only
  have same : r = r' := by
    have found := last.2
    rw [runs] at found
    obtain ⟨_, e⟩ := Array.getElem?_eq_some_iff.1 found
    simpa using e.symm
  subst same
  refine ⟨as, r, reached, runs, config, watched, ?_⟩
  cases hp : r.phase with
  | returned result' => simpa [resultOf, hp] using result
  | «over» result' => exact absurd hp (notOver result')
  | _ => simp [resultOf, hp] at result

end Plan

end LedgerLoad.Rehearsal
