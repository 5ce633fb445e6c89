import LedgerLoad.Proofs.RunnerPunctuality
import LedgerLoad.Proofs.RunnerStreams
import LedgerLoad.Proofs.SinkFigures

/-!
The latencies of a stream run are the gaps between the events of one subscription.

A worker remembers when it took note of its last event, and the next one is timed against that. What other workers
receive in between is no part of it, however their steps fall between its own.
-/

set_option autoImplicit false

namespace LedgerLoad

def gaps : List Nat → List Span
  | s :: t :: ts => Span.between s t :: gaps (t :: ts)
  | _ => []

/-- The latencies of events at these instants. The first has no predecessor to be timed against. -/
def spacing : List Nat → List Span
  | [] => []
  | t :: ts => Span.zero :: gaps (t :: ts)

/-! ### Gaps -/

theorem gaps_concat (ts : List Nat) (t : Nat) :
    gaps (ts ++ [t]) = gaps ts ++ (ts.getLast?.map fun s => Span.between s t).toList := by
  induction ts with
  | nil => rfl
  | cons s ts ih =>
    cases ts with
    | nil => rfl
    | cons u ts =>
      change Span.between s u :: gaps ((u :: ts) ++ [t]) = _
      rw [ih]
      simp [gaps, List.getLast?_cons_cons]

theorem length_gaps (ts : List Nat) : (gaps ts).length = ts.length - 1 := by
  induction ts with
  | nil => rfl
  | cons s ts ih =>
    cases ts with
    | nil => rfl
    | cons u ts => simp [gaps, ih]

theorem length_spacing (ts : List Nat) : (spacing ts).length = ts.length := by
  cases ts with
  | nil => rfl
  | cons t ts => simp [spacing, length_gaps]

theorem measured_spacing (ts : List Nat) :
    (spacing ts).filter (fun g => !g.isZero) = (gaps ts).filter fun g => !g.isZero := by
  cases ts with
  | nil => rfl
  | cons t ts => simp [spacing, Span.isZero]

/-- Gaps telescope, unless one is too long for a span. -/
theorem totalNanos_gaps {first last : Nat} {ts : List Nat} (sorted : (first :: ts).Pairwise (· ≤ ·))
    (inRange : ∀ t ∈ ts, t < Span.limit) (hl : (first :: ts).getLast? = some last) :
    Figures.totalNanos (gaps (first :: ts)) = last - first ∧ first ≤ last := by
  induction ts generalizing first with
  | nil =>
    simp only [List.getLast?_singleton, Option.some.injEq] at hl
    subst hl
    exact ⟨(Nat.sub_self first).symm, Nat.le_refl _⟩
  | cons t ts ih =>
    obtain ⟨before, later⟩ := List.pairwise_cons.1 sorted
    have step : first ≤ t := before t List.mem_cons_self
    have bound : t < Span.limit := inRange t List.mem_cons_self
    obtain ⟨rest, order⟩ := ih later (fun u hu => inRange u (List.mem_cons_of_mem _ hu))
      (by rw [← hl, List.getLast?_cons_cons])
    have gap : (Span.between first t).nanos = t - first := Span.ofNanos_of_lt (by omega)
    have total : Figures.totalNanos (gaps (first :: t :: ts)) =
        (Span.between first t).nanos + Figures.totalNanos (gaps (t :: ts)) := rfl
    omega

theorem totalNanos_spacing {first last : Nat} {ts : List Nat} (sorted : ts.Pairwise (· ≤ ·))
    (inRange : ∀ t ∈ ts, t < Span.limit) (hf : ts.head? = some first) (hl : ts.getLast? = some last) :
    Figures.totalNanos (spacing ts) = last - first := by
  cases ts with
  | nil => cases hf
  | cons t ts =>
    cases hf
    have total : Figures.totalNanos (spacing (first :: ts)) = Figures.totalNanos (gaps (first :: ts)) :=
      Nat.zero_add _
    rw [total]
    exact (totalNanos_gaps sorted (fun u hu => inRange u (List.mem_cons_of_mem _ hu)) hl).1

theorem spacing_concat (ts : List Nat) (t : Nat) :
    spacing (ts ++ [t]) = spacing ts ++ [Load.World.gap ts.getLast? t] := by
  cases ts with
  | nil => rfl
  | cons s ts =>
    have last : (s :: ts).getLast? = some ((s :: ts).getLast (List.cons_ne_nil _ _)) := List.getLast?_eq_some_getLast _
    change Span.zero :: gaps ((s :: ts) ++ [t]) = Span.zero :: gaps (s :: ts) ++ _
    rw [gaps_concat, last]
    rfl

def StreamPhase.last? : StreamPhase → Option (Option Nat)
  | .looking last | .lookingClock last | .lookingItem last | .parked last | .received last => some last
  | .failing _ | .done _ => none
  | _ => some none

namespace Load

namespace Worker

def last? : Worker → Option (Option Nat)
  | .stream p | .recordingStream _ p => p.last?
  | _ => none

def noting : Worker → Bool
  | .stream (.received _) => true
  | _ => false

def unsubscribed : Worker → Bool
  | .stream .start | .stream .unstopped | .stream .ready => true
  | _ => false

end Worker

def Entry.arrival? : Entry → Option Nat
  | .received _ .event t => some t
  | _ => none

def arrivals (i : Nat) (es : List Entry) : List Nat := ((own i es).filterMap Entry.arrival?).reverse

namespace World

variable {u v v' w w' : World} {a : Action} {as bs : List Action} {i j k : Nat} {x : Worker} {e : Effect} {r : RunCall}
  {accounts : List String} {ys : List Sample} {ts rs : List Nat}

def notes (w : World) (i : Nat) : Bool := (w.workers[i]?).any Worker.noting

def receipts (i : Nat) : World → List Action → List Nat :=
  gathered fun w a _ => if a.worker? = some i ∧ w.notes i = true then [w.now] else []

theorem receipts_concat (h : u.run as = some w) (ha : w.step a = some w') :
    receipts i u (as ++ [a]) = receipts i u as ++ if a.worker? = some i ∧ w.notes i = true then [w.now] else [] :=
  gathered_concat h ha

/-- The instants at which time passes between an event of worker `i` and the look at the clock that notes it. -/
def lapses (i : Nat) : World → List Action → List Nat :=
  gathered fun w a _ => if a.passes = true ∧ w.notes i = true then [w.now] else []

theorem lapses_concat (h : u.run as = some w) (ha : w.step a = some w') :
    lapses i u (as ++ [a]) = lapses i u as ++ if a.passes = true ∧ w.notes i = true then [w.now] else [] :=
  gathered_concat h ha

/-! ### Steps of a subscription -/

inductive Hears (w : World) (i : Nat) (x : Worker) (e : Effect) : Prop where
  | arrives (last : Option Nat) (hx : x.last? = some last) (hn : x.noting = false) (hc : e.worker.carried = none)
      (he : e.entries = [.received i .event w.now]) (hl : e.worker.last? = some last) (hr : e.worker.noting = true)
  | notes (last : Option Nat) (sample : Sample) (hx : x.last? = some last) (hn : x.noting = true)
      (he : e.entries = []) (hc : e.worker.carried = some sample) (hs : sample.success = true)
      (hg : sample.latency = gap last w.now) (hl : e.worker.last? = some (some w.now)) (hr : e.worker.noting = false)
  | neither (hn : x.noting = false) (hr : e.worker.noting = false) (he : e.entries.filterMap Entry.arrival? = [])
      (hc : ∀ s, e.worker.carried = some s → s.success = false)
      (hl : ∀ l, e.worker.last? = some l → x.last? = some l)

theorem StreamStep.hears (h : StreamStep w i x a e) (hs : x.serves .stream = true) : Hears w i x e := by
  cases h with
  | receives last => exact .arrives last rfl rfl rfl rfl rfl rfl
  | times last => exact .notes last _ rfl rfl rfl rfl rfl rfl rfl rfl
  | records s p =>
    cases p with
    | looking last | done why => exact .neither rfl rfl rfl (fun _ hc => nomatch hc) (fun _ hl => hl)
    | _ => cases hs
  | reports e hs =>
    refine .neither rfl rfl rfl (fun s hc => ?_) (fun _ hl => nomatch hl)
    cases hc
    rfl
  | _ => exact .neither rfl rfl rfl (fun _ hc => nomatch hc) (fun l hl => by first | exact hl | cases hl)

/-- The successes of a worker tell of the gaps between the instants that it noted, of which it remembers the last. -/
structure Timed (x : Worker) (ys : List Sample) (rs : List Nat) (now : Nat) : Prop where
  latencies : (ys.filter (·.success)).map (·.latency) = spacing rs
  last : ∀ l, x.last? = some l → l = rs.getLast?
  sorted : rs.Pairwise (· ≤ ·)
  past : ∀ t ∈ rs, t ≤ now

theorem Timed.later {now : Nat} (h : Timed x ys rs w.now) (hn : w.now ≤ now) : Timed x ys rs now :=
  ⟨h.latencies, h.last, h.sorted, fun t ht => Nat.le_trans (h.past t ht) hn⟩

theorem Hears.timed (h : Hears w i x e) (ht : Timed x ys rs w.now) :
    Timed e.worker (ys ++ e.worker.carried.toList) (rs ++ if x.noting = true then [w.now] else []) w.now := by
  have unnoted : x.noting = false → (∀ s, e.worker.carried = some s → s.success = false) →
      (∀ l, e.worker.last? = some l → x.last? = some l) →
      Timed e.worker (ys ++ e.worker.carried.toList) (rs ++ if x.noting = true then [w.now] else []) w.now := by
    intro hn hc hl
    have same : (rs ++ if x.noting = true then [w.now] else []) = rs := by simp [hn]
    have failures : e.worker.carried.toList.filter (·.success) = [] := by
      cases he : e.worker.carried with
      | none => rfl
      | some s => simp [hc s he]
    rw [same]
    refine ⟨?_, fun l h => ht.last l (hl l h), ht.sorted, ht.past⟩
    rw [List.filter_append, failures, List.append_nil]
    exact ht.latencies
  cases h with
  | arrives last hx hn hc he hl hr =>
    refine unnoted hn (fun s h => ?_) (fun l h => ?_)
    · rw [hc] at h
      cases h
    · rw [hl] at h
      rw [hx, h]
  | notes last sample hx hn he hc hs hg hl hr =>
    have before : last = rs.getLast? := ht.last last hx
    rw [if_pos hn, hc]
    refine ⟨?_, fun l h => ?_, ?_, ?_⟩
    · simp [List.filter_append, hs, ht.latencies, spacing_concat, hg, before]
    · rw [hl] at h
      cases h
      simp
    · simp only [List.pairwise_append, List.pairwise_cons, List.not_mem_nil, List.mem_singleton]
      exact ⟨ht.sorted, by simp, fun t h u hu => hu ▸ ht.past t h⟩
    · intro t h
      rcases List.mem_append.1 h with h | h
      · exact ht.past t h
      · exact Nat.le_of_eq (List.mem_singleton.1 h)
  | neither hn hr he hc hl => exact unnoted hn hc hl

/-- An event that is handed over at one of the instants `ts` is noted at the instant of the same place in `rs`, and the
next one is handed over after that. -/
structure Noted (x : Worker) (ts rs : List Nat) (now : Nat) : Prop where
  count : ts.length = rs.length + x.noting.toNat
  past : ∀ t ∈ ts, t ≤ now
  held : ∀ (n s t : Nat), ts[n]? = some s → rs[n]? = some t → s ≤ t
  next : ∀ (n s t : Nat), rs[n]? = some s → ts[n + 1]? = some t → s ≤ t

theorem Noted.later {now : Nat} (h : Noted x ts rs w.now) (hn : w.now ≤ now) : Noted x ts rs now :=
  ⟨h.count, fun t ht => Nat.le_trans (h.past t ht) hn, h.held, h.next⟩

theorem getElem?_concat_eq_some {α : Type} {l : List α} {b c : α} {n : Nat} (h : (l ++ [b])[n]? = some c) :
    l[n]? = some c ∨ n = l.length ∧ c = b := by
  rw [List.getElem?_append] at h
  split at h
  · exact .inl h
  · rw [List.getElem?_singleton] at h
    split at h
    · cases h
      exact .inr ⟨by omega, rfl⟩
    · cases h

theorem Hears.noted (h : Hears w i x e) (past : ∀ t ∈ rs, t ≤ w.now) (hn : Noted x ts rs w.now) :
    Noted e.worker (ts ++ (e.entries.filterMap Entry.arrival?).reverse)
      (rs ++ if x.noting = true then [w.now] else []) w.now := by
  have count := hn.count
  cases h with
  | arrives last hx hx' hc he hl hr =>
    have new : (e.entries.filterMap Entry.arrival?).reverse = [w.now] := by rw [he]; rfl
    rw [new, if_neg (by simp [hx']), List.append_nil]
    simp only [hx', Bool.toNat_false, Nat.add_zero] at count
    refine ⟨by simp [hr, count], ?_, ?_, ?_⟩
    · intro t h
      rcases List.mem_append.1 h with h | h
      · exact hn.past t h
      · exact Nat.le_of_eq (List.mem_singleton.1 h)
    · intro n s t h ht
      rcases getElem?_concat_eq_some h with h | ⟨rfl, rfl⟩
      · exact hn.held n s t h ht
      · rw [count, List.getElem?_eq_none (Nat.le_refl _)] at ht
        cases ht
    · intro n s t hs h
      rcases getElem?_concat_eq_some h with h | ⟨_, rfl⟩
      · exact hn.next n s t hs h
      · exact past s (List.mem_of_getElem? hs)
  | notes last sample hx hx' he hc hs hg hl hr =>
    have new : (e.entries.filterMap Entry.arrival?).reverse = [] := by rw [he]; rfl
    rw [new, if_pos hx', List.append_nil]
    simp only [hx', Bool.toNat_true] at count
    refine ⟨by simp [hr, count], hn.past, ?_, ?_⟩
    · intro n s t hs h
      rcases getElem?_concat_eq_some h with h | ⟨_, rfl⟩
      · exact hn.held n s t hs h
      · exact hn.past s (List.mem_of_getElem? hs)
    · intro n s t h ht
      rcases getElem?_concat_eq_some h with h | ⟨rfl, rfl⟩
      · exact hn.next n s t h ht
      · rw [← count, List.getElem?_eq_none (Nat.le_refl _)] at ht
        cases ht
  | neither hx hr he hc hl =>
    rw [he, if_neg (by simp [hx])]
    simp only [List.reverse_nil, List.append_nil]
    exact ⟨by rw [count, hx, hr], hn.past, hn.held, hn.next⟩

theorem Hears.prompt (h : Hears w i x e) (ht : ts = rs ++ if x.noting = true then [w.now] else []) :
    ts ++ (e.entries.filterMap Entry.arrival?).reverse =
      (rs ++ if x.noting = true then [w.now] else []) ++ if e.worker.noting = true then [w.now] else [] := by
  rw [← ht]
  cases h with
  | arrives last hx hn hc he hl hr => simp [he, hr, Entry.arrival?]
  | notes last sample hx hn he hc hs hg hl hr => simp [he, hr]
  | neither hn hr he hc hl => simp [he, hr]

theorem StreamStep.asks (h : StreamStep w i x a e) (hs : x.serves .stream = true) :
    e.entries.countP Entry.asks + e.worker.unsubscribed.toNat ≤ x.unsubscribed.toNat := by
  cases h with
  | records s p =>
    cases p with
    | looking last | done why => exact Nat.le_refl _
    | _ => cases hs
  | _ => simp [Entry.asks, Worker.unsubscribed]

/-! ### Schedules -/

theorem receipts_of_vacant (h : (initial accounts).run as = some w) (hx : w.workers[i]? = none) :
    receipts i (initial accounts) as = [] := by
  refine run_induction (P := fun bs v => v.workers[i]? = none → receipts i (initial accounts) bs = []) ?_ ?_ h hx
  · exact fun _ => rfl
  · intro bs v b v' hb ih hs hx
    have before : v.workers[i]? = none := by
      rcases (orderly_of_run hb).cases hs with ⟨_, quiet | sets⟩ | ⟨j, y, e, _, hy, _, rfl⟩
      · rw [← quiet.workers, hx]
      · exact sets.empty.no_worker
      · rw [workers_affect hy] at hx
        split at hx
        · cases hx
        · exact hx
    rw [receipts_concat hb (step_of_happens hs), ih before]
    simp [notes, before]

structure Subscriber (u : World) (as : List Action) (w : World) (i : Nat) (x : Worker) : Prop where
  timed : Timed x (yields i u as) (receipts i u as) w.now
  noted : Noted x (arrivals i w.log) (receipts i u as) w.now
  prompt : lapses i u as = [] → arrivals i w.log = receipts i u as ++ if x.noting = true then [w.now] else []
  once : (own i w.log).countP Entry.asks + x.unsubscribed.toNat ≤ 1

theorem Subscriber.waits (h : Subscriber u bs v i x) (hb : u.run bs = some v) (hs : Happens v a v')
    (apart : Apart i a v v') (hx : v.workers[i]? = some x) : Subscriber u (bs ++ [a]) v' i x := by
  have step := step_of_happens hs
  have samples : yields i u (bs ++ [a]) = yields i u bs := by
    rw [yields_concat hb step, if_neg apart.idle, List.append_nil]
  have noted : receipts i u (bs ++ [a]) = receipts i u bs := by
    rw [receipts_concat hb step, if_neg (fun h => apart.idle h.1), List.append_nil]
  have arrived : arrivals i v'.log = arrivals i v.log := by rw [arrivals, apart.own, arrivals]
  refine ⟨?_, ?_, fun ha => ?_, ?_⟩
  · rw [samples, noted]
    exact h.timed.later apart.now
  · rw [arrived, noted]
    exact h.noted.later apart.now
  · rw [lapses_concat hb step, List.append_eq_nil_iff] at ha
    rw [arrived, noted, h.prompt ha.1]
    by_cases pass : ∃ n, a = .pass n
    · obtain ⟨n, rfl⟩ := pass
      have idle : x.noting = false := by simpa [Action.passes, World.notes, hx] using ha.2
      simp [idle]
    · rw [now_step hs fun n hn => pass ⟨n, hn⟩]
  · rw [apart.own]
    exact h.once

theorem Subscriber.goes (h : Subscriber u bs v i x) (hb : u.run bs = some v) (hx : v.workers[i]? = some x)
    (serves : x.serves .stream = true) (hw : WorkerStep v i x a e) :
    Subscriber u (bs ++ [a]) (v.affect i e) i e.worker := by
  have step : v.step a = some (v.affect i e) := step_of_happens (.worked hx hw)
  have hears : Hears v i x e := (hw.stream serves).hears serves
  have samples : yields i u (bs ++ [a]) = yields i u bs ++ e.worker.carried.toList := by
    rw [yields_concat hb step, if_pos hw.worker, workers_affect hx, if_pos rfl, Option.bind_some]
  have noted : receipts i u (bs ++ [a]) = receipts i u bs ++ if x.noting = true then [v.now] else [] := by
    simp [receipts_concat hb step, hw.worker, World.notes, hx]
  have entries : own i (v.affect i e).log = e.entries ++ own i v.log := own_append_own hw.entries_own
  have arrived : arrivals i (v.affect i e).log = arrivals i v.log ++ (e.entries.filterMap Entry.arrival?).reverse := by
    rw [arrivals, entries, List.filterMap_append, List.reverse_append, arrivals]
  refine ⟨?_, ?_, fun ha => ?_, ?_⟩
  · rw [samples, noted]
    exact hears.timed h.timed
  · rw [arrived, noted]
    exact hears.noted h.timed.past h.noted
  · rw [lapses_concat hb step, List.append_eq_nil_iff] at ha
    rw [arrived, noted]
    exact hears.prompt (h.prompt ha.1)
  · rw [entries, List.countP_append]
    have once := h.once
    have fewer := (hw.stream serves).asks serves
    omega

theorem subscriber_blank (hy : yields i u as = []) (hr : receipts i u as = []) (hl : w.log = []) :
    Subscriber u as w i (freshWorker .stream) := by
  refine ⟨?_, ?_, fun _ => ?_, ?_⟩
  · rw [hy, hr]
    refine ⟨rfl, fun l h => ?_, List.Pairwise.nil, fun t ht => nomatch ht⟩
    cases h
    rfl
  · rw [hr, hl]
    exact ⟨rfl, fun t ht => (nomatch ht), fun n s t hs => (nomatch hs), fun n s t hs => nomatch hs⟩
  · rw [hr, hl]
    rfl
  · rw [hl]
    exact Nat.le_refl 1

theorem subscriber_of_run (h : (initial accounts).run as = some w) (c : w.ClaimedBy k r)
    (hs : r.config.scenario = .stream) (hx : w.workers[i]? = some x) : Subscriber (initial accounts) as w i x := by
  refine worker_induction (P := fun bs v x => Subscriber (initial accounts) bs v i x) h c hx ?_ ?_ ?_
  · intro bs v early d hb c _
    have step := step_of_happens (.called k early c.call (.staffs rfl))
    have unstaffed : v.Unstaffed := c.standing.2.1
    have samples : yields i (initial accounts) (bs ++ [.advanceRun k early]) = [] := by
      rw [yields_concat hb step, yields_of_run i hb, unstaffed.log, unstaffed.no_worker]
      rfl
    have noted : receipts i (initial accounts) (bs ++ [.advanceRun k early]) = [] := by
      rw [receipts_concat hb step, receipts_of_vacant hb unstaffed.no_worker]
      rfl
    rw [hs]
    exact subscriber_blank samples noted unstaffed.log
  · exact fun bs v a v' x hb happens apart hx _ ih => ih.waits hb happens apart hx
  · intro bs v a x e hb hx serves hw ih
    rw [hs] at serves
    exact ih.goes hb hx serves hw

/-! ### The law -/

structure Spaced (ys : List Sample) (rs : List Nat) : Prop where
  sorted : rs.Pairwise (· ≤ ·)
  successes : ys.countP (·.success) = rs.length
  latencies : (ys.filter (·.success)).map (·.latency) = spacing rs
  total : (∀ t ∈ rs, t < clockLimit) → Figures.totalNanos (spacing rs) = rs.getLast?.getD 0 - rs.head?.getD 0
  measured : (ys.filter Sample.hasLatency).map (·.latency) = (gaps rs).filter fun g => !g.isZero
  atMost : ys.countP Sample.hasLatency ≤ rs.length - 1

theorem measured_latencies (ys : List Sample) :
    (ys.filter Sample.hasLatency).map (·.latency) =
      ((ys.filter (·.success)).map (·.latency)).filter fun g => !g.isZero := by
  have both : ys.filter Sample.hasLatency = (ys.filter (·.success)).filter fun s => !s.latency.isZero := by
    rw [List.filter_filter]
    exact List.filter_congr fun s _ => Bool.and_comm _ _
  rw [both, List.filter_map]
  rfl

theorem Timed.spaced {now : Nat} (h : Timed x ys rs now) : Spaced ys rs := by
  have measured : (ys.filter Sample.hasLatency).map (·.latency) = (gaps rs).filter fun g => !g.isZero := by
    rw [measured_latencies, h.latencies, measured_spacing]
  refine ⟨h.sorted, ?_, h.latencies, fun inRange => ?_, measured, ?_⟩
  · rw [List.countP_eq_length_filter, ← List.length_map (·.latency), h.latencies, length_spacing]
  · cases rs with
    | nil => rfl
    | cons t ts =>
      have inside : ∀ u ∈ t :: ts, u < Span.limit := fun u hu => Nat.lt_trans (inRange u hu) (by decide)
      have last : (t :: ts).getLast? = some ((t :: ts).getLast (List.cons_ne_nil _ _)) := List.getLast?_eq_some_getLast _
      rw [totalNanos_spacing h.sorted inside rfl last, last]
      rfl
  · rw [List.countP_eq_length_filter, ← List.length_map (·.latency), measured, ← length_gaps]
    exact List.length_filter_le _ _

/-- A worker of a stream run has one subscription, and contributes a success for each of its events: the first with no
latency, every other with the time since the one before, whatever other workers receive in between; and after these one
failure at most. So the latencies that a run measures are the positive gaps of each subscription. -/
theorem gaps_of_subscriptions (h : (initial accounts).run as = some w) (hk : Claims accounts as k)
    (hr : w.runs[k]? = some r) (hs : r.config.scenario = .stream) :
    (∀ (i : Nat) (x : Worker), w.workers[i]? = some x →
      Spaced (yields i (initial accounts) as) (receipts i (initial accounts) as) ∧
      (own i w.log).countP Entry.asks ≤ 1 ∧
      Noted x (arrivals i w.log) (receipts i (initial accounts) as) w.now ∧
      (lapses i (initial accounts) as = [] → x.noting = false →
        arrivals i w.log = receipts i (initial accounts) as) ∧
      yields i (initial accounts) as = (recorded (own i w.log)).reverse ++ x.carried.toList ∧
      FailsLast x (yields i (initial accounts) as)) ∧
    (w.allTerminated = true →
      (∀ (i : Nat) (x : Worker), w.workers[i]? = some x → x.noting = false ∧ x.carried = none) ∧
      w.sink.samples.toList.Perm ((List.range w.workers.size).flatMap fun i => yields i (initial accounts) as) ∧
      w.sink.latencies.Perm ((List.range w.workers.size).flatMap fun i =>
        (gaps (receipts i (initial accounts) as)).filter fun g => !g.isZero)) := by
  have c : w.ClaimedBy k r := claimedBy_of_claims h hk hr
  have subscriber := fun (i : Nat) (x : Worker) (hx : w.workers[i]? = some x) => subscriber_of_run h c hs hx
  refine ⟨fun i x hx => ?_, fun gone => ⟨fun i x hx => ?_, ?_⟩⟩
  · have law := subscriber i x hx
    have once := law.once
    have told := yields_of_run i h
    rw [hx, Option.bind_some] at told
    refine ⟨law.timed.spaced, by omega, law.noted, fun prompt noted => ?_, told, failsLast_of_worker h c hs hx⟩
    rw [law.prompt prompt, noted]
    simp
  · have ended := allTerminated_iff.1 gone i x hx
    refine ⟨?_, carried_of_terminated ended⟩
    cases x <;> first | rfl | cases ended
  · have all := samples_of_yields h gone
    refine ⟨all, ?_⟩
    have parts := (all.filter Sample.hasLatency).map (·.latency)
    rw [List.filter_flatMap, List.map_flatMap] at parts
    refine (Figures.latencies_perm _).trans (parts.trans (List.Perm.of_eq ?_))
    refine List.flatMap_congr fun i hi => ?_
    have inside : i < w.workers.size := List.mem_range.1 hi
    exact (subscriber i _ (Array.getElem?_eq_getElem inside)).timed.spaced.measured

def hearing (i n : Nat) : List Action :=
  [.work i, .work i, .look i none, .pass n, .wake i, .work i, .work i, .look i (some .event), .work i, .work i]

/-- Two workers with a subscription each. The second has both of its events between the first two of the other. -/
def entwined : List Action :=
  let config : WorkloadConfig := { scenario := .stream, concurrency := 2, duration := Span.ofSecs 1 }
  .run config false :: List.replicate 5 (.advanceRun 0 false) ++
    [.work 0, .work 0, .subscribe 0, .answer 0 (.ok ()), .work 1, .work 1, .subscribe 1, .answer 1 (.ok ())] ++
    hearing 0 10 ++ hearing 1 10 ++ hearing 1 5 ++ hearing 0 5 ++ hearing 0 30 ++
    [.work 0, .work 0, .look 0 (some .close), .work 1, .work 1, .look 1 (some .close)] ++
    List.replicate 5 (.advanceRun 0 false)

theorem gaps_of_entwined_subscriptions : ∃ w r, (initial []).run entwined = some w ∧ Claims [] entwined 0 ∧
    w.runs[0]? = some r ∧ r.config.scenario = .stream ∧ arrivals 0 w.log = [10, 30, 60] ∧ arrivals 1 w.log = [20, 25] ∧
    Spaced (yields 0 (initial []) entwined) [10, 30, 60] ∧ Figures.totalNanos (spacing [10, 30, 60]) = 60 - 10 ∧
    w.sink.latencies.Perm [Span.ofNanos 20, Span.ofNanos 30, Span.ofNanos 5] := by
  have facts : ((initial []).run entwined).map (fun w => (w.state, w.runs.size, w.workers.size,
      (w.runs[0]?).map fun r => r.config.scenario)) = some (.stopped, 1, 2, some .stream) := by decide +kernel
  have first : receipts 0 (initial []) entwined = [10, 30, 60] := by decide +kernel
  have second : receipts 1 (initial []) entwined = [20, 25] := by decide +kernel
  have prompt : lapses 0 (initial []) entwined = [] ∧ lapses 1 (initial []) entwined = [] := by decide +kernel
  obtain ⟨w, h, hw⟩ := Option.map_eq_some_iff.1 facts
  simp only [Prod.mk.injEq, Option.map_eq_some_iff] at hw
  obtain ⟨state, alone, size, r, hr, hs⟩ := hw
  have hk : Claims [] entwined 0 := claims_of_alone h (by rw [state]; decide) alone
  have gone : w.allTerminated = true := (standing_stopped (claimedBy_of_claims h hk hr).standing state).1
  obtain ⟨each, all⟩ := gaps_of_subscriptions h hk hr hs
  obtain ⟨idle, _, latencies⟩ := all gone
  have hx : w.workers[0]? = some w.workers[0] := Array.getElem?_eq_getElem (by omega)
  have hy : w.workers[1]? = some w.workers[1] := Array.getElem?_eq_getElem (by omega)
  obtain ⟨spaced, _, _, same, _⟩ := each 0 _ hx
  obtain ⟨_, _, _, same', _⟩ := each 1 _ hy
  rw [first] at spaced
  refine ⟨w, r, h, hk, hr, hs, ?_, ?_, spaced, spaced.total (by decide), ?_⟩
  · rw [same prompt.1 (idle 0 _ hx).1, first]
  · rw [same' prompt.2 (idle 1 _ hy).1, second]
  · have range : List.range w.workers.size = [0, 1] := by rw [size]; rfl
    rw [range, List.flatMap_cons, List.flatMap_singleton, first, second] at latencies
    exact latencies

end World

end Load

end LedgerLoad
