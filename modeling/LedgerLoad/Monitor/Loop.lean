import LedgerLoad.Monitor

/-!
A sampler with its clock: when it looks at the process, and what its looks have come to.

The first look is due at once, each later one an interval after the one before. A look that comes late puts off the next,
unless it is late by so little that the timer takes no notice.
-/

set_option autoImplicit false

namespace LedgerLoad

theorem Sampler.alive_of_tick {s : Sampler} {p : Probe} (h : (s.tick p).alive = true) : s.alive = true := by
  unfold tick at h
  split at h <;> assumption

structure Monitor where
  interval : Nat
  began : Nat
  due : Nat
  looks : List Probe := []
  sampler : Sampler := {}
  stopped : Bool := false
  ticking : sampler.alive = true → 0 < interval

namespace Monitor

/-- How late a look may be without putting off the next. -/
def slack : Nat := 5000000

/-- A monitor that is started at an instant. No timer has an interval of zero: the sampler is gone before its first look. -/
def start (interval now : Nat) : Monitor where
  interval := interval
  began := now
  due := now
  sampler := { alive := decide (0 < interval) }
  ticking := of_decide_eq_true

def listening (m : Monitor) : Bool := m.sampler.alive && !m.stopped

def look (m : Monitor) (now : Nat) (p : Probe) : Monitor :=
  { m with
    due := (if m.due + slack < now then now else m.due) + m.interval
    looks := m.looks ++ [p]
    sampler := m.sampler.tick p
    ticking := fun h => m.ticking (Sampler.alive_of_tick h) }

def stop (m : Monitor) : Monitor := { m with stopped := true }

def figures (m : Monitor) : ResourceStats := m.sampler.readings.stats

theorem interval_pos {m : Monitor} (h : m.listening = true) : 0 < m.interval := by
  rw [listening, Bool.and_eq_true] at h
  exact m.ticking h.1

theorem due_look_due {m : Monitor} {p : Probe} : (m.look m.due p).due = m.due + m.interval := by
  have prompt : ¬ m.due + slack < m.due := by omega
  simp only [look, if_neg prompt]

/-- A monitor that nothing keeps waiting, up to an instant at which it is stopped. It looks whenever a look is due, the
`n`-th time at `probe n`, and notices the stop before it looks. -/
def runUntil (probe : Nat → Probe) (stop : Nat) (m : Monitor) : Monitor :=
  if _ready : m.listening = true ∧ m.due < stop then runUntil probe stop (m.look m.due (probe m.looks.length)) else m
termination_by stop - m.due
decreasing_by
  have positive := interval_pos _ready.1
  rw [due_look_due]
  omega

end Monitor

end LedgerLoad
