import LedgerLoad.Proofs.SinkFigures

/-!
Reports that are drawn while samples come in.

A report is drawn in four looks at a sink, each under a lock of its own: at the window, at the resource figures, at the
samples for the figures and at the samples once more for the list. Whoever writes meanwhile comes before, between or
after them. The list of a report has every sample that its figures know of, and those written between the last two looks
on top.
-/

set_option autoImplicit false

namespace LedgerLoad

/-- How far a report has come: what is looked at next, with what was seen before. -/
inductive Drawing where
  | atWindow
  | atResources (window : Window)
  | atFigures (window : Window) (resources : Option ResourceStats)
  | atList (statistics : RunStatistics)
  | drawn (report : RunReport)

/-- What goes on at a sink under one lock. -/
inductive Section where
  | write (w : Write)
  | look

def Section.isLook : Section → Bool
  | .look => true
  | .write _ => false

def Section.write? : Section → Option Write
  | .write w => some w
  | .look => none

def written (as : List Section) : List Write := as.filterMap Section.write?

structure RunReport.Counts (r : RunReport) (seen : List Sample) : Prop where
  total : r.statistics.totalRequests = seen.length
  successful : r.statistics.successfulRequests = seen.countP (·.success)
  timed : r.statistics.TimedAs (Figures.statistics seen {} none)

namespace Drawing

def look (config : WorkloadConfig) (protocol : Protocol) (s : Sink) : Drawing → Drawing
  | .atWindow => .atResources s.window
  | .atResources window => .atFigures window s.resources
  | .atFigures window resources => .atList (Figures.statistics s.samples.toList window resources)
  | .atList statistics => .drawn {
      metadata := RunMetadata.describe config protocol statistics.duration statistics.resources
      statistics := statistics
      samples := s.samples.toList }
  | .drawn report => .drawn report

def through (config : WorkloadConfig) (protocol : Protocol) : Sink → Drawing → List Section → Drawing
  | _, d, [] => d
  | s, d, .write w :: as => through config protocol (s.write w) d as
  | s, d, .look :: as => through config protocol s (d.look config protocol s) as

variable {config : WorkloadConfig} {protocol : Protocol} {s : Sink} {d : Drawing} {report : RunReport}
  {as : List Section}

theorem through_drawn : through config protocol s (.drawn report) as = .drawn report := by
  induction as generalizing s with
  | nil => rfl
  | cons a as ih =>
    cases a with
    | write w => exact ih (s := s.write w)
    | look => exact ih (s := s)

theorem through_look (ws : List Write) : through config protocol s d (ws.map .write ++ .look :: as) =
    through config protocol (s.writes ws) (d.look config protocol (s.writes ws)) as := by
  induction ws generalizing s with
  | nil => rfl
  | cons w ws ih => exact ih (s := s.write w)

theorem exists_look {n : Nat} (h : n + 1 ≤ as.countP Section.isLook) :
    ∃ (ws : List Write) (rest : List Section),
      as = ws.map .write ++ .look :: rest ∧ n ≤ rest.countP Section.isLook := by
  induction as with
  | nil => simp at h
  | cons a as ih =>
    cases a with
    | look =>
      rw [List.countP_cons_of_pos rfl] at h
      exact ⟨[], as, rfl, Nat.le_of_succ_le_succ h⟩
    | write w =>
      rw [List.countP_cons_of_neg (by simp [Section.isLook])] at h
      obtain ⟨ws, rest, rfl, hrest⟩ := ih h
      exact ⟨w :: ws, rest, rfl, hrest⟩

theorem written_map (ws : List Write) : written (ws.map .write) = ws := by
  induction ws with
  | nil => rfl
  | cons w ws ih => exact congrArg (w :: ·) ih

theorem written_look (ws : List Write) : written (ws.map .write ++ .look :: as) = ws ++ written as := by
  have split : written (ws.map .write ++ .look :: as) = written (ws.map .write) ++ written as := List.filterMap_append
  rw [split, written_map]

theorem countP_map (ws : List Write) : (ws.map Section.write).countP Section.isLook = 0 := by
  rw [List.countP_eq_zero]
  intro a ha
  obtain ⟨w, _, rfl⟩ := List.mem_map.1 ha
  simp [Section.isLook]

theorem countP_look (ws : List Write) :
    (ws.map Section.write ++ .look :: as).countP Section.isLook = as.countP Section.isLook + 1 := by
  rw [List.countP_append, countP_map, List.countP_cons_of_pos rfl, Nat.zero_add]

/-! ### The law -/

/-- Whoever writes while a report is drawn, the report comes about; its figures are those of the samples that its third
look finds, and its list has those that were written before the fourth on top. So the two agree exactly if no sample is
written between these two looks. A report that nobody writes during is the one that the sink gives at once. -/
theorem counts_samples_iff (h : 4 ≤ as.countP Section.isLook) :
    ∃ before between after report, as = before ++ .look :: (between.map .write ++ .look :: after) ∧
      before.countP Section.isLook = 2 ∧
      through config protocol s .atWindow as = .drawn report ∧
      report.Counts (s.writes (written before)).samples.toList ∧
      report.samples = (s.writes (written before)).samples.toList ++ added between ∧
      (report.Counts report.samples ↔ added between = []) ∧
      ∀ t : Sink, through config protocol t .atWindow (List.replicate 4 .look) = .drawn (t.report config protocol) := by
  obtain ⟨w₁, as, rfl, h₁⟩ := exists_look h
  obtain ⟨w₂, as, rfl, h₂⟩ := exists_look h₁
  obtain ⟨w₃, as, rfl, h₃⟩ := exists_look h₂
  obtain ⟨w₄, as, rfl, _⟩ := exists_look h₃
  let before : List Section := w₁.map .write ++ .look :: (w₂.map .write ++ .look :: w₃.map .write)
  let opened := s.writes w₁
  let attached := opened.writes w₂
  let seen := attached.writes w₃
  let statistics := Figures.statistics seen.samples.toList opened.window attached.resources
  let report : RunReport := {
    metadata := RunMetadata.describe config protocol statistics.duration statistics.resources
    statistics := statistics
    samples := (seen.writes w₄).samples.toList }
  have found : s.writes (written before) = seen := by
    rw [written_look, written_look, written_map, Sink.writes_append, Sink.writes_append]
  have counts : report.Counts seen.samples.toList := ⟨rfl, rfl, rfl, rfl, rfl, rfl, rfl, rfl⟩
  have list : report.samples = seen.samples.toList ++ added w₄ := Sink.samples_writes seen w₄
  refine ⟨before, w₄, as, report, by simp [before], ?_, ?_, by rw [found]; exact counts, by rw [found]; exact list,
    ⟨fun own => ?_, fun none => ?_⟩, fun t => rfl⟩
  · rw [countP_look, countP_look, countP_map]
  · rw [through_look w₁, through_look w₂, through_look w₃, through_look w₄]
    exact through_drawn
  · have more := own.total
    rw [counts.total, list, List.length_append] at more
    exact List.length_eq_zero_iff.1 (by omega)
  · rw [list, none, List.append_nil]
    exact counts

/-- A worker adds a sample before a report takes its third look, and another adds one before the fourth. -/
def overtaken : List Section :=
  [.write (.start 0), .look, .look, .write (.sample (.succeeded (Span.ofMillis 5) {})), .look,
    .write (.sample (.succeeded (Span.ofMillis 9) {})), .look, .write (.finish 1000000000)]

theorem counts_of_overtaken_report :
    4 ≤ overtaken.countP Section.isLook ∧
    ∃ report, through { scenario := .balance, concurrency := 2, duration := Span.ofSecs 1 } .rest {} .atWindow overtaken =
        .drawn report ∧
      report.statistics.totalRequests = 1 ∧ report.samples.length = 2 ∧ ¬ report.Counts report.samples := by
  have looks : 4 ≤ overtaken.countP Section.isLook := by decide
  obtain ⟨before, between, after, report, _, _, drawn, counts, list, agree, _⟩ :=
    @counts_samples_iff { scenario := .balance, concurrency := 2, duration := Span.ofSecs 1 } .rest {} overtaken looks
  obtain ⟨total, size⟩ : report.statistics.totalRequests = 1 ∧ report.samples.length = 2 := by
    have parts := drawn
    simp only [overtaken, through, look, Drawing.drawn.injEq] at parts
    rw [← parts]
    exact ⟨rfl, rfl⟩
  refine ⟨looks, report, drawn, total, size, fun own => ?_⟩
  have none := agree.1 own
  rw [none, List.append_nil] at list
  have seen := counts.total
  rw [← list, size, total] at seen
  cases seen

end Drawing

end LedgerLoad
