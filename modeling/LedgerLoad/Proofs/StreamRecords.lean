import LedgerLoad.Load.StreamWorkload

/-!
The grammar of what a stream workload puts on record, and what its end is put down to.

What may come next depends on the entries before it alone. The entry that ends a workload is the last one, and it says
why. Where the entries of one attempt are of one instant, the end is told by what held when the target was heard.
-/

set_option autoImplicit false

namespace LedgerLoad

def Sight.asks : Sight → Bool
  | .asked _ => true
  | _ => false

inductive Seen.Ends : Seen → Finish → Prop where
  | stopSeen {v : View} (hs : v.stopped = true) : Ends ⟨v, .flag⟩ .requestedCancellation
  | timeUp {v : View} (hd : v.deadline ≤ v.now) : Ends ⟨v, .clock⟩ .elapsed
  | closed {v : View} : Ends ⟨v, .handed .close⟩ .exhausted
  | torn {v : View} (e : TargetError) (hs : v.stopped = true) : Ends ⟨v, .judged e⟩ .requestedCancellation
  | failed {v : View} (e : TargetError) (hs : v.stopped = false) : Ends ⟨v, .judged e⟩ .unexpectedStreamFailure

def subscribed (record : List Seen) : Bool := record.any fun x => x.sight.asks

/-- What may come next on a record, newest first, of a workload that asks for events at some rate. -/
inductive Sight.Follows (rate : Nat) : Sight → List Seen → Prop where
  | first : Follows rate .flag []
  | clock {v : View} {older : List Seen} (hs : v.stopped = false) : Follows rate .clock (⟨v, .flag⟩ :: older)
  | asks {v : View} {older : List Seen} (hd : v.now < v.deadline) (new : subscribed older = false) :
      Follows rate (.asked rate) (⟨v, .clock⟩ :: older)
  | opens {v : View} {older : List Seen} (r : Nat) : Follows rate .opened (⟨v, .asked r⟩ :: older)
  | refuses {v : View} {older : List Seen} (r : Nat) (e : TargetError) :
      Follows rate (.refused e) (⟨v, .asked r⟩ :: older)
  | hands {v : View} {older : List Seen} (item : StreamItem) (hd : v.now < v.deadline)
      (old : subscribed older = true) : Follows rate (.handed item) (⟨v, .clock⟩ :: older)
  | finds {v : View} {older : List Seen} (hd : v.now < v.deadline) (old : subscribed older = true) :
      Follows rate .nothing (⟨v, .clock⟩ :: older)
  | listens {v : View} {older : List Seen} : Follows rate .flag (⟨v, .opened⟩ :: older)
  | wakes {v : View} {older : List Seen} : Follows rate .flag (⟨v, .nothing⟩ :: older)
  | goesOn {v : View} {older : List Seen} : Follows rate .flag (⟨v, .handed .event⟩ :: older)
  | judgesRefusal {v : View} {older : List Seen} (e : TargetError) :
      Follows rate (.judged e) (⟨v, .refused e⟩ :: older)
  | judgesError {v : View} {older : List Seen} (e : TargetError) :
      Follows rate (.judged e) (⟨v, .handed (.error e)⟩ :: older)

def Lawful (rate : Nat) : List Seen → Prop
  | [] => True
  | x :: older => x.sight.Follows rate older ∧ Lawful rate older

def Sight.prompt : Sight → Bool
  | .flag | .opened | .refused _ => false
  | _ => true

def Prompt : List Seen → Prop
  | [] => True
  | x :: older => (x.sight.prompt = true → ∀ y ∈ older.head?, y.view = x.view) ∧ Prompt older

variable {rate : Nat} {x y : Seen} {r older newer : List Seen} {f : Finish} {v : View}

theorem lawful_append (h : Lawful rate (newer ++ older)) : Lawful rate older := by
  induction newer with
  | nil => exact h
  | cons y newer ih => exact ih h.2

theorem prompt_append (h : Prompt (newer ++ older)) : Prompt older := by
  induction newer with
  | nil => exact h
  | cons y newer ih => exact ih h.2

theorem Seen.Ends.unique {g : Finish} (h : x.Ends f) (h' : x.Ends g) : f = g := by
  cases h with
  | torn e hs =>
    cases h' with
    | torn e hs' => rfl
    | failed e hs' =>
      rw [hs] at hs'
      cases hs'
  | failed e hs =>
    cases h' with
    | failed e hs' => rfl
    | torn e hs' =>
      rw [hs] at hs'
      cases hs'
  | _ =>
    cases h'
    rfl

theorem Sight.Follows.not_ends {s : Sight} (h : s.Follows rate (x :: older)) : ¬x.Ends f := by
  intro he
  cases he with
  | stopSeen hs =>
    cases h with
    | clock hs' =>
      rw [hs] at hs'
      cases hs'
  | timeUp hd => cases h <;> omega
  | closed | torn e hs | failed e hs => cases h

theorem not_ends_of_older (h : Lawful rate (y :: newer)) (hx : x ∈ newer) : ¬x.Ends f := by
  induction newer generalizing y with
  | nil => cases hx
  | cons z newer ih =>
    rcases List.mem_cons.1 hx with rfl | hx
    · exact h.1.not_ends
    · exact ih h.2 hx

theorem countP_asks (h : Lawful rate r) : r.countP (fun x => x.sight.asks) = (subscribed r).toNat := by
  induction r with
  | nil => rfl
  | cons x older ih =>
    rw [List.countP_cons, ih h.2, subscribed, subscribed, List.any_cons]
    cases hx : x.sight.asks with
    | false => simp
    | true =>
      have new : subscribed older = false := by
        have follows := h.1
        cases hs : x.sight with
        | asked n =>
          rw [hs] at follows
          cases follows with
          | asks hd new => exact new
        | _ => simp [hs, Sight.asks] at hx
      rw [subscribed] at new
      simp [new]

theorem rate_of_asked {n : Nat} (h : Lawful rate r) (hx : ⟨v, .asked n⟩ ∈ r) : n = rate := by
  obtain ⟨newer, older, rfl⟩ := List.append_of_mem hx
  have follows := (lawful_append h).1
  cases follows
  rfl

theorem looks_before_asking {n : Nat} (h : Lawful rate r) (hx : ⟨v, .asked n⟩ ∈ r) :
    (∃ w, ⟨w, .flag⟩ ∈ r ∧ w.stopped = false) ∧ ∃ w, ⟨w, .clock⟩ ∈ r ∧ w.now < w.deadline := by
  obtain ⟨newer, older, rfl⟩ := List.append_of_mem hx
  obtain ⟨follows, law⟩ := lawful_append h
  cases follows with
  | asks hd new =>
    have flag := law.1
    cases flag with
    | clock hs => exact ⟨⟨_, by simp, hs⟩, _, by simp, hd⟩

/-! ### Attribution -/

/-- What the record of a workload says that has come to the end `f`. -/
structure Attributed (r : List Seen) (f : Finish) : Prop where
  failure : f = .unexpectedStreamFailure ↔ ∃ v e, ⟨v, .judged e⟩ ∈ r ∧ v.stopped = false
  closed : f = .exhausted ↔ ∃ v, ⟨v, .handed .close⟩ ∈ r
  cancelled : f = .requestedCancellation ↔
    ∃ v, v.stopped = true ∧ (⟨v, .flag⟩ ∈ r ∨ ∃ e, ⟨v, .judged e⟩ ∈ r)
  elapsed : f = .elapsed ↔ ∃ v, ⟨v, .clock⟩ ∈ r ∧ v.deadline ≤ v.now

theorem attributed_of_ends (h : ∀ g, f = g ↔ ∃ x ∈ r, x.Ends g) : Attributed r f := by
  refine ⟨(h _).trans ⟨?_, ?_⟩, (h _).trans ⟨?_, ?_⟩, (h _).trans ⟨?_, ?_⟩, (h _).trans ⟨?_, ?_⟩⟩
  · rintro ⟨_, hx, he⟩
    cases he with
    | failed e hs => exact ⟨_, e, hx, hs⟩
  · rintro ⟨v, e, hx, hs⟩
    exact ⟨_, hx, .failed e hs⟩
  · rintro ⟨_, hx, he⟩
    cases he with
    | closed => exact ⟨_, hx⟩
  · rintro ⟨v, hx⟩
    exact ⟨_, hx, .closed⟩
  · rintro ⟨_, hx, he⟩
    cases he with
    | stopSeen hs => exact ⟨_, hs, .inl hx⟩
    | torn e hs => exact ⟨_, hs, .inr ⟨e, hx⟩⟩
  · rintro ⟨v, hs, hx | ⟨e, hx⟩⟩
    · exact ⟨_, hx, .stopSeen hs⟩
    · exact ⟨_, hx, .torn e hs⟩
  · rintro ⟨_, hx, he⟩
    cases he with
    | timeUp hd => exact ⟨_, hx, hd⟩
  · rintro ⟨v, hx, hd⟩
    exact ⟨_, hx, .timeUp hd⟩

/-! ### Attempts of one instant -/

theorem taken_apart (hr : Lawful rate r) (hp : Prompt r) (hx : x ∈ r) :
    ∃ newer older, r = newer ++ x :: older ∧ Lawful rate (x :: older) ∧ Prompt (x :: older) := by
  obtain ⟨newer, older, rfl⟩ := List.append_of_mem hx
  exact ⟨newer, older, rfl, lawful_append hr, prompt_append hp⟩

theorem unstopped_of_clock (hr : Lawful rate r) (hp : Prompt r) (hx : ⟨v, .clock⟩ ∈ r) : v.stopped = false := by
  obtain ⟨newer, older, rfl, ⟨follows, _⟩, same, _⟩ := taken_apart hr hp hx
  cases follows with
  | clock hs =>
    cases same rfl _ rfl
    exact hs

theorem clock_of_look {s : Sight} (hr : Lawful rate r) (hp : Prompt r) (hx : ⟨v, s⟩ ∈ r)
    (looks : (∃ n, s = .asked n) ∨ ∃ item, s = .handed item) : ⟨v, .clock⟩ ∈ r ∧ v.now < v.deadline := by
  obtain ⟨newer, older, rfl, ⟨follows, _⟩, same, _⟩ := taken_apart hr hp hx
  rcases looks with ⟨n, rfl⟩ | ⟨item, rfl⟩
  · cases follows with
    | asks hd new =>
      cases same rfl _ rfl
      exact ⟨by simp, hd⟩
  · cases follows with
    | hands _ hd old =>
      cases same rfl _ rfl
      exact ⟨by simp, hd⟩

theorem in_time {s : Sight} (hr : Lawful rate r) (hp : Prompt r) (hx : ⟨v, s⟩ ∈ r)
    (looks : (∃ n, s = .asked n) ∨ ∃ item, s = .handed item) : v.stopped = false ∧ v.now < v.deadline := by
  obtain ⟨clock, ahead⟩ := clock_of_look hr hp hx looks
  exact ⟨unstopped_of_clock hr hp clock, ahead⟩

theorem error_of_judged {e : TargetError} (hr : Lawful rate r) (hp : Prompt r) (hx : ⟨v, .judged e⟩ ∈ r) :
    ⟨v, .refused e⟩ ∈ r ∨ ⟨v, .handed (.error e)⟩ ∈ r := by
  obtain ⟨newer, older, rfl, ⟨follows, _⟩, same, _⟩ := taken_apart hr hp hx
  cases follows with
  | judgesRefusal e =>
    cases same rfl _ rfl
    exact .inl (by simp)
  | judgesError e =>
    cases same rfl _ rfl
    exact .inr (by simp)

theorem judged_of_error {e : TargetError} {s : Sight} (hr : Lawful rate r) (hp : Prompt r) (hx : ⟨v, s⟩ ∈ r)
    (he : s = .refused e ∨ s = .handed (.error e)) (last : ∀ y ∈ r.head?, y.Ends f) : ⟨v, .judged e⟩ ∈ r := by
  obtain ⟨newer, older, rfl⟩ := List.append_of_mem hx
  rcases List.eq_nil_or_concat newer with rfl | ⟨newer, ⟨w, z⟩, rfl⟩
  · have ends := last _ rfl
    rcases he with rfl | rfl <;> cases ends
  · rw [List.concat_eq_append, List.append_assoc, List.singleton_append] at hr hp
    have follows := (lawful_append hr).1
    have same := (prompt_append hp).1
    have judges : z = .judged e := by
      rcases he with rfl | rfl <;> cases follows <;> rfl
    subst judges
    cases same rfl _ rfl
    simp

/-- What the record of a workload that nothing disturbed says of its end `f`: an error counts as one, and a close as a
close, while no stop is requested and, with a subscription, the deadline is ahead; else a stop goes before the deadline. -/
structure Punctual (r : List Seen) (f : Finish) : Prop where
  asked : ∀ v n, ⟨v, .asked n⟩ ∈ r → v.stopped = false ∧ v.now < v.deadline
  failure : f = .unexpectedStreamFailure ↔
    ∃ v e, v.stopped = false ∧ (⟨v, .refused e⟩ ∈ r ∨ ⟨v, .handed (.error e)⟩ ∈ r ∧ v.now < v.deadline)
  closed : f = .exhausted ↔ ∃ v, ⟨v, .handed .close⟩ ∈ r ∧ v.stopped = false ∧ v.now < v.deadline
  last : ∃ x ∈ r.head?, (f = .requestedCancellation ↔ x.view.stopped = true) ∧
    (f = .elapsed ↔ x.view.stopped = false ∧ x.view.deadline ≤ x.view.now ∧ ∀ v e, ⟨v, .refused e⟩ ∉ r)

theorem last_of_ends (hr : Lawful rate r) (hp : Prompt r) (hx : x ∈ r.head?) (he : x.Ends f) (ha : Attributed r f) :
    (f = .requestedCancellation ↔ x.view.stopped = true) ∧
      (f = .elapsed ↔ x.view.stopped = false ∧ x.view.deadline ≤ x.view.now ∧ ∀ v e, ⟨v, .refused e⟩ ∉ r) := by
  have mem : x ∈ r := List.mem_of_mem_head? hx
  cases he with
  | stopSeen hs | torn e hs => simp [hs]
  | @timeUp v hd =>
    have unstopped : v.stopped = false := unstopped_of_clock hr hp mem
    refine ⟨by simp [unstopped], iff_of_true rfl ⟨unstopped, hd, fun w e hw => ?_⟩⟩
    have judged := judged_of_error hr hp hw (.inl rfl) fun y hy => by
      cases hx.symm.trans hy
      exact .timeUp hd
    cases hs : w.stopped with
    | true => cases ha.cancelled.2 ⟨w, hs, .inr ⟨e, judged⟩⟩
    | false => cases ha.failure.2 ⟨w, e, judged, hs⟩
  | closed =>
    obtain ⟨unstopped, ahead⟩ := in_time hr hp mem (.inr ⟨_, rfl⟩)
    exact ⟨by simp [unstopped], iff_of_false nofun fun h => Nat.not_le.2 ahead h.2.1⟩
  | failed e hs =>
    refine ⟨by simp [hs], iff_of_false nofun fun ⟨_, late, unrefused⟩ => ?_⟩
    rcases error_of_judged hr hp mem with refused | handed
    · exact unrefused _ e refused
    · exact Nat.not_le.2 (in_time hr hp handed (.inr ⟨_, rfl⟩)).2 late

end LedgerLoad
