import Mathlib.Data.List.Induction
import Mathlib.Logic.Relation
import LedgerLoad.StopSignal

/-!
Stop signals fall into families: a signal, its clones, the clones of these, and so on.

A family is told here from the history of operations alone, as what cloning connects. A stop that is requested on one
member is seen by all members and by every task that awaits a stop on one of them, however long before or after; no other
family takes note of it.
-/

set_option autoImplicit false

namespace LedgerLoad.StopSignals

/-- No signal was made yet. Founding one leads to `{}`. -/
def empty : StopSignals := { families := [], flags := [] }

inductive Op where
  | found
  | clone (i : Nat)
  | stop (i : Nat)
  | look (i : Nat)
  | await (i : Nat)
deriving DecidableEq, Repr

def Op.signal? : Op → Option Nat
  | .found => none
  | .clone i | .stop i | .look i | .await i => some i

def perform (s : StopSignals) : Op → Option StopSignals
  | .found => some s.found.1
  | .clone i => (s.clone i).map Prod.fst
  | .stop i => (s.stop i).map Prod.fst
  | .look i => (s.isStopped i).map fun _ => s
  | .await i => (s.await i).map Prod.fst

def after (s : StopSignals) (ops : List Op) : Option StopSignals := ops.foldlM perform s

/-- The signals of a history in the order in which they were made, each with the signal that it was cloned from. -/
def origins (ops : List Op) : List (Option Nat) :=
  ops.filterMap fun
    | .found => some none
    | .clone i => some (some i)
    | _ => none

def awaited (ops : List Op) : List Nat :=
  ops.filterMap fun
    | .await i => some i
    | _ => none

def CloneOf (ops : List Op) (i j : Nat) : Prop := (origins ops)[j]? = some (some i)

/-- Two signals are of one family if cloning connects them. -/
def Kin (ops : List Op) : Nat → Nat → Prop := Relation.EqvGen (CloneOf ops)

def Raised (ops : List Op) (i : Nat) : Prop := ∃ j, Kin ops i j ∧ Op.stop j ∈ ops

variable {s s' : StopSignals} {op : Op} {ops more : List Op} {i j k w f : Nat}

/-! ### Histories -/

theorem after_concat : empty.after (ops ++ [op]) = some s' ↔ ∃ s, empty.after ops = some s ∧ s.perform op = some s' := by
  simp [after, List.foldlM_append, Option.bind_eq_some_iff]

theorem after_append : empty.after (ops ++ more) = some s' ↔ ∃ s, empty.after ops = some s ∧ s.after more = some s' := by
  simp [after, List.foldlM_append, Option.bind_eq_some_iff]

theorem origins_append : origins (ops ++ more) = origins ops ++ origins more := List.filterMap_append

theorem awaited_append : awaited (ops ++ more) = awaited ops ++ awaited more := List.filterMap_append

theorem CloneOf.later (h : CloneOf ops i j) : CloneOf (ops ++ more) i j := by
  obtain ⟨inside, _⟩ := List.getElem?_eq_some_iff.1 h
  rw [CloneOf, origins_append, List.getElem?_append_left inside]
  exact h

theorem Kin.later (h : Kin ops i j) : Kin (ops ++ more) i j := Relation.EqvGen.mono (fun _ _ => CloneOf.later) _ _ h

/-! ### What a state keeps of its history -/

/-- A state holds the families of its history, and their flags and tasks. -/
structure Keeps (ops : List Op) (s : StopSignals) : Prop where
  size : s.families.length = (origins ops).length
  founded : ∀ i f, s.family? i = some f → f < s.flags.length
  connected : ∀ i j f, s.family? i = some f → s.family? j = some f → Kin ops i j
  cloned : ∀ i j, CloneOf ops i j → ∃ f, s.family? i = some f ∧ s.family? j = some f
  stopped : ∀ i, Op.stop i ∈ ops → ∃ f, s.family? i = some f
  flags : ∀ f, s.flag f = true ↔ ∃ i, s.family? i = some f ∧ Op.stop i ∈ ops
  waits : s.waits.map some = (awaited ops).map s.family?

theorem family?_append {fs : List Nat} (h : s.family? i = some f) :
    ({ s with families := s.families ++ fs } : StopSignals).family? i = some f := by
  obtain ⟨inside, _⟩ := List.getElem?_eq_some_iff.1 h
  rw [family?, List.getElem?_append_left inside]
  exact h

theorem Keeps.kin_iff (k : Keeps ops s) (hi : s.family? i = some f) : Kin ops i j ↔ s.family? j = some f := by
  refine ⟨fun h => ?_, fun h => k.connected i j f hi h⟩
  have same : s.family? i = s.family? j := by
    clear hi
    induction h with
    | rel i j h =>
      obtain ⟨f, hi, hj⟩ := k.cloned i j h
      rw [hi, hj]
    | refl i => rfl
    | symm i j _ ih => exact ih.symm
    | trans i j l _ _ ih ih' => exact ih.trans ih'
  rw [← same, hi]

theorem Keeps.raised_iff (k : Keeps ops s) (hi : s.family? i = some f) : s.flag f = true ↔ Raised ops i := by
  rw [k.flags f]
  exact exists_congr fun j => and_congr_left fun _ => (k.kin_iff hi).symm

theorem keeps_empty : Keeps [] empty :=
  ⟨rfl, fun _ _ h => (nomatch h), fun _ _ _ h => (nomatch h), fun _ _ h => (nomatch h), fun _ h => (nomatch h),
    fun _ => ⟨fun h => (nomatch h), fun ⟨_, h, _⟩ => nomatch h⟩, rfl⟩

/-! ### One operation -/

theorem flag_set (hf : f < s.flags.length) (g : Nat) :
    ({ s with flags := s.flags.set f true } : StopSignals).flag g = if f = g then true else s.flag g := by
  rw [flag, List.getElem?_set]
  split
  · rename_i e
    subst e
    simp
  · rfl

theorem flag_append (fs : List Nat) (g : Nat) :
    ({ s with families := fs, flags := s.flags ++ [false] } : StopSignals).flag g = s.flag g := by
  rw [flag, flag, List.getElem?_append]
  split
  · rfl
  · rename_i outside
    rw [List.getElem?_eq_none (by omega : s.flags.length ≤ g)]
    cases h : g - s.flags.length <;> simp

inductive Does (s : StopSignals) : Op → StopSignals → Prop where
  | founds : Does s .found { s with families := s.families ++ [s.flags.length], flags := s.flags ++ [false] }
  | clones {i f : Nat} (hi : s.family? i = some f) : Does s (.clone i) { s with families := s.families ++ [f] }
  | stops {i f : Nat} (hi : s.family? i = some f) : Does s (.stop i) { s with flags := s.flags.set f true }
  | looks {i f : Nat} (hi : s.family? i = some f) : Does s (.look i) s
  | awaits {i f : Nat} (hi : s.family? i = some f) : Does s (.await i) { s with waits := s.waits ++ [f] }

theorem does_of_perform (h : s.perform op = some s') : Does s op s' := by
  cases op with
  | found =>
    cases h
    exact .founds
  | clone i =>
    simp only [perform, clone, Option.map_map, Option.map_eq_some_iff] at h
    obtain ⟨f, hi, rfl⟩ := h
    exact .clones hi
  | stop i =>
    simp only [perform, stop, Option.map_map, Option.map_eq_some_iff] at h
    obtain ⟨f, hi, rfl⟩ := h
    exact .stops hi
  | look i =>
    simp only [perform, isStopped, Option.map_map, Option.map_eq_some_iff] at h
    obtain ⟨f, hi, rfl⟩ := h
    exact .looks hi
  | await i =>
    simp only [perform, await, Option.map_map, Option.map_eq_some_iff] at h
    obtain ⟨f, hi, rfl⟩ := h
    exact .awaits hi

theorem Does.family? (h : Does s op s') (hi : s.family? i = some f) : s'.family? i = some f := by
  cases h with
  | founds | clones _ => exact family?_append hi
  | _ => exact hi

/-- No operation lowers a flag, and only a stop on one of its members raises that of a family. -/
theorem Does.flag (h : Does s op s') (hk : ∀ i f, s.family? i = some f → f < s.flags.length) (f : Nat) :
    s'.flag f = true ↔ s.flag f = true ∨ ∃ i, s.family? i = some f ∧ op = .stop i := by
  cases h with
  | founds => simp [flag_append]
  | @stops j g hj =>
    rw [flag_set (hk j g hj)]
    by_cases e : g = f
    · subst e
      simp [hj]
    · simp only [e, if_false, Op.stop.injEq]
      refine ⟨.inl, fun h => h.elim id ?_⟩
      rintro ⟨i, hi, rfl⟩
      rw [hj] at hi
      exact (e (Option.some.inj hi)).elim
  | _ => simp [flag]

theorem getElem?_concat_iff {α : Type} {l : List α} {a b : α} {n : Nat} :
    (l ++ [a])[n]? = some b ↔ l[n]? = some b ∨ n = l.length ∧ a = b := by
  rw [List.getElem?_append]
  split
  · rename_i inside
    exact ⟨.inl, fun h => h.elim id fun h => by omega⟩
  · rename_i outside
    rw [List.getElem?_singleton, List.getElem?_eq_none (by omega : l.length ≤ n)]
    by_cases e : n = l.length
    · simp [e]
    · simp [e, show n - l.length ≠ 0 by omega]

theorem Does.member (h : Does s op s') (hi : s'.family? i = some f) :
    s.family? i = some f ∨ i = s.families.length ∧
      (op = .found ∧ f = s.flags.length ∨ ∃ j, op = .clone j ∧ s.family? j = some f) := by
  cases h with
  | founds => exact (getElem?_concat_iff.1 hi).imp_right fun ⟨e, hf⟩ => ⟨e, .inl ⟨rfl, hf.symm⟩⟩
  | @clones j g hj => exact (getElem?_concat_iff.1 hi).imp_right fun ⟨e, hf⟩ => ⟨e, .inr ⟨j, rfl, hf ▸ hj⟩⟩
  | _ => exact .inl hi

theorem Does.size (h : Does s op s') : s'.families.length = s.families.length + (origins [op]).length := by
  cases h <;> simp [origins]

theorem Does.founded (h : Does s op s') (hk : ∀ i f, s.family? i = some f → f < s.flags.length)
    (hi : s'.family? i = some f) : f < s'.flags.length := by
  have grown : s.flags.length ≤ s'.flags.length := by cases h <;> simp
  rcases h.member hi with hi | ⟨_, ⟨rfl, rfl⟩ | ⟨j, _, hj⟩⟩
  · exact Nat.lt_of_lt_of_le (hk i f hi) grown
  · cases h
    simp
  · exact Nat.lt_of_lt_of_le (hk j f hj) grown

theorem Keeps.connected_step (k : Keeps ops s) (h : Does s op s') (hi : s'.family? i = some f)
    (hj : s'.family? j = some f) : Kin (ops ++ [op]) i j := by
  have later : ∀ {i j}, s.family? i = some f → s.family? j = some f → Kin (ops ++ [op]) i j :=
    fun hi hj => (k.connected _ _ f hi hj).later
  have new : ∀ {l}, op = .clone l → Kin (ops ++ [op]) l s.families.length := by
    rintro l rfl
    refine .rel _ _ ?_
    rw [CloneOf, origins_append, k.size]
    exact getElem?_concat_iff.2 (.inr ⟨rfl, rfl⟩)
  rcases h.member hi with hi | ⟨rfl, ⟨rfl, rfl⟩ | ⟨l, hl, hi⟩⟩ <;>
    rcases h.member hj with hj | ⟨rfl, ⟨hop, e⟩ | ⟨m, hm, hj⟩⟩
  · exact later hi hj
  · exact (Nat.lt_irrefl _ (e ▸ k.founded i f hi)).elim
  · exact .trans _ _ _ (later hi hj) (new hm)
  · exact (Nat.lt_irrefl _ (k.founded j _ hj)).elim
  · exact .refl _
  · exact .refl _
  · exact .trans _ _ _ (.symm _ _ (new hl)) (later hi hj)
  · exact .refl _
  · exact .refl _

theorem Keeps.cloned_step (k : Keeps ops s) (h : Does s op s') (hc : CloneOf (ops ++ [op]) i j) :
    ∃ f, s'.family? i = some f ∧ s'.family? j = some f := by
  have old : CloneOf ops i j → ∃ f, s'.family? i = some f ∧ s'.family? j = some f := by
    intro hc
    obtain ⟨f, hi, hj⟩ := k.cloned i j hc
    exact ⟨f, h.family? hi, h.family? hj⟩
  rw [CloneOf, origins_append] at hc
  cases h with
  | founds =>
    rcases getElem?_concat_iff.1 hc with hc | ⟨_, e⟩
    · exact old hc
    · cases e
  | @clones l f hl =>
    rcases getElem?_concat_iff.1 hc with hc | ⟨rfl, e⟩
    · exact old hc
    · cases e
      exact ⟨f, family?_append hl, getElem?_concat_iff.2 (.inr ⟨k.size.symm, rfl⟩)⟩
  | _ => exact old (by simpa [CloneOf, origins] using hc)

theorem Keeps.flags_step (k : Keeps ops s) (h : Does s op s') (f : Nat) :
    s'.flag f = true ↔ ∃ i, s'.family? i = some f ∧ Op.stop i ∈ ops ++ [op] := by
  rw [h.flag k.founded, k.flags]
  constructor
  · rintro (⟨i, hi, hs⟩ | ⟨i, hi, rfl⟩)
    · exact ⟨i, h.family? hi, List.mem_append_left _ hs⟩
    · exact ⟨i, h.family? hi, List.mem_append_right _ (List.mem_singleton.2 rfl)⟩
  · rintro ⟨i, hi, hs⟩
    rcases List.mem_append.1 hs with hs | hs
    · obtain ⟨g, hg⟩ := k.stopped i hs
      rw [h.family? hg] at hi
      exact .inl ⟨i, hi ▸ hg, hs⟩
    · cases List.mem_singleton.1 hs
      cases h with
      | stops hg => exact .inr ⟨i, hi, rfl⟩

theorem Keeps.waits_step (k : Keeps ops s) (h : Does s op s') :
    s'.waits.map some = (awaited (ops ++ [op])).map s'.family? := by
  have earlier : (awaited ops).map s'.family? = s.waits.map some := by
    rw [k.waits]
    refine List.map_congr_left fun i hi => ?_
    have : s.family? i ∈ s.waits.map some := k.waits ▸ List.mem_map_of_mem hi
    obtain ⟨f, _, hf⟩ := List.mem_map.1 this
    rw [← hf, h.family? hf.symm]
  rw [awaited_append, List.map_append, earlier]
  cases h with
  | awaits hi => simpa [awaited, family?] using hi.symm
  | _ => simp [awaited]

theorem Keeps.step (k : Keeps ops s) (h : Does s op s') : Keeps (ops ++ [op]) s' where
  size := by rw [h.size, origins_append, List.length_append, k.size]
  founded _ _ := h.founded k.founded
  connected _ _ _ := k.connected_step h
  cloned _ _ := k.cloned_step h
  stopped i hs := by
    rcases List.mem_append.1 hs with hs | hs
    · obtain ⟨f, hf⟩ := k.stopped i hs
      exact ⟨f, h.family? hf⟩
    · cases List.mem_singleton.1 hs
      cases h with
      | stops hi => exact ⟨_, hi⟩
  flags := k.flags_step h
  waits := k.waits_step h

theorem keeps_of_after (h : empty.after ops = some s) : Keeps ops s := by
  induction ops using List.reverseRecOn generalizing s with
  | nil =>
    cases h
    exact keeps_empty
  | append_singleton ops op ih =>
    obtain ⟨u, hu, hs⟩ := after_concat.1 h
    exact (ih hu).step (does_of_perform hs)

/-! ### The law -/

theorem Keeps.exists_family (k : Keeps ops s) (hi : i < (origins ops).length) : ∃ f, s.family? i = some f :=
  ⟨_, List.getElem?_eq_getElem (k.size ▸ hi)⟩

theorem Raised.later (h : Raised ops i) : Raised (ops ++ more) i := by
  obtain ⟨j, hj, hs⟩ := h
  exact ⟨j, hj.later, List.mem_append_left _ hs⟩

/-- What a signal answers after a history: whether a stop was requested in its family, and to a further request whether it
is the first. -/
structure Answers (ops : List Op) (s : StopSignals) (i : Nat) : Prop where
  looks : ∃ b, s.isStopped i = some b ∧ (b = true ↔ Raised ops i)
  stops : ∃ s' b, s.stop i = some (s', b) ∧ (b = true ↔ ¬ Raised ops i)

theorem Keeps.answers (k : Keeps ops s) (hi : i < (origins ops).length) : Answers ops s i := by
  obtain ⟨f, hf⟩ := k.exists_family hi
  have raised := k.raised_iff hf
  refine ⟨⟨s.flag f, by rw [isStopped, hf]; rfl, raised⟩, _, !s.flag f, by rw [stop, hf]; rfl, ?_⟩
  rw [← raised]
  simp

theorem Keeps.finished (k : Keeps ops s) (hw : (awaited ops)[w]? = some i) :
    ∃ b, s.finished[w]? = some b ∧ (b = true ↔ Raised ops i) := by
  have told : (s.waits.map some)[w]? = some (s.family? i) := by rw [k.waits, List.getElem?_map, hw]; rfl
  rw [List.getElem?_map, Option.map_eq_some_iff] at told
  obtain ⟨f, hf, hi⟩ := told
  exact ⟨s.flag f, by rw [StopSignals.finished, List.getElem?_map, hf]; rfl, k.raised_iff hi.symm⟩

theorem raised_of_isStopped (h : empty.after ops = some s) (hi : s.isStopped i = some true) : Raised ops i := by
  obtain ⟨f, hf, raised⟩ := Option.map_eq_some_iff.1 hi
  exact ((keeps_of_after h).raised_iff hf).1 raised

theorem isStopped_of_raised (h : empty.after ops = some s) (hi : i < (origins ops).length) (hr : Raised ops i) :
    s.isStopped i = some true := by
  obtain ⟨b, looks, raised⟩ := ((keeps_of_after h).answers hi).looks
  rw [looks, raised.2 hr]

theorem Keeps.perform_iff (k : Keeps ops s) :
    (∃ s', s.perform op = some s') ↔ ∀ i, op.signal? = some i → i < (origins ops).length := by
  have named : ∀ i, (∃ f, s.family? i = some f) ↔ i < (origins ops).length := fun i =>
    ⟨fun ⟨_, hf⟩ => k.size ▸ (List.getElem?_eq_some_iff.1 hf).1, k.exists_family⟩
  cases op <;>
    simp [perform, Op.signal?, ← named, clone, stop, isStopped, await, Option.map_eq_some_iff]

/-- A task whose wait began at some point of the history is done if the flag of its family was up then or went up later. -/
theorem finished_iff_seen {before later : List Op} (h : empty.after (before ++ .await i :: later) = some s) :
    s.finished[(awaited before).length]? = some true ↔
      ∃ upTo, upTo <+: later ∧ ∃ u, empty.after (before ++ .await i :: upTo) = some u ∧ u.isStopped i = some true := by
  have place : (awaited (before ++ .await i :: later))[(awaited before).length]? = some i := by
    simp [awaited]
  obtain ⟨b, done, raised⟩ := (keeps_of_after h).finished place
  rw [done, Option.some.injEq]
  constructor
  · intro hb
    refine ⟨later, List.prefix_rfl, s, h, isStopped_of_raised h ?_ (raised.1 hb)⟩
    have split : before ++ .await i :: later = before ++ [.await i] ++ later := by simp
    rw [split] at h
    obtain ⟨v, hv, _⟩ := after_append.1 h
    obtain ⟨u, hu, hp⟩ := after_concat.1 hv
    have inside : i < (origins before).length := ((keeps_of_after hu).perform_iff.1 ⟨v, hp⟩) i rfl
    rw [origins_append, List.length_append]
    exact Nat.lt_add_right _ inside
  · rintro ⟨upTo, ⟨rest, rfl⟩, u, hu, stopped⟩
    have earlier : Raised (before ++ .await i :: upTo) i := raised_of_isStopped hu stopped
    have whole : before ++ .await i :: (upTo ++ rest) = before ++ .await i :: upTo ++ rest := by simp
    exact raised.2 (whole ▸ earlier.later)

structure Untouched (ops : List Op) (s s' : StopSignals) (i : Nat) : Prop where
  looks : s'.isStopped i = s.isStopped i
  stops : (s'.stop i).map Prod.snd = (s.stop i).map Prod.snd
  waits : ∀ w : Nat, (awaited ops)[w]? = some i → s'.finished[w]? = s.finished[w]?

theorem Keeps.untouched (k : Keeps ops s) (h : Does s op s') (hi : i < (origins ops).length)
    (apart : ∀ j, op.signal? = some j → ¬ Kin ops j i) : Untouched ops s s' i := by
  obtain ⟨f, hf⟩ := k.exists_family hi
  have same : s'.flag f = s.flag f := by
    rw [Bool.eq_iff_iff, h.flag k.founded, or_iff_left]
    rintro ⟨j, hj, rfl⟩
    exact apart j rfl (k.connected j i f hj hf)
  refine ⟨?_, ?_, fun w hw => ?_⟩
  · rw [isStopped, isStopped, hf, h.family? hf, Option.map_some, Option.map_some, same]
  · rw [stop, stop, hf, h.family? hf]
    simp [same]
  · have hw' : (awaited (ops ++ [op]))[w]? = some i := by
      rw [awaited_append, List.getElem?_append_left (List.getElem?_eq_some_iff.1 hw).1]
      exact hw
    obtain ⟨b, hb, before⟩ := k.finished hw
    obtain ⟨b', hb', after⟩ := (k.step h).finished hw'
    rw [hb, hb', Option.some.injEq, Bool.eq_iff_iff, before, after, ← k.raised_iff hf,
      ← (k.step h).raised_iff (h.family? hf), same]

/-- Whatever is done with signals, in whatever order: a signal tells of a stop exactly if one was requested on a member of
its family, and goes on telling so; only the first request in a family is the first; a task is done exactly if a stop was
requested in the family, before its wait began or after; and no family takes note of what is done with another. -/
theorem families_of_history (h : empty.after ops = some s) :
    (∀ op, (∃ s', s.perform op = some s') ↔ ∀ i, op.signal? = some i → i < (origins ops).length) ∧
    (∀ i, i < (origins ops).length → Answers ops s i) ∧
    (∀ more s' i, s.after more = some s' → s.isStopped i = some true → s'.isStopped i = some true) ∧
    (∀ w i : Nat, (awaited ops)[w]? = some i → ∃ b, s.finished[w]? = some b ∧ (b = true ↔ Raised ops i)) ∧
    (∀ before i later, ops = before ++ .await i :: later →
      (s.finished[(awaited before).length]? = some true ↔
        ∃ upTo, upTo <+: later ∧ ∃ u, empty.after (before ++ .await i :: upTo) = some u ∧ u.isStopped i = some true)) ∧
    (∀ op s' i, s.perform op = some s' → i < (origins ops).length → (∀ j, op.signal? = some j → ¬ Kin ops j i) →
      Untouched ops s s' i) := by
  have k : Keeps ops s := keeps_of_after h
  refine ⟨fun _ => k.perform_iff, fun _ => k.answers, fun more s' i hm hi => ?_, fun _ _ => k.finished,
    fun before i later e => ?_, fun op s' i hp hi => k.untouched (does_of_perform hp) hi⟩
  · obtain ⟨f, hf, _⟩ := Option.map_eq_some_iff.1 hi
    have inside : i < (origins ops).length := k.size ▸ (List.getElem?_eq_some_iff.1 hf).1
    refine isStopped_of_raised (after_append.2 ⟨s, h, hm⟩) ?_ (raised_of_isStopped h hi).later
    rw [origins_append, List.length_append]
    exact Nat.lt_add_right _ inside
  · subst e
    exact finished_iff_seen h

/-- Signals 0, 1 and 3 are of one family, and signal 2 is of another. A stop on signal 3 comes between the waits of the
first two tasks. -/
def twoFamilies : List Op :=
  [.found, .clone 0, .found, .await 1, .clone 1, .stop 3, .await 0, .await 2, .stop 0]

theorem families_of_twoFamilies : ∃ s, empty.after twoFamilies = some s ∧ s.finished = [true, true, false] ∧
    Raised twoFamilies 0 ∧ ¬ Raised twoFamilies 2 ∧ ¬ Kin twoFamilies 2 0 := by
  have facts : (empty.after twoFamilies).map (fun s => (s.finished, s.isStopped 0, s.isStopped 2)) =
      some ([true, true, false], some true, some false) := by decide
  obtain ⟨s, h, hs⟩ := Option.map_eq_some_iff.1 facts
  obtain ⟨done, up, down⟩ : s.finished = [true, true, false] ∧ s.isStopped 0 = some true ∧ s.isStopped 2 = some false := by
    simpa using hs
  obtain ⟨_, answers, _⟩ := families_of_history h
  obtain ⟨b, looks, raised⟩ := (answers 0 (by decide)).looks
  obtain ⟨c, looks', raised'⟩ := (answers 2 (by decide)).looks
  obtain rfl : b = true := Option.some.inj (looks.symm.trans up)
  obtain rfl : c = false := Option.some.inj (looks'.symm.trans down)
  have calm : ¬ Raised twoFamilies 2 := by simpa using raised'
  have loud : Raised twoFamilies 0 := raised.1 rfl
  refine ⟨s, h, done, loud, calm, fun kin => calm ?_⟩
  obtain ⟨j, hj, hs⟩ := loud
  exact ⟨j, .trans _ _ _ kin hj, hs⟩

end LedgerLoad.StopSignals
