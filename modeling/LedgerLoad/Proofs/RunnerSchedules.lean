import LedgerLoad.Proofs.RunnerSteps

/-!
Schedules, and how what each step keeps is kept along all of them.
-/

set_option autoImplicit false

namespace LedgerLoad.Load.World

variable {u u' v v' w w' : World} {a b : Action} {as bs : List Action}

theorem run_cons_eq_some : w.run (a :: as) = some w' ↔ ∃ v, w.step a = some v ∧ v.run as = some w' :=
  Option.bind_eq_some_iff

theorem run_append_eq_some : w.run (as ++ bs) = some w' ↔ ∃ v, w.run as = some v ∧ v.run bs = some w' := by
  induction as generalizing w with
  | nil => simp [run]
  | cons a as ih =>
    rw [List.cons_append, run_cons_eq_some]
    constructor
    · rintro ⟨u, hu, h⟩
      obtain ⟨v, hv, hb⟩ := ih.1 h
      exact ⟨v, run_cons_eq_some.2 ⟨u, hu, hv⟩, hb⟩
    · rintro ⟨v, h, hb⟩
      obtain ⟨u, hu, hv⟩ := run_cons_eq_some.1 h
      exact ⟨u, hu, ih.2 ⟨v, hv, hb⟩⟩

theorem run_concat (h : w.run as = some v) (ha : v.step a = some w') : w.run (as ++ [a]) = some w' :=
  run_append_eq_some.2 ⟨v, h, run_cons_eq_some.2 ⟨w', ha, rfl⟩⟩

theorem run_induction {P : List Action → World → Prop} (start : P [] w)
    (step : ∀ bs v a v', w.run bs = some v → P bs v → Happens v a v' → P (bs ++ [a]) v')
    (h : w.run as = some w') : P as w' := by
  have main : ∀ (cs bs : List Action) (v : World), w.run bs = some v → P bs v → v.run cs = some w' → P (bs ++ cs) w' := by
    intro cs
    induction cs with
    | nil =>
      intro bs v _ hp hr
      cases hr
      simpa using hp
    | cons c cs ih =>
      intro bs v hb hp hr
      obtain ⟨u, hu, hr⟩ := run_cons_eq_some.1 hr
      have next := ih (bs ++ [c]) u (run_concat hb hu) (step bs v c u hb hp (step_iff.1 hu)) hr
      simpa using next
  simpa using main as [] w rfl start h

theorem run_preserves {P : World → Prop} (step : ∀ v a v', P v → Happens v a v' → P v') (start : P w)
    (h : w.run as = some w') : P w' :=
  run_induction (P := fun _ v => P v) start (fun _ v a v' _ hp hs => step v a v' hp hs) h

/-- A schedule that starts in `w` takes the step from `v` to `v'` on its way. -/
def Takes (w : World) (as : List Action) (v : World) (a : Action) (v' : World) : Prop :=
  ∃ bs cs, as = bs ++ a :: cs ∧ w.run bs = some v ∧ v.step a = some v'

theorem Takes.happens (h : w.Takes as v a v') : Happens v a v' := by
  obtain ⟨_, _, _, _, hs⟩ := h
  exact step_iff.1 hs

theorem takes_concat (h : w.run as = some v) (ha : v.step a = some v') :
    w.Takes (as ++ [a]) u b u' ↔ w.Takes as u b u' ∨ u = v ∧ b = a ∧ u' = v' := by
  constructor
  · rintro ⟨bs, cs, he, hu, hb⟩
    rcases List.eq_nil_or_concat cs with rfl | ⟨ds, d, rfl⟩
    · obtain ⟨rfl, hab⟩ := List.append_inj' he rfl
      cases hab
      have e : u = v := Option.some.inj (hu.symm.trans h)
      subst e
      exact .inr ⟨rfl, rfl, Option.some.inj (hb.symm.trans ha)⟩
    · have he' : as ++ [a] = (bs ++ b :: ds) ++ [d] := by rw [he]; simp
      exact .inl ⟨bs, ds, (List.append_inj' he' rfl).1, hu, hb⟩
  · rintro (⟨bs, cs, rfl, hu, hb⟩ | ⟨rfl, rfl, rfl⟩)
    · exact ⟨bs, cs ++ [a], by simp, hu, hb⟩
    · exact ⟨as, [], rfl, h, ha⟩

theorem not_takes_nil : ¬ w.Takes [] u b u' := by
  rintro ⟨bs, cs, he, _⟩
  simp at he

theorem Takes.rest (ht : w.Takes as v a v') (h : w.run as = some w') :
    ∃ bs cs, w.run bs = some v ∧ v'.run cs = some w' := by
  obtain ⟨bs, cs, rfl, hv, hs⟩ := ht
  obtain ⟨u, hu, h⟩ := run_append_eq_some.1 h
  obtain ⟨u', hu', h⟩ := run_cons_eq_some.1 h
  have e : u = v := Option.some.inj (hu.symm.trans hv)
  subst e
  have e : u' = v' := Option.some.inj (hu'.symm.trans hs)
  subst e
  exact ⟨bs, cs, hv, h⟩

def gathered {α : Type} (f : World → Action → World → List α) (w : World) : List Action → List α
  | [] => []
  | a :: as =>
    match w.step a with
    | none => []
    | some v => f w a v ++ gathered f v as

theorem gathered_concat {α : Type} {f : World → Action → World → List α} (h : u.run as = some w)
    (ha : w.step a = some w') : gathered f u (as ++ [a]) = gathered f u as ++ f w a w' := by
  induction as generalizing u with
  | nil =>
    cases h
    simp [gathered, ha]
  | cons b as ih =>
    obtain ⟨v, hv, hrun⟩ := run_cons_eq_some.1 h
    have later := ih hrun
    rw [List.cons_append]
    simp only [gathered, hv]
    rw [later, List.append_assoc]

end LedgerLoad.Load.World
