import Mathlib.Tactic.TypeStar

/-!
# Runs of a partial labelled step function

A system is a function `step : σ → ι → Option σ`: the label says which party
moves and what it receives, `none` says that the move is not possible. A run is
a finite list of labels. `Along` restricts a run to the steps that meet a
condition on the state they are taken from, which is how an exact condition on
the schedules of a system is stated.
-/

namespace Transition

variable {σ ι : Type*}

/-- The state after the labels, if every one of them is possible in turn. -/
def run (step : σ → ι → Option σ) : σ → List ι → Option σ
  | s, [] => some s
  | s, l :: ls => (step s l).bind fun t => run step t ls

/-- Every label of the run meets `ok` in the state it is taken from. -/
def Along (step : σ → ι → Option σ) (ok : σ → ι → Prop) : σ → List ι → Prop
  | _, [] => True
  | s, l :: ls => ok s l ∧ ∀ t ∈ step s l, Along step ok t ls

/-- Every state that the run passes through has the property. -/
def Throughout (step : σ → ι → Option σ) (good : σ → Prop) : σ → List ι → Prop
  | s, [] => good s
  | s, l :: ls => good s ∧ ∀ t ∈ step s l, Throughout step good t ls

/-- The states that some run from `init` ends in. -/
def Reachable (step : σ → ι → Option σ) (init s : σ) : Prop :=
  ∃ ls, run step init ls = some s

variable {step : σ → ι → Option σ} {ok : σ → ι → Prop} {s t : σ}

@[simp] theorem run_nil (step : σ → ι → Option σ) (s : σ) : run step s [] = some s := rfl

@[simp] theorem run_cons (step : σ → ι → Option σ) (s : σ) (l : ι) (ls : List ι) :
    run step s (l :: ls) = (step s l).bind fun t => run step t ls := rfl

@[simp] theorem along_nil (step : σ → ι → Option σ) (ok : σ → ι → Prop) (s : σ) :
    Along step ok s [] := trivial

theorem run_append (step : σ → ι → Option σ) (s : σ) (ls ms : List ι) :
    run step s (ls ++ ms) = (run step s ls).bind fun t => run step t ms := by
  induction ls generalizing s with
  | nil => simp
  | cons l ls ih => cases h : step s l <;> simp [h, ih]

theorem along_append {ls ms : List ι} :
    Along step ok s (ls ++ ms) ↔ Along step ok s ls ∧ ∀ t ∈ run step s ls, Along step ok t ms := by
  induction ls generalizing s with
  | nil => simp
  | cons l ls ih =>
    simp only [List.cons_append, Along, ih, run_cons, Option.mem_def, Option.bind_eq_some_iff]
    constructor
    · rintro ⟨h, hs⟩
      exact ⟨⟨h, fun t ht => (hs t ht).1⟩, fun t ⟨u, hu, ht⟩ => (hs u hu).2 t ht⟩
    · rintro ⟨⟨h, hs⟩, ht⟩
      exact ⟨h, fun u hu => ⟨hs u hu, fun t hr => ht t ⟨u, hu, hr⟩⟩⟩

theorem Along.mono {ok' : σ → ι → Prop} (himp : ∀ s l, ok s l → ok' s l) {ls : List ι}
    (h : Along step ok s ls) : Along step ok' s ls := by
  induction ls generalizing s with
  | nil => trivial
  | cons l ls ih => exact ⟨himp s l h.1, fun t ht => ih (h.2 t ht)⟩

/-- A condition on the labels alone may be added. -/
theorem Along.mono_mem {ok' : σ → ι → Prop} {ls : List ι} (himp : ∀ s, ∀ l ∈ ls, ok s l → ok' s l)
    (h : Along step ok s ls) : Along step ok' s ls := by
  induction ls generalizing s with
  | nil => trivial
  | cons l ls ih =>
    refine ⟨himp s l List.mem_cons_self h.1, fun t ht => ih ?_ (h.2 t ht)⟩
    exact fun s l hl => himp s l (List.mem_cons_of_mem _ hl)

theorem along_true (ls : List ι) : Along step (fun _ _ => True) s ls := by
  induction ls generalizing s with
  | nil => trivial
  | cons l ls ih => exact ⟨trivial, fun t _ => ih⟩

/-- What every admitted step preserves holds at the end of every admitted run. -/
theorem invariant_along {inv : σ → Prop}
    (hstep : ∀ s l t, inv s → ok s l → step s l = some t → inv t)
    {ls : List ι} (h₀ : inv s) (hok : Along step ok s ls) (hrun : run step s ls = some t) :
    inv t := by
  induction ls generalizing s with
  | nil =>
    rw [run_nil, Option.some.injEq] at hrun
    exact hrun ▸ h₀
  | cons l ls ih =>
    obtain ⟨u, hu, ht⟩ := Option.bind_eq_some_iff.mp hrun
    exact ih (hstep s l u h₀ hok.1 hu) (hok.2 u hu) ht

/-- What the invariant and the condition imply of a step holds along every admitted run. -/
theorem along_of_invariant {inv : σ → Prop} {ok' : σ → ι → Prop}
    (hstep : ∀ s l t, inv s → ok s l → step s l = some t → inv t)
    (himp : ∀ s l, inv s → ok s l → ok' s l) {ls : List ι} (h₀ : inv s) (hok : Along step ok s ls) :
    Along step ok' s ls := by
  induction ls generalizing s with
  | nil => trivial
  | cons l ls ih =>
    exact ⟨himp s l h₀ hok.1, fun t ht => ih (hstep s l t h₀ hok.1 ht) (hok.2 t ht)⟩

/-- What every step preserves holds at the end of every run. -/
theorem invariant_run {inv : σ → Prop}
    (hstep : ∀ s l t, inv s → step s l = some t → inv t)
    {ls : List ι} (h₀ : inv s) (hrun : run step s ls = some t) : inv t := by
  have hall : Along step (fun _ _ => True) s ls := along_true ls
  exact invariant_along (fun s l t h _ => hstep s l t h) h₀ hall hrun

/-- A run is admitted when every step of it is, after the steps before it. -/
theorem along_of_prefixes {inv : σ → Prop}
    (hstep : ∀ s l t, inv s → ok s l → step s l = some t → inv t) {ls : List ι}
    (h₀ : inv s) (hrun : run step s ls = some t)
    (hneed : ∀ before l after u v, ls = before ++ l :: after → run step s before = some u →
      step u l = some v → inv u → ok u l) : Along step ok s ls := by
  induction ls generalizing s with
  | nil => trivial
  | cons l ls ih =>
    obtain ⟨u, hu, ht⟩ := Option.bind_eq_some_iff.mp hrun
    have hok := hneed [] l ls s u rfl rfl hu h₀
    refine ⟨hok, fun v hv => ?_⟩
    rw [Option.mem_def, hu, Option.some.injEq] at hv
    rw [← hv]
    refine ih (hstep s l u h₀ hok hu) ht fun before m after w x hls hbefore => ?_
    refine hneed (l :: before) m after w x (by rw [hls]; rfl) ?_
    simp [hu, hbefore]

/-- Two conditions that agree on every possible step from the states of an invariant admit the same runs. -/
theorem along_iff_along {ok' : σ → ι → Prop} {inv : σ → Prop}
    (hiff : ∀ s l t, inv s → step s l = some t → (ok s l ↔ ok' s l))
    (hstep : ∀ s l t, inv s → ok s l → step s l = some t → inv t) {ls : List ι} (h₀ : inv s)
    (hrun : run step s ls = some t) : Along step ok s ls ↔ Along step ok' s ls := by
  induction ls generalizing s with
  | nil => exact Iff.rfl
  | cons l ls ih =>
    obtain ⟨u, hu, ht⟩ := Option.bind_eq_some_iff.mp hrun
    simp only [Along, hu, Option.mem_some_iff, forall_eq', hiff s l u h₀ hu]
    exact and_congr_right fun hok => ih (hstep s l u h₀ ((hiff s l u h₀ hu).mpr hok) hu) ht

theorem Throughout.last {good : σ → Prop} {ls : List ι} (h : Throughout step good s ls)
    (hrun : run step s ls = some t) : good t := by
  induction ls generalizing s with
  | nil =>
    rw [run_nil, Option.some.injEq] at hrun
    exact hrun ▸ h
  | cons l ls ih =>
    obtain ⟨u, hu, ht⟩ := Option.bind_eq_some_iff.mp hrun
    exact ih (h.2 u hu) ht

/-- A condition on steps that keeps an invariant keeps what the invariant implies, in every state. -/
theorem throughout_of_along {inv good : σ → Prop} (hgood : ∀ s, inv s → good s)
    (hstep : ∀ s l t, inv s → ok s l → step s l = some t → inv t) {ls : List ι} (h₀ : inv s)
    (hok : Along step ok s ls) : Throughout step good s ls := by
  induction ls generalizing s with
  | nil => exact hgood s h₀
  | cons l ls ih => exact ⟨hgood s h₀, fun t ht => ih (hstep s l t h₀ hok.1 ht) (hok.2 t ht)⟩

/-- A condition on steps is exact for a property when it keeps an invariant that implies the
property, and a step that violates it violates the property. -/
theorem throughout_iff_along {inv good : σ → Prop} (hgood : ∀ s, inv s → good s)
    (hstep : ∀ s l t, inv s → ok s l → step s l = some t → inv t)
    (hneed : ∀ s l t, inv s → step s l = some t → good t → ok s l)
    {ls : List ι} (h₀ : inv s) (hrun : run step s ls = some t) :
    Throughout step good s ls ↔ Along step ok s ls := by
  induction ls generalizing s with
  | nil => exact ⟨fun _ => trivial, fun _ => hgood s h₀⟩
  | cons l ls ih =>
    obtain ⟨u, hu, ht⟩ := Option.bind_eq_some_iff.mp hrun
    simp only [Throughout, Along, hu, Option.mem_some_iff, forall_eq']
    constructor
    · intro h
      have hgu : good u := by
        cases ls with
        | nil => exact h.2
        | cons m ms => exact h.2.1
      have hok := hneed s l u h₀ hu hgu
      exact ⟨hok, (ih (hstep s l u h₀ hok hu) ht).mp h.2⟩
    · intro h
      exact ⟨hgood s h₀, (ih (hstep s l u h₀ h.1 hu) ht).mpr h.2⟩

/-- How many steps of the run are of a kind. -/
def tally (step : σ → ι → Option σ) (kind : σ → ι → Bool) : σ → List ι → Nat
  | _, [] => 0
  | s, l :: ls => (kind s l).toNat + ((step s l).map fun t => tally step kind t ls).getD 0

/-- Where a step changes an amount by one for each of two kinds that it is of, a run changes it by their numbers. -/
theorem ledger_run {inv : σ → Prop} {amount : σ → Nat} {gain loss : σ → ι → Bool}
    (hstep : ∀ s l t, inv s → step s l = some t → inv t)
    (hamount : ∀ s l t, inv s → step s l = some t →
      amount t + (loss s l).toNat = amount s + (gain s l).toNat) {ls : List ι} (h₀ : inv s)
    (hrun : run step s ls = some t) :
    amount t + tally step loss s ls = amount s + tally step gain s ls := by
  induction ls generalizing s with
  | nil =>
    cases hrun
    rfl
  | cons l ls ih =>
    obtain ⟨u, hu, hrun⟩ := Option.bind_eq_some_iff.mp hrun
    have hfirst := hamount s l u h₀ hu
    have hrest := ih (hstep s l u h₀ hu) hrun
    simp only [tally, hu, Option.map_some, Option.getD_some]
    omega

/-- The steps that meet a condition. -/
def guarded (step : σ → ι → Option σ) (ok : σ → ι → Prop) [∀ s l, Decidable (ok s l)] (s : σ) (l : ι) : Option σ :=
  if ok s l then step s l else none

theorem run_guarded [∀ s l, Decidable (ok s l)] {ls : List ι} (h : run (guarded step ok) s ls = some t) :
    run step s ls = some t ∧ Along step ok s ls := by
  induction ls generalizing s with
  | nil => exact ⟨h, trivial⟩
  | cons l ls ih =>
    obtain ⟨u, hu, h⟩ := Option.bind_eq_some_iff.mp h
    unfold guarded at hu
    split at hu
    · rename_i hok
      obtain ⟨hrun, halong⟩ := ih h
      refine ⟨Option.bind_eq_some_iff.mpr ⟨u, hu, hrun⟩, hok, fun v hv => ?_⟩
      rw [Option.mem_def, hu, Option.some.injEq] at hv
      exact hv ▸ halong
    · cases hu

instance decidableAlong (step : σ → ι → Option σ) (ok : σ → ι → Prop)
    [∀ s l, Decidable (ok s l)] : ∀ (s : σ) (ls : List ι), Decidable (Along step ok s ls)
  | _, [] => .isTrue trivial
  | s, l :: ls =>
    match h : step s l with
    | none => decidable_of_iff (ok s l) (by simp [Along, h])
    | some t =>
      have : Decidable (Along step ok t ls) := decidableAlong step ok t ls
      decidable_of_iff (ok s l ∧ Along step ok t ls) (by simp [Along, h])

end Transition
