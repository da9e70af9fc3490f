import ClawWork.Isolation

/-!
# Runs with one failure

A program runs on its own, and one of its calls fails: a statement of the state, or a
request to a world outside that has a state too. The failing call throws, and it may
have taken effect all the same. How a run ends follows from the way the program is put
together, with the number of the calls that still succeed beside the states.
-/

namespace FaultyRuns

open Isolation

/-- How a call fails. -/
structure Fault (ε : Type) where
  error : ε
  /-- The call has taken effect, and only its answer is lost. -/
  applied : Bool

/-- What a request does outside, and the reply that reports an error; a request without one cannot fail. -/
structure Outside {ρ : Type} (ω : ρ → Type) (ε o : Type) where
  serve : (r : ρ) → o → ω r × o
  refusal : (r : ρ) → Option (ε → ω r)

variable {ρ : Type} {ω : ρ → Type} {ε σ o α β : Type}

/-- What an action leaves behind. -/
def effect (action : Action ε σ β) (s : σ) : σ :=
  match action s with
  | .ok (_, s') => s'
  | .error _ => s

/-- The call that comes next is the one that fails. -/
def due (left : Option Nat) : Bool := left = some 0

/-- A call has succeeded. -/
def tick (left : Option Nat) : Option Nat := left.map Nat.pred

/-- What a run ends with: its result, the calls that are left before the failing one (`none` when it is
behind), and the two states. -/
abbrev Outcome (ε σ o α : Type) : Type := Except ε α × Option Nat × σ × o

section Run

variable (outside : Outside ω ε o) (fault : Fault ε)

def run : Program ω ε σ α → Option Nat → σ → o → Outcome ε σ o α
  | .done result, left, s, x => (result, left, s, x)
  | .act action next, left, s, x =>
    if due left then run (next (.error fault.error)) none (if fault.applied then effect action s else s) x
    else
      match action s with
      | .ok (b, s') => run (next (.ok b)) (tick left) s' x
      | .error e => run (next (.error e)) (tick left) s x
  | .ask r next, left, s, x =>
    let (reply, x') := outside.serve r x
    match outside.refusal r with
    | none => run (next reply) left s x'
    | some report =>
      if due left then run (next (report fault.error)) none s (if fault.applied then x' else x)
      else run (next reply) (tick left) s x'

theorem run_bind (p : Program ω ε σ α) (f : α → Program ω ε σ β) (left : Option Nat) (s : σ) (x : o) :
    run outside fault (p >>= f) left s x = match run outside fault p left s x with
      | (.ok a, left', s', x') => run outside fault (f a) left' s' x'
      | (.error e, left', s', x') => (.error e, left', s', x') := by
  induction p generalizing left s x with
  | done result => cases result <;> rfl
  | act action next ih =>
    change run outside fault (.act action fun result => next result >>= f) left s x = _
    rw [run, run]
    cases due left with
    | true => exact ih _ _ _ _
    | false =>
      cases action s with
      | ok result => exact ih _ _ _ _
      | error e => exact ih _ _ _ _
  | ask r next ih =>
    change run outside fault (.ask r fun reply => next reply >>= f) left s x = _
    rw [run, run]
    cases outside.refusal r with
    | none => exact ih _ _ _ _
    | some report =>
      cases due left with
      | true => exact ih _ _ _ _
      | false => exact ih _ _ _ _

end Run

/-- How a run ends, by what it has returned or by the states it has thrown in. -/
def Ends (outside : Outside ω ε o) (fault : Fault ε) (p : Program ω ε σ α) (left : Option Nat) (s : σ) (x : o)
    (returned : α → Option Nat → σ → o → Prop) (threw : σ → o → Prop) : Prop :=
  match run outside fault p left s x with
  | (.ok a, left', s', x') => returned a left' s' x'
  | (.error _, _, s', x') => threw s' x'

namespace Ends

variable {outside : Outside ω ε o} {fault : Fault ε} {left : Option Nat} {s : σ} {x : o}
  {returned returned' : α → Option Nat → σ → o → Prop} {threw threw' : σ → o → Prop}

theorem of_threw {p : Program ω ε σ α} (h : Ends outside fault p left s x returned threw) {e : ε}
    {left' : Option Nat} {s' : σ} {x' : o} (hrun : run outside fault p left s x = (.error e, left', s', x')) :
    threw s' x' := by
  rw [Ends, hrun] at h
  exact h

theorem mono {p : Program ω ε σ α} (h : Ends outside fault p left s x returned threw)
    (hreturned : ∀ a left' s' x', returned a left' s' x' → returned' a left' s' x')
    (hthrew : ∀ s' x', threw s' x' → threw' s' x') : Ends outside fault p left s x returned' threw' := by
  unfold Ends at h ⊢
  split
  · rename_i hrun
    rw [hrun] at h
    exact hreturned _ _ _ _ h
  · rename_i hrun
    rw [hrun] at h
    exact hthrew _ _ h

theorem pure {a : α} (h : returned a left s x) :
    Ends outside fault (Pure.pure a : Program ω ε σ α) left s x returned threw := h

theorem throw {e : ε} (h : threw s x) :
    Ends outside fault (MonadExcept.throw e : Program ω ε σ α) left s x returned threw := h

theorem bind {p : Program ω ε σ β} {f : β → Program ω ε σ α}
    (h : Ends outside fault p left s x
      (fun b left' s' x' => Ends outside fault (f b) left' s' x' returned threw) threw) :
    Ends outside fault (p >>= f) left s x returned threw := by
  unfold Ends at h ⊢
  rw [run_bind]
  split at h
  · exact h
  · exact h

theorem require {condition : Bool} {e : ε} {returned : Unit → Option Nat → σ → o → Prop}
    (hreturned : condition = true → returned () left s x) (hthrew : condition = false → threw s x) :
    Ends outside fault (Program.require condition e : Program ω ε σ Unit) left s x returned threw := by
  cases condition with
  | true => exact hreturned rfl
  | false => exact hthrew rfl

theorem orThrow {value : Option α} {e : ε} (hreturned : ∀ a, value = some a → returned a left s x)
    (hthrew : value = none → threw s x) :
    Ends outside fault (Program.orThrow value e : Program ω ε σ α) left s x returned threw := by
  cases value with
  | some a => exact hreturned a rfl
  | none => exact hthrew rfl

/-- A statement that succeeds, unless it is the call that fails. -/
theorem exec {action : Action ε σ α} {a : α} {s' : σ} (haction : action s = .ok (a, s'))
    (hnext : left ≠ some 0 → returned a (tick left) s' x)
    (hfault : left = some 0 → threw (if fault.applied then s' else s) x) :
    Ends outside fault (Program.exec action : Program ω ε σ α) left s x returned threw := by
  unfold Ends
  rw [Program.exec, run]
  by_cases hdue : left = some 0
  · simp only [due, hdue, decide_true, if_true, effect, haction]
    exact hfault hdue
  · simp only [due, hdue, decide_false, Bool.false_eq_true, if_false, haction]
    exact hnext hdue

/-- A query. -/
theorem read {q : σ → α} (hnext : left ≠ some 0 → returned (q s) (tick left) s x)
    (hfault : left = some 0 → threw s x) :
    Ends outside fault (Program.exec (.read q) : Program ω ε σ α) left s x returned threw := by
  apply exec rfl hnext
  intro hdue
  rw [ite_self]
  exact hfault hdue

/-- A request that cannot fail. -/
theorem ask {r : ρ} {returned : ω r → Option Nat → σ → o → Prop} (hrefusal : outside.refusal r = none)
    (h : returned (outside.serve r x).1 left s (outside.serve r x).2) :
    Ends outside fault (Program.request r : Program ω ε σ (ω r)) left s x returned threw := by
  unfold Ends
  rw [Program.request, run, hrefusal]
  exact h

/-- A request that succeeds, unless it is the call that fails; a refused request is left to what follows it. -/
theorem request {r : ρ} {returned : ω r → Option Nat → σ → o → Prop} (report : ε → ω r)
    (hrefusal : outside.refusal r = some report)
    (hnext : left ≠ some 0 → returned (outside.serve r x).1 (tick left) s (outside.serve r x).2)
    (hfault : left = some 0 →
      returned (report fault.error) none s (if fault.applied then (outside.serve r x).2 else x)) :
    Ends outside fault (Program.request r : Program ω ε σ (ω r)) left s x returned threw := by
  unfold Ends
  rw [Program.request, run, hrefusal]
  by_cases hdue : left = some 0
  · simp only [due, hdue, decide_true, if_true]
    exact hfault hdue
  · simp only [due, hdue, decide_false, Bool.false_eq_true, if_false]
    exact hnext hdue

/-- A query, with the number of the calls before the failing one. -/
theorem read_some {q : σ → α} {k : Nat} (hnext : ∀ j, k = j + 1 → returned (q s) (some j) s x)
    (hfault : k = 0 → threw s x) :
    Ends outside fault (Program.exec (.read q) : Program ω ε σ α) (some k) s x returned threw := by
  apply read
  · intro hdue
    obtain ⟨j, rfl⟩ := Nat.exists_eq_succ_of_ne_zero fun h : k = 0 => hdue (h ▸ rfl)
    exact hnext j rfl
  · intro hdue
    exact hfault (Option.some.inj hdue)

/-- A request, with the number of the calls before the failing one. -/
theorem request_some {r : ρ} {returned : ω r → Option Nat → σ → o → Prop} {k : Nat} (report : ε → ω r)
    (hrefusal : outside.refusal r = some report)
    (hnext : ∀ j, k = j + 1 → returned (outside.serve r x).1 (some j) s (outside.serve r x).2)
    (hfault : k = 0 → returned (report fault.error) none s (if fault.applied then (outside.serve r x).2 else x)) :
    Ends outside fault (Program.request r : Program ω ε σ (ω r)) (some k) s x returned threw := by
  apply request report hrefusal
  · intro hdue
    obtain ⟨j, rfl⟩ := Nat.exists_eq_succ_of_ne_zero fun h : k = 0 => hdue (h ▸ rfl)
    exact hnext j rfl
  · intro hdue
    exact hfault (Option.some.inj hdue)

/-- A statement whose errors are handled. -/
theorem recover_exec {action : Action ε σ β} {f : β → α} {handler : ε → Program ω ε σ α}
    (hok : ∀ b s', action s = .ok (b, s') → left ≠ some 0 → returned (f b) (tick left) s' x)
    (herror : ∀ e, action s = .error e → left ≠ some 0 →
      Ends outside fault (handler e) (tick left) s x returned threw)
    (hfault : left = some 0 → Ends outside fault (handler fault.error) none
      (if fault.applied then effect action s else s) x returned threw) :
    Ends outside fault (Program.recover (do let b ← Program.exec action; Pure.pure (f b)) handler) left s x
      returned threw := by
  unfold Ends
  change match run outside fault (.act action fun result => ((Program.done result).bind fun b =>
    Pure.pure (f b)).recover handler) left s x with
      | (.ok a, left', s', x') => returned a left' s' x'
      | (.error _, _, s', x') => threw s' x'
  rw [run]
  by_cases hdue : left = some 0
  · simp only [due, hdue, decide_true, if_true]
    exact hfault hdue
  · simp only [due, hdue, decide_false, Bool.false_eq_true, if_false]
    cases haction : action s with
    | ok result => exact hok result.1 result.2 haction hdue
    | error e => exact herror e haction hdue

/-- A loop keeps an invariant between its rounds. -/
theorem traverse {f : β → Program ω ε σ α} {bs : List β} {returned : List α → Option Nat → σ → o → Prop}
    (inv : List β → Option Nat → σ → o → Prop)
    (hround : ∀ b bs left s x, inv (b :: bs) left s x →
      Ends outside fault (f b) left s x (fun _ left' s' x' => inv bs left' s' x') threw)
    (hdone : ∀ as left s x, inv [] left s x → returned as left s x) (h : inv bs left s x) :
    Ends outside fault (Program.traverse f bs) left s x returned threw := by
  induction bs generalizing left s x returned with
  | nil => exact pure (hdone [] left s x h)
  | cons b bs ih =>
    apply bind
    refine mono (hround b bs left s x h) ?_ fun _ _ hthrew => hthrew
    intro a left' s' x' hrest
    apply bind
    apply ih _ hrest
    intro as left s x hend
    exact pure (hdone (a :: as) left s x hend)

end Ends

end FaultyRuns
