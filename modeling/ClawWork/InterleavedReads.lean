import ClawWork.Isolation
import Mathlib.Order.Defs.Unbundled
import Mathlib.Order.Basic

/-!
# Reads between the steps of others

A program that only reads takes its actions one by one, and other parties move between them. The
world may be another one at each action, but always a later one. What such a program returns meets
a condition on the world that it returns in.
-/

namespace Isolation

variable {ρ : Type} {ω : ρ → Type} {ε σ W α β : Type}

namespace Action

/-- An action that succeeds relates the states before and after it. -/
def Respects (r : σ → σ → Prop) (action : Action ε σ α) : Prop := ∀ s a s', action s = .ok (a, s') → r s s'

variable {r : σ → σ → Prop}

theorem Respects.pure [Std.Refl r] (a : α) : Respects r (Pure.pure a : Action ε σ α) := by
  intro s b s' hb
  cases hb
  exact Std.Refl.refl s

theorem Respects.read [Std.Refl r] (q : σ → α) : Respects r (Action.read q : Action ε σ α) := by
  intro s b s' hb
  cases hb
  exact Std.Refl.refl s

theorem Respects.orThrow [Std.Refl r] (value : Option α) (e : ε) :
    Respects r (Action.orThrow value e : Action ε σ α) := by
  intro s b s' hb
  cases value with
  | none => cases hb
  | some a =>
    cases hb
    exact Std.Refl.refl s

theorem Respects.write {f : σ → σ} (h : ∀ s, r s (f s)) : Respects r (Action.write f : Action ε σ Unit) := by
  intro s b s' hb
  cases hb
  exact h s

theorem Respects.bind [IsTrans σ r] {action : Action ε σ α} {f : α → Action ε σ β} (h : Respects r action)
    (hf : ∀ a, Respects r (f a)) : Respects r (action >>= f) := by
  intro s b s'' hb
  obtain ⟨a, s', ha, hb⟩ := bind_eq_ok hb
  exact IsTrans.trans s s' s'' (h s a s' ha) (hf a s' b s'' hb)

end Action

/-- From the world on, wherever the program takes its actions and whatever is replied to it, it changes
nothing, its answer meets `post` and its error meets `fails`. -/
def Yields [Preorder W] (state : W → σ) (admits : (r : ρ) → ω r → Prop) (fails : ε → Prop) (post : W → α → Prop) :
    W → Program ω ε σ α → Prop
  | w, .done (.ok a) => post w a
  | _, .done (.error e) => fails e
  | w, .act action next => ∀ w', w ≤ w' →
    (∀ b s', action (state w') = .ok (b, s') → s' = state w' ∧ Yields state admits fails post w' (next (.ok b))) ∧
    ∀ e, action (state w') = .error e → Yields state admits fails post w' (next (.error e))
  | w, .ask r next => ∀ reply, admits r reply → Yields state admits fails post w (next reply)

namespace Yields

variable [Preorder W] {state : W → σ} {admits : (r : ρ) → ω r → Prop} {fails : ε → Prop}
  {post post' : W → α → Prop} {w w' : W} {p : Program ω ε σ α}

theorem later (h : Yields state admits fails post w p) (hlater : w ≤ w')
    (hpost : ∀ u v a, u ≤ v → post u a → post v a) : Yields state admits fails post w' p := by
  induction p generalizing w w' with
  | done result =>
    cases result with
    | ok a => exact hpost w w' a hlater h
    | error e => exact h
  | act action next ih => exact fun x hx => h x (le_trans hlater hx)
  | ask r next ih => exact fun reply hreply => ih reply (h reply hreply) hlater

theorem mono (h : Yields state admits fails post w p) (himp : ∀ w a, post w a → post' w a) :
    Yields state admits fails post' w p := by
  induction p generalizing w with
  | done result =>
    cases result with
    | ok a => exact himp w a h
    | error e => exact h
  | act action next ih =>
    intro w' hlater
    obtain ⟨hok, herror⟩ := h w' hlater
    exact ⟨fun b s' hb => ⟨(hok b s' hb).1, ih _ (hok b s' hb).2⟩, fun e he => ih _ (herror e he)⟩
  | ask r next ih => exact fun reply hreply => ih reply (h reply hreply)

theorem pure (post : W → α → Prop) {a : α} (h : post w a) :
    Yields state admits fails post w (Pure.pure a : Program ω ε σ α) := h

theorem throw {e : ε} (h : fails e) :
    Yields state admits fails post w (MonadExcept.throw e : Program ω ε σ α) := h

/-- What follows starts in a later world. -/
theorem bind {f : α → Program ω ε σ β} {last : W → β → Prop} (h : Yields state admits fails post w p)
    (hf : ∀ w', w ≤ w' → ∀ a, post w' a → Yields state admits fails last w' (f a)) :
    Yields state admits fails last w (p >>= f) := by
  induction p generalizing w with
  | done result =>
    cases result with
    | ok a => exact hf w le_rfl a h
    | error e => exact h
  | act action next ih =>
    intro w' hlater
    obtain ⟨hok, herror⟩ := h w' hlater
    refine ⟨fun b s' hb => ⟨(hok b s' hb).1, ?_⟩, fun e he => ?_⟩
    · exact ih _ (hok b s' hb).2 fun w'' hw => hf w'' (le_trans hlater hw)
    · exact ih _ (herror e he) fun w'' hw => hf w'' (le_trans hlater hw)
  | ask r next ih => exact fun reply hreply => ih reply (h reply hreply) hf

/-- A query is answered in a later world. -/
theorem read {q : σ → α} (h : ∀ w', w ≤ w' → post w' (q (state w'))) :
    Yields state admits fails post w (Program.exec (.read q) : Program ω ε σ α) := by
  refine fun w' hlater => ⟨fun b s' hb => ?_, fun e he => by cases he⟩
  cases hb
  exact ⟨rfl, h w' hlater⟩

theorem request (r : ρ) :
    Yields state admits fails (fun _ reply => admits r reply) w (Program.request r : Program ω ε σ (ω r)) :=
  fun _ hreply => hreply

theorem require {condition : Bool} {e : ε} (h : condition = false → fails e) :
    Yields state admits fails (fun _ _ => condition = true) w
      (Program.require condition e : Program ω ε σ Unit) := by
  cases condition with
  | true => exact pure (fun _ _ => true = true) rfl
  | false => exact throw (h rfl)

theorem orThrow {value : Option α} {e : ε} (h : value = none → fails e) :
    Yields state admits fails (fun _ a => value = some a) w (Program.orThrow value e : Program ω ε σ α) := by
  cases value with
  | none => exact throw (h rfl)
  | some a => exact pure (fun _ b => some a = some b) rfl

/-- The answers for the elements of a list, each in its world, are kept to the end. -/
theorem traverse {f : α → Program ω ε σ β} {each : W → β → Prop} {as : List α}
    (hf : ∀ w', w ≤ w' → ∀ a ∈ as, Yields state admits fails each w' (f a))
    (heach : ∀ u v b, u ≤ v → each u b → each v b) :
    Yields state admits fails (fun w' bs => ∀ b ∈ bs, each w' b) w (Program.traverse f as) := by
  induction as generalizing w with
  | nil => exact pure (fun w' bs => ∀ b ∈ bs, each w' b) fun b hb => by cases hb
  | cons a as ih =>
    refine (hf w le_rfl a List.mem_cons_self).bind fun w' hw b hb => ?_
    have hrest := ih fun w'' hw' a' ha' => hf w'' (le_trans hw hw') a' (List.mem_cons_of_mem _ ha')
    refine hrest.bind fun w'' hw' bs hbs => ?_
    exact pure (fun w' bs => ∀ b ∈ bs, each w' b)
      (List.forall_mem_cons.mpr ⟨heach w' w'' b hw' hb, hbs⟩)

end Yields

end Isolation
