import ClawWork.Isolation
import Mathlib.Data.List.Forall2

/-!
# Runs that only read

A program may leave the state as it is, whatever number its first request has. What
it returns, and what it throws, follows from the parts of the program, as the program
is put together.
-/

namespace Isolation

variable {ρ : Type} {ω : ρ → Type} {ε σ α β : Type}

namespace Program

/-- A program that is followed by another one runs first. -/
theorem run_bind (env : Nat → (r : ρ) → ω r) (p : Program ω ε σ α) (f : α → Program ω ε σ β) (n : Nat) (s : σ) :
    ∃ m, (p >>= f).run env n s = match p.run env n s with
      | (.ok a, s') => (f a).run env m s'
      | (.error e, s') => (.error e, s') := by
  induction p generalizing n s with
  | done result =>
    cases result with
    | ok a => exact ⟨n, rfl⟩
    | error e => exact ⟨n, rfl⟩
  | act action next ih =>
    cases hresult : action s with
    | error e =>
      obtain ⟨m, hm⟩ := ih (.error e) n s
      exact ⟨m, by simpa [bind, Bind.bind, run, hresult] using hm⟩
    | ok result =>
      obtain ⟨m, hm⟩ := ih (.ok result.1) n result.2
      exact ⟨m, by simpa [bind, Bind.bind, run, hresult] using hm⟩
  | ask r next ih =>
    obtain ⟨m, hm⟩ := ih (env n r) (n + 1) s
    exact ⟨m, hm⟩

theorem run_recover (env : Nat → (r : ρ) → ω r) (p : Program ω ε σ α) (handler : ε → Program ω ε σ α) (n : Nat)
    (s : σ) : ∃ m, (tryCatch p handler).run env n s = match p.run env n s with
      | (.ok a, s') => (.ok a, s')
      | (.error e, s') => (handler e).run env m s' := by
  induction p generalizing n s with
  | done result =>
    cases result with
    | ok a => exact ⟨n, rfl⟩
    | error e => exact ⟨n, rfl⟩
  | act action next ih =>
    cases hresult : action s with
    | error e =>
      obtain ⟨m, hm⟩ := ih (.error e) n s
      exact ⟨m, by simpa [tryCatch, tryCatchThe, MonadExceptOf.tryCatch, MonadExcept.tryCatch, recover, run,
        hresult] using hm⟩
    | ok result =>
      obtain ⟨m, hm⟩ := ih (.ok result.1) n result.2
      exact ⟨m, by simpa [tryCatch, tryCatchThe, MonadExceptOf.tryCatch, MonadExcept.tryCatch, recover, run,
        hresult] using hm⟩
  | ask r next ih =>
    obtain ⟨m, hm⟩ := ih (env n r) (n + 1) s
    exact ⟨m, hm⟩

end Program

/-- Every run from a state returns an answer that meets `post`, and changes nothing. -/
def Returns (env : Nat → (r : ρ) → ω r) (s : σ) (p : Program ω ε σ α) (post : α → Prop) : Prop :=
  ∀ n, ∃ a, p.run env n s = (.ok a, s) ∧ post a

namespace Returns

variable {env : Nat → (r : ρ) → ω r} {s : σ} {p : Program ω ε σ α} {post post' : α → Prop}

theorem mono (h : Returns env s p post) (himp : ∀ a, post a → post' a) : Returns env s p post' := by
  intro n
  obtain ⟨a, hrun, ha⟩ := h n
  exact ⟨a, hrun, himp a ha⟩

theorem pure {a : α} (h : post a) : Returns env s (Pure.pure a : Program ω ε σ α) post :=
  fun _ => ⟨a, rfl, h⟩

theorem bind {f : α → Program ω ε σ β} {last : β → Prop} (h : Returns env s p post)
    (hf : ∀ a, post a → Returns env s (f a) last) : Returns env s (p >>= f) last := by
  intro n
  obtain ⟨a, hrun, ha⟩ := h n
  obtain ⟨m, hbind⟩ := p.run_bind env f n s
  obtain ⟨b, hrun', hb⟩ := hf a ha m
  refine ⟨b, ?_, hb⟩
  rw [hbind, hrun]
  exact hrun'

/-- A query answers what the state has. -/
theorem read (q : σ → α) :
    Returns env s (Program.exec (.read q) : Program ω ε σ α) fun a => a = q s :=
  fun _ => ⟨q s, rfl, rfl⟩

theorem orThrow {value : Option α} {e : ε} {a : α} (h : value = some a) :
    Returns env s (Program.orThrow value e : Program ω ε σ α) fun b => b = a := by
  subst h
  exact pure rfl

theorem require {condition : Bool} {e : ε} (h : condition = true) :
    Returns env s (Program.require condition e : Program ω ε σ Unit) fun _ => True := by
  subst h
  exact pure trivial

/-- The replies of the world, whatever their number. -/
theorem request {r : ρ} {post : ω r → Prop} (h : ∀ n, post (env n r)) :
    Returns env s (Program.request r : Program ω ε σ (ω r)) post :=
  fun n => ⟨env n r, rfl, h n⟩

/-- The answers for the elements of a list are listed in their order. -/
theorem traverse {f : α → Program ω ε σ β} {each : α → β → Prop} {as : List α}
    (hf : ∀ a ∈ as, Returns env s (f a) (each a)) :
    Returns env s (Program.traverse f as) (List.Forall₂ each as) := by
  induction as with
  | nil => exact pure .nil
  | cons a as ih =>
    obtain ⟨ha, has⟩ := List.forall_mem_cons.mp hf
    exact bind ha fun b hb => bind (ih has) fun bs hbs => pure (.cons hb hbs)

end Returns

/-- Every run from a state changes nothing; what it returns meets `returned`, and what it throws `threw`. -/
def Settles (env : Nat → (r : ρ) → ω r) (s : σ) (p : Program ω ε σ α) (returned : α → Prop) (threw : ε → Prop) :
    Prop :=
  ∀ n, (∃ a, p.run env n s = (.ok a, s) ∧ returned a) ∨ ∃ e, p.run env n s = (.error e, s) ∧ threw e

namespace Settles

variable {env : Nat → (r : ρ) → ω r} {s : σ} {p : Program ω ε σ α} {returned returned' : α → Prop}
  {threw threw' : ε → Prop}

theorem mono (h : Settles env s p returned threw) (hreturned : ∀ a, returned a → returned' a)
    (hthrew : ∀ e, threw e → threw' e) : Settles env s p returned' threw' := by
  intro n
  rcases h n with ⟨a, hrun, ha⟩ | ⟨e, hrun, he⟩
  · exact .inl ⟨a, hrun, hreturned a ha⟩
  · exact .inr ⟨e, hrun, hthrew e he⟩

/-- A program that cannot throw returns. -/
theorem returns (h : Settles env s p returned threw) (hthrew : ∀ e, ¬ threw e) : Returns env s p returned := by
  intro n
  rcases h n with hreturn | ⟨e, -, he⟩
  · exact hreturn
  · exact absurd he (hthrew e)

/-- A run on the one state of `Unit` changes nothing, and it throws only if not every run returns. -/
theorem of_unit {p : Program ω ε Unit α} :
    Settles env () p (fun _ => True) fun _ => ¬ Returns env () p fun _ => True := by
  intro n
  cases hrun : p.run env n () with
  | mk result s' =>
    cases result with
    | ok a => exact .inl ⟨a, rfl, trivial⟩
    | error e =>
      refine .inr ⟨e, rfl, fun hreturns => ?_⟩
      obtain ⟨a, hreturned, -⟩ := hreturns n
      rw [hrun] at hreturned
      cases hreturned

theorem pure {a : α} (h : returned a) : Settles env s (Pure.pure a : Program ω ε σ α) returned threw :=
  fun _ => .inl ⟨a, rfl, h⟩

theorem throw {e : ε} (h : threw e) : Settles env s (MonadExcept.throw e : Program ω ε σ α) returned threw :=
  fun _ => .inr ⟨e, rfl, h⟩

theorem bind {f : α → Program ω ε σ β} {last : β → Prop} (h : Settles env s p returned threw)
    (hf : ∀ a, returned a → Settles env s (f a) last threw) : Settles env s (p >>= f) last threw := by
  intro n
  obtain ⟨m, hbind⟩ := p.run_bind env f n s
  rw [hbind]
  rcases h n with ⟨a, hrun, ha⟩ | ⟨e, hrun, he⟩
  · rw [hrun]
    exact hf a ha m
  · rw [hrun]
    exact .inr ⟨e, rfl, he⟩

theorem recover {handler : ε → Program ω ε σ α} (h : Settles env s p returned threw)
    (hhandler : ∀ e, threw e → Settles env s (handler e) returned threw') :
    Settles env s (tryCatch p handler) returned threw' := by
  intro n
  obtain ⟨m, hrecover⟩ := p.run_recover env handler n s
  rw [hrecover]
  rcases h n with ⟨a, hrun, ha⟩ | ⟨e, hrun, he⟩
  · rw [hrun]
    exact .inl ⟨a, rfl, ha⟩
  · rw [hrun]
    exact hhandler e he m

/-- A program that returns settles. -/
theorem of_returns (h : Returns env s p returned) : Settles env s p returned threw := fun n => .inl (h n)

theorem require {condition : Bool} {e : ε} (hthrew : condition = false → threw e) :
    Settles env s (Program.require condition e : Program ω ε σ Unit) (fun _ => condition = true) threw := by
  cases condition with
  | true => exact pure rfl
  | false => exact throw (hthrew rfl)

theorem orThrow {value : Option α} {e : ε} (hthrew : value = none → threw e) :
    Settles env s (Program.orThrow value e : Program ω ε σ α) (fun a => value = some a) threw := by
  cases value with
  | some a => exact pure rfl
  | none => exact throw (hthrew rfl)

/-- The answers for the elements of a list are listed in their order, unless one throws. -/
theorem traverse {f : α → Program ω ε σ β} {each : α → β → Prop} {as : List α}
    (hf : ∀ a ∈ as, Settles env s (f a) (each a) threw) :
    Settles env s (Program.traverse f as) (List.Forall₂ each as) threw := by
  induction as with
  | nil => exact pure .nil
  | cons a as ih =>
    obtain ⟨ha, has⟩ := List.forall_mem_cons.mp hf
    exact bind ha fun b hb => bind (ih has) fun bs hbs => pure (.cons hb hbs)

/-- The reply to a request comes from the world. -/
theorem request {r : ρ} :
    Settles env s (Program.request r : Program ω ε σ (ω r)) (fun reply => ∃ n, reply = env n r) threw :=
  fun n => .inl ⟨env n r, rfl, n, rfl⟩

end Settles

end Isolation
