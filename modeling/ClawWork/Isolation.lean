import Mathlib.Data.Prod.Basic

/-!
# Owners that share a state

The rows of a state are divided among owners. A program runs for one of them: it
takes atomic actions on the state and sends requests to the world outside. It is
confined to its owner when every action does on the owner's rows alone what it does
on the whole state, and leaves the rows of the others as they are. The rules follow
the way a program is put together; what they give for a run is proved once, for
every program and every answer of the world.
-/

namespace Isolation

/-- The rows of an owner, and the invariant that keeps the owners apart. -/
structure Division (σ υ : Type) where
  view : υ → σ → σ
  inv : σ → Prop

/-- A change of the state that has no effect when it throws. -/
abbrev Action (ε σ α : Type) : Type := StateT σ (Except ε) α

/-- A program ends, takes an action, or sends a request and waits for the reply. -/
inductive Program {ρ : Type} (ω : ρ → Type) (ε σ α : Type) : Type 1
  | done (result : Except ε α)
  | act {β : Type} (action : Action ε σ β) (next : Except ε β → Program ω ε σ α)
  | ask (request : ρ) (next : ω request → Program ω ε σ α)

variable {ρ : Type} {ω : ρ → Type} {ε σ υ α β : Type}

namespace Action

def read (q : σ → α) : Action ε σ α := fun s => .ok (q s, s)

def write (f : σ → σ) : Action ε σ Unit := fun s => .ok ((), f s)

def require (condition : Bool) (e : ε) : Action ε σ Unit :=
  if condition then pure () else throw e

def orThrow (value : Option α) (e : ε) : Action ε σ α :=
  match value with
  | some a => pure a
  | none => throw e

theorem bind_apply (action : Action ε σ α) (f : α → Action ε σ β) (s : σ) :
    (action >>= f) s = match action s with
      | .ok (a, s') => f a s'
      | .error e => .error e := by
  change (action s >>= fun p => f p.1 p.2) = _
  cases action s <;> rfl

/-- Both parts of an action that succeeds have succeeded. -/
theorem bind_eq_ok {action : Action ε σ α} {f : α → Action ε σ β} {s s'' : σ} {b : β}
    (h : (action >>= f) s = .ok (b, s'')) : ∃ a s', action s = .ok (a, s') ∧ f a s' = .ok (b, s'') := by
  rw [bind_apply] at h
  cases hresult : action s with
  | error e =>
    rw [hresult] at h
    cases h
  | ok result =>
    rw [hresult] at h
    exact ⟨result.1, result.2, rfl, h⟩

end Action

namespace Program

def bind : Program ω ε σ α → (α → Program ω ε σ β) → Program ω ε σ β
  | .done (.ok a), f => f a
  | .done (.error e), _ => .done (.error e)
  | .act action next, f => .act action fun result => (next result).bind f
  | .ask request next, f => .ask request fun reply => (next reply).bind f

/-- `try … catch`. -/
def recover : Program ω ε σ α → (ε → Program ω ε σ α) → Program ω ε σ α
  | .done (.ok a), _ => .done (.ok a)
  | .done (.error e), handler => handler e
  | .act action next, handler => .act action fun result => (next result).recover handler
  | .ask request next, handler => .ask request fun reply => (next reply).recover handler

instance : Monad (Program ω ε σ) where
  pure a := .done (.ok a)
  bind := bind

instance : MonadExcept ε (Program ω ε σ) where
  throw e := .done (.error e)
  tryCatch := recover

def exec (action : Action ε σ α) : Program ω ε σ α := .act action .done

def request (r : ρ) : Program ω ε σ (ω r) := .ask r fun reply => .done (.ok reply)

def require (condition : Bool) (e : ε) : Program ω ε σ Unit :=
  if condition then pure () else throw e

def orThrow (value : Option α) (e : ε) : Program ω ε σ α :=
  match value with
  | some a => pure a
  | none => throw e

/-- The results of a program for each element of a list, in turn. -/
def traverse (f : α → Program ω ε σ β) : List α → Program ω ε σ (List β)
  | [] => pure []
  | a :: as => do
    let b ← f a
    let bs ← traverse f as
    return b :: bs

/-- A run on its own; `env` answers the requests by their number. -/
def run (env : Nat → (r : ρ) → ω r) : Program ω ε σ α → Nat → σ → Except ε α × σ
  | .done result, _, s => (result, s)
  | .act action next, n, s =>
    match action s with
    | .ok (b, s') => (next (.ok b)).run env n s'
    | .error e => (next (.error e)).run env n s
  | .ask r next, n, s => (next (env n r)).run env (n + 1) s

end Program

/-- What a change for one owner keeps. -/
structure Kept (D : Division σ υ) (v : υ) (s s' : σ) : Prop where
  inv : D.inv s'
  others : ∀ u, u ≠ v → D.view u s' = D.view u s

theorem Kept.refl {D : Division σ υ} {s : σ} (h : D.inv s) (v : υ) : Kept D v s s := ⟨h, fun _ _ => rfl⟩

theorem Kept.trans {D : Division σ υ} {v : υ} {s s' s'' : σ} (h : Kept D v s s') (h' : Kept D v s' s'') :
    Kept D v s s'' :=
  ⟨h'.inv, fun u hu => (h'.others u hu).trans (h.others u hu)⟩

/-- An action for one owner; what it returns meets `post`. -/
structure Local (D : Division σ υ) (v : υ) (action : Action ε σ α) (post : α → Prop) : Prop where
  view : ∀ s, D.inv s → action (D.view v s) = (action s).map (Prod.map id (D.view v))
  sound : ∀ s a s', D.inv s → action s = .ok (a, s') → Kept D v s s' ∧ post a

namespace Local

variable {D : Division σ υ} {v : υ} {action : Action ε σ α} {post post' : α → Prop}

theorem mono (h : Local D v action post) (himp : ∀ a, post a → post' a) : Local D v action post' where
  view := h.view
  sound s a s' hs ha := ⟨(h.sound s a s' hs ha).1, himp a (h.sound s a s' hs ha).2⟩

theorem pure {a : α} (h : post a) : Local D v (Pure.pure a : Action ε σ α) post where
  view s _ := rfl
  sound s b s' hs hb := by
    cases hb
    exact ⟨.refl hs v, h⟩

theorem throw (e : ε) : Local D v (MonadExcept.throw e : Action ε σ α) post where
  view s _ := rfl
  sound s b s' hs hb := by cases hb

theorem bind {f : α → Action ε σ β} {last : β → Prop} (h : Local D v action post)
    (hf : ∀ a, post a → Local D v (f a) last) : Local D v (action >>= f) last where
  view s hs := by
    rw [Action.bind_apply, Action.bind_apply, h.view s hs]
    cases ha : action s with
    | error e => rfl
    | ok result =>
      obtain ⟨a, s'⟩ := result
      obtain ⟨hkept, hpost⟩ := h.sound s a s' hs ha
      exact (hf a hpost).view s' hkept.inv
  sound s b s'' hs hb := by
    rw [Action.bind_apply] at hb
    cases ha : action s with
    | error e =>
      rw [ha] at hb
      cases hb
    | ok result =>
      obtain ⟨a, s'⟩ := result
      rw [ha] at hb
      obtain ⟨hkept, hpost⟩ := h.sound s a s' hs ha
      obtain ⟨hkept', hlast⟩ := (hf a hpost).sound s' b s'' hkept.inv hb
      exact ⟨hkept.trans hkept', hlast⟩

/-- A query whose answer the owner's rows determine. -/
theorem read {q : σ → α} (post : α → Prop) (hview : ∀ s, D.inv s → q (D.view v s) = q s)
    (hpost : ∀ s, D.inv s → post (q s)) :
    Local D v (Action.read q : Action ε σ α) post where
  view s hs := by
    rw [Action.read, Action.read, hview s hs]
    rfl
  sound s a s' hs ha := by
    cases ha
    exact ⟨.refl hs v, hpost s hs⟩

theorem look {q : σ → α} (hview : ∀ s, D.inv s → q (D.view v s) = q s) :
    Local D v (Action.read q : Action ε σ α) fun _ => True :=
  read (fun _ => True) hview fun _ _ => trivial

/-- A write to the owner's rows. -/
theorem write {f : σ → σ} (hview : ∀ s, D.inv s → f (D.view v s) = D.view v (f s))
    (hkept : ∀ s, D.inv s → Kept D v s (f s)) :
    Local D v (Action.write f : Action ε σ Unit) fun _ => True where
  view s hs := by
    rw [Action.write, Action.write, hview s hs]
    rfl
  sound s a s' hs ha := by
    cases ha
    exact ⟨hkept s hs, trivial⟩

theorem require {condition : Bool} {e : ε} :
    Local D v (Action.require condition e : Action ε σ Unit) fun _ => condition = true := by
  unfold Action.require
  split
  · rename_i h
    exact pure h
  · exact throw e

theorem orThrow {value : Option α} {e : ε} :
    Local D v (Action.orThrow value e : Action ε σ α) fun a => value = some a := by
  cases value with
  | none => exact throw e
  | some a => exact pure rfl

end Local

/-- A program for one owner; `admits` says which replies the world may give it, and what the program
returns meets `post`. -/
def Confined (D : Division σ υ) (v : υ) (admits : (r : ρ) → ω r → Prop) (post : α → Prop) :
    Program ω ε σ α → Prop
  | .done (.ok a) => post a
  | .done (.error _) => True
  | .act action next => ∃ mid, Local D v action mid ∧
      (∀ b, mid b → Confined D v admits post (next (.ok b))) ∧
      ∀ e, Confined D v admits post (next (.error e))
  | .ask r next => ∀ reply, admits r reply → Confined D v admits post (next reply)

namespace Confined

variable {D : Division σ υ} {v : υ} {admits : (r : ρ) → ω r → Prop} {post post' : α → Prop}
  {p : Program ω ε σ α}

theorem mono (h : Confined D v admits post p) (himp : ∀ a, post a → post' a) :
    Confined D v admits post' p := by
  induction p with
  | done result =>
    cases result with
    | ok a => exact himp a h
    | error e => trivial
  | act action next ih =>
    obtain ⟨mid, haction, hok, herror⟩ := h
    exact ⟨mid, haction, fun b hb => ih _ (hok b hb), fun e => ih _ (herror e)⟩
  | ask r next ih => exact fun reply hreply => ih reply (h reply hreply)

theorem pure {a : α} (h : post a) : Confined D v admits post (Pure.pure a : Program ω ε σ α) := h

theorem throw (e : ε) : Confined D v admits post (MonadExcept.throw e : Program ω ε σ α) := trivial

theorem bind {f : α → Program ω ε σ β} {last : β → Prop} (h : Confined D v admits post p)
    (hf : ∀ a, post a → Confined D v admits last (f a)) : Confined D v admits last (p >>= f) := by
  induction p with
  | done result =>
    cases result with
    | ok a => exact hf a h
    | error e => trivial
  | act action next ih =>
    obtain ⟨mid, haction, hok, herror⟩ := h
    exact ⟨mid, haction, fun b hb => ih _ (hok b hb), fun e => ih _ (herror e)⟩
  | ask r next ih => exact fun reply hreply => ih reply (h reply hreply)

theorem recover {handler : ε → Program ω ε σ α} (h : Confined D v admits post p)
    (hhandler : ∀ e, Confined D v admits post (handler e)) :
    Confined D v admits post (tryCatch p handler) := by
  induction p with
  | done result =>
    cases result with
    | ok a => exact h
    | error e => exact hhandler e
  | act action next ih =>
    obtain ⟨mid, haction, hok, herror⟩ := h
    exact ⟨mid, haction, fun b hb => ih _ (hok b hb), fun e => ih _ (herror e)⟩
  | ask r next ih => exact fun reply hreply => ih reply (h reply hreply)

theorem exec {action : Action ε σ α} (h : Local D v action post) :
    Confined D v admits post (Program.exec action : Program ω ε σ α) :=
  ⟨post, h, fun _ hb => hb, fun _ => trivial⟩

theorem request (r : ρ) : Confined D v admits (admits r) (Program.request r : Program ω ε σ (ω r)) :=
  fun _ hreply => hreply

theorem require {condition : Bool} {e : ε} :
    Confined D v admits (fun _ => condition = true) (Program.require condition e : Program ω ε σ Unit) := by
  unfold Program.require
  split
  · rename_i h
    exact pure h
  · exact throw e

theorem orThrow {value : Option α} {e : ε} :
    Confined D v admits (fun a => value = some a) (Program.orThrow value e : Program ω ε σ α) := by
  cases value with
  | none => exact throw e
  | some a => exact pure (a := a) rfl

theorem traverse {f : α → Program ω ε σ β} (each : β → Prop) {as : List α}
    (hf : ∀ a ∈ as, Confined D v admits each (f a)) :
    Confined D v admits (fun bs => ∀ b ∈ bs, each b) (Program.traverse f as) := by
  induction as with
  | nil => exact pure (a := []) fun b hb => by cases hb
  | cons a as ih =>
    obtain ⟨ha, has⟩ := List.forall_mem_cons.mp hf
    exact bind ha fun b hb => bind (ih has) fun bs hbs =>
      pure (a := b :: bs) (List.forall_mem_cons.mpr ⟨hb, hbs⟩)

theorem act_inv {action : Action ε σ β} {next : Except ε β → Program ω ε σ α}
    (h : Confined D v admits post (.act action next)) : ∃ mid, Local D v action mid ∧
      (∀ b, mid b → Confined D v admits post (next (.ok b))) ∧
      ∀ e, Confined D v admits post (next (.error e)) := h

theorem ask_inv {r : ρ} {next : ω r → Program ω ε σ α} (h : Confined D v admits post (.ask r next))
    {reply : ω r} (hreply : admits r reply) : Confined D v admits post (next reply) := h reply hreply

/-- A run sees and changes nothing but the rows of its owner. -/
theorem run_spec {env : Nat → (r : ρ) → ω r} (henv : ∀ n r, admits r (env n r))
    (h : Confined D v admits post p) {s : σ} (hs : D.inv s) (n : Nat) :
    p.run env n (D.view v s) = Prod.map id (D.view v) (p.run env n s) ∧
      Kept D v s (p.run env n s).2 := by
  induction p generalizing n s with
  | done result => exact ⟨rfl, .refl hs v⟩
  | act action next ih =>
    obtain ⟨mid, haction, hok, herror⟩ := h
    simp only [Program.run, haction.view s hs]
    cases hresult : action s with
    | error e => exact ih _ (herror e) hs n
    | ok result =>
      obtain ⟨b, s'⟩ := result
      obtain ⟨hkept, hmid⟩ := haction.sound s b s' hs hresult
      obtain ⟨hview, hrest⟩ := ih _ (hok b hmid) hkept.inv n
      exact ⟨hview, hkept.trans hrest⟩
  | ask r next ih => exact ih _ (h _ (henv n r)) hs (n + 1)

theorem response_view {env : Nat → (r : ρ) → ω r} (henv : ∀ n r, admits r (env n r))
    (h : Confined D v admits post p) {s : σ} (hs : D.inv s) (n : Nat) :
    (p.run env n (D.view v s)).1 = (p.run env n s).1 := by
  rw [(h.run_spec henv hs n).1]
  rfl

end Confined

-- what a call does is not computed to see that it is confined
attribute [irreducible] Confined

end Isolation
