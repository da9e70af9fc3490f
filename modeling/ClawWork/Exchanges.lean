import ClawWork.Isolation

/-!
# What a program receives

The requests that a run has sent and the replies to them are its exchanges. Under an
assumption on the replies, every exchange of every run meets a condition; what is
left to show is computed from the program, piece by piece and without loss.
-/

namespace Exchanges

open Isolation

variable {ρ : Type} {ω : ρ → Type} {ε σ α β : Type}

/-- The first exchanges of a run. -/
inductive Exchanged : Program ω ε σ α → σ → List (Sigma ω) → Prop
  | start (p : Program ω ε σ α) (s : σ) : Exchanged p s []
  | acted {γ : Type} {action : Action ε σ γ} {next : Except ε γ → Program ω ε σ α} {s s' : σ}
      {b : γ} {xs : List (Sigma ω)} (h : action s = .ok (b, s')) (hnext : Exchanged (next (.ok b)) s' xs) :
      Exchanged (.act action next) s xs
  | failed {γ : Type} {action : Action ε σ γ} {next : Except ε γ → Program ω ε σ α} {s : σ} {e : ε}
      {xs : List (Sigma ω)} (h : action s = .error e) (hnext : Exchanged (next (.error e)) s xs) :
      Exchanged (.act action next) s xs
  | replied {r : ρ} {next : ω r → Program ω ε σ α} {s : σ} {xs : List (Sigma ω)} (reply : ω r)
      (hnext : Exchanged (next reply) s xs) : Exchanged (.ask r next) s (⟨r, reply⟩ :: xs)

variable {assume good : Sigma ω → Prop} {post post' : Except ε α → σ → Prop}

/-- While the replies are as assumed every exchange is good, and the result meets `post`. -/
def Ensures (assume good : Sigma ω → Prop) : Program ω ε σ α → (Except ε α → σ → Prop) → σ → Prop
  | .done result, post, s => post result s
  | .act action next, post, s =>
    match action s with
    | .ok (b, s') => Ensures assume good (next (.ok b)) post s'
    | .error e => Ensures assume good (next (.error e)) post s
  | .ask r next, post, s =>
    ∀ reply, assume ⟨r, reply⟩ → good ⟨r, reply⟩ ∧ Ensures assume good (next reply) post s

/-- Nothing is said about the result. -/
def Always (assume good : Sigma ω → Prop) (p : Program ω ε σ α) (s : σ) : Prop :=
  Ensures assume good p (fun _ _ => True) s

theorem always_iff_exchanged {p : Program ω ε σ α} {s : σ} :
    Always assume good p s ↔
      ∀ xs, Exchanged p s xs → (∀ x ∈ xs, assume x) → ∀ x ∈ xs, good x := by
  constructor
  · intro hp xs hxs
    induction hxs with
    | start p s => simp
    | acted h hnext ih =>
      rw [Always, Ensures, h] at hp
      exact ih hp
    | failed h hnext ih =>
      rw [Always, Ensures, h] at hp
      exact ih hp
    | replied reply hnext ih =>
      intro hassume x hx
      obtain ⟨hgood, hp⟩ := hp reply (hassume _ (by simp))
      rcases List.mem_cons.mp hx with rfl | hx
      · exact hgood
      · exact ih hp (fun x hx => hassume x (by simp [hx])) x hx
  · intro h
    induction p generalizing s with
    | done result => trivial
    | act action next ih =>
      rw [Always, Ensures]
      cases hact : action s with
      | ok p => exact ih _ fun xs hxs => h xs (.acted hact hxs)
      | error e => exact ih _ fun xs hxs => h xs (.failed hact hxs)
    | ask r next ih =>
      intro reply hreply
      constructor
      · exact h [⟨r, reply⟩] (.replied reply (.start _ _)) (by simpa using hreply) _ (by simp)
      · apply ih reply
        intro xs hxs hassume x hx
        exact h _ (.replied reply hxs) (by simpa using ⟨hreply, hassume⟩) x (by simp [hx])

@[simp] theorem ensures_pure (a : α) (s : σ) :
    Ensures assume good (pure a : Program ω ε σ α) post s ↔ post (.ok a) s := Iff.rfl

@[simp] theorem ensures_throw (e : ε) (s : σ) :
    Ensures assume good (throw e : Program ω ε σ α) post s ↔ post (.error e) s := Iff.rfl

theorem ensures_require {condition : Bool} {e : ε} {post : Except ε Unit → σ → Prop} {s : σ} :
    Ensures assume good (Program.require condition e : Program ω ε σ Unit) post s ↔
      if condition then post (.ok ()) s else post (.error e) s := by
  cases condition <;> rfl

theorem ensures_bind {p : Program ω ε σ α} {f : α → Program ω ε σ β} {post : Except ε β → σ → Prop} {s : σ} :
    Ensures assume good (p >>= f) post s ↔
      Ensures assume good p (fun result s' => match result with
        | .ok a => Ensures assume good (f a) post s'
        | .error e => post (.error e) s') s := by
  change Ensures assume good (p.bind f) post s ↔ _
  induction p generalizing s with
  | done result => cases result <;> rfl
  | act action next ih =>
    simp only [Program.bind, Ensures]
    cases action s with
    | ok p => exact ih _
    | error e => exact ih _
  | ask r next ih => simp only [Program.bind, Ensures, ih]

theorem ensures_tryCatch {p : Program ω ε σ α} {handler : ε → Program ω ε σ α} {s : σ} :
    Ensures assume good (tryCatch p handler) post s ↔
      Ensures assume good p (fun result s' => match result with
        | .ok a => post (.ok a) s'
        | .error e => Ensures assume good (handler e) post s') s := by
  change Ensures assume good (p.recover handler) post s ↔ _
  induction p generalizing s with
  | done result => cases result <;> rfl
  | act action next ih =>
    simp only [Program.recover, Ensures]
    cases action s with
    | ok p => exact ih _
    | error e => exact ih _
  | ask r next ih => simp only [Program.recover, Ensures, ih]

theorem ensures_congr {p : Program ω ε σ α} {s : σ} (h : ∀ result s, post result s ↔ post' result s) :
    Ensures assume good p post s ↔ Ensures assume good p post' s := by
  rw [show post = post' from funext fun result => funext fun s => propext (h result s)]

/-- A continuation that sends nothing more does not count. -/
theorem always_bind_of_always {p : Program ω ε σ α} {f : α → Program ω ε σ β} {s : σ}
    (h : ∀ a s, Always assume good (f a) s) : Always assume good (p >>= f) s ↔ Always assume good p s := by
  rw [Always, ensures_bind]
  apply ensures_congr
  intro result s'
  cases result with
  | ok a => exact iff_of_true (h a s') trivial
  | error e => exact Iff.rfl

end Exchanges
