import ClawWork.RegistryFrames

/-!
# Operations confined to a set of tasks

`Confined ts` says of a step of the registry that it acts for tasks whose id is
in `ts` only: it writes to their handlers, settles their promises and adds run
ids for them. No operation but `insert` adds an active task or changes the input
of an object.
-/

namespace PersistentGatewayClient

open JavaScript SharedTypes GatewayProtocol GatewayClient

namespace Registry

variable {opts : Options} {ts : String → Prop} {r r' r'' : Registry} {x y : Nat}

structure Confined (ts : String → Prop) (r r' : Registry) : Prop where
  input : ∀ y, (r'.tasks y).input = (r.tasks y).input
  promise : ∀ y, ¬ ts (r.taskId y) → (r'.tasks y).promise = (r.tasks y).promise
  active : ∀ s y, r'.activeByTask.get s = some y → r.activeByTask.get s = some y
  runs : ∀ rid y, r'.taskByRun.get rid = some y → r.taskByRun.get rid = some y ∨ ts (r.taskId y)
  log : ∃ es, r'.log = r.log ++ es ∧ ∀ e ∈ es, ts e.taskId

/-- Every entry of `activeByTask` stands under the task id of its object. -/
def Keyed (r : Registry) : Prop := ∀ t x, r.activeByTask.get t = some x → r.taskId x = t

namespace Confined

theorem refl (ts : String → Prop) (r : Registry) : Confined ts r r :=
  ⟨fun _ => rfl, fun _ _ => rfl, fun _ _ h => h, fun _ _ h => .inl h, [], by simp, by simp⟩

theorem taskId (h : Confined ts r r') (y : Nat) : r'.taskId y = r.taskId y :=
  congrArg ExecuteGatewayTaskInput.taskId (h.input y)

theorem trans (h : Confined ts r r') (h' : Confined ts r' r'') : Confined ts r r'' where
  input := fun y => (h'.input y).trans (h.input y)
  promise := by
    intro y hy
    rw [h'.promise y (by rwa [h.taskId]), h.promise y hy]
  active := fun s y hy => h.active s y (h'.active s y hy)
  runs := by
    intro rid y hy
    rcases h'.runs rid y hy with hy | hy
    · exact h.runs rid y hy
    · exact .inr (h.taskId y ▸ hy)
  log := by
    obtain ⟨es, hes, hts⟩ := h.log
    obtain ⟨fs, hfs, hts'⟩ := h'.log
    refine ⟨es ++ fs, by rw [hfs, hes, List.append_assoc], fun e he => ?_⟩
    rcases List.mem_append.mp he with he | he
    · exact hts e he
    · exact hts' e he

theorem keyed (h : Confined ts r r') (hr : Keyed r) : Keyed r' := fun t x hx =>
  (h.taskId x).trans (hr t x (h.active t x hx))

end Confined

theorem confined_modify {f : ActiveTask → ActiveTask} (hinput : ∀ a, (f a).input = a.input)
    (hpromise : (∀ a, (f a).promise = a.promise) ∨ ts (r.taskId x)) :
    Confined ts r (r.modify x f) where
  input := by
    intro y
    by_cases h : y = x
    · subst h; simp [hinput]
    · simp [h]
  promise := by
    intro y hy
    by_cases h : y = x
    · subst h
      have hf := hpromise.resolve_right hy
      simp [hf]
    · simp [h]
  active := fun _ _ h => h
  runs := fun _ _ h => .inl h
  log := ⟨[], by simp, by simp⟩

theorem confined_write (t : String) (e : Effect) (h : ts t) (x : Nat) :
    Confined ts r (r.write x t e) where
  input := fun _ => rfl
  promise := fun _ _ => rfl
  active := fun _ _ h => h
  runs := fun _ _ h => .inl h
  log := ⟨[⟨x, t, e⟩], rfl, by simpa using h⟩

theorem confined_emit (d : TaskEventDetail) (h : ts (r.taskId x)) : Confined ts r (r.emit x d) :=
  confined_write _ _ h x

theorem confined_removeTask (r : Registry) (x : Nat) : Confined ts r (r.removeTask x) where
  input := by
    intro y
    by_cases h : y = x
    · subst h; simp
    · simp [h]
  promise := by
    intro y _
    by_cases h : y = x
    · subst h; simp
    · simp [h]
  active := by
    intro s y hy
    rw [removeTask_activeByTask, OrderedMap.get_delete] at hy
    split at hy
    · cases hy
    · exact hy
  runs := by
    intro rid y hy
    simp only [removeTask] at hy
    split at hy
    · exact .inl hy
    · rw [OrderedMap.get_delete] at hy
      split at hy
      · cases hy
      · exact .inl hy
  log := ⟨[], by simp, by simp⟩

theorem confined_reject (e : GatewayError) (h : ts (r.taskId x)) : Confined ts r (r.reject x e) :=
  confined_modify (fun _ => rfl) (.inr h)

theorem confined_fail (e : GatewayError) (h : ts (r.taskId x)) : Confined ts r (r.fail x e) := by
  unfold fail
  split
  · exact confined_emit _ h
  · exact confined_reject e h

theorem confined_failAll (e : GatewayError) (h : ∀ x ∈ r.activeByTask.values, ts (r.taskId x)) :
    Confined ts r (r.failAll e) := by
  have hloop : ∀ (xs : List Nat) (r' : Registry), (∀ x ∈ xs, ts (r'.taskId x)) →
      Confined ts r' (xs.foldl
        (fun r x => (r.fail x e).modify x fun a => { a with timeout := false }) r') := by
    intro xs
    induction xs with
    | nil => exact fun r' _ => Confined.refl ts r'
    | cons x xs ih =>
      intro r' hts
      have h₁ : Confined ts r' (r'.fail x e) := confined_fail e (hts x List.mem_cons_self)
      have h₂ : Confined ts (r'.fail x e)
          ((r'.fail x e).modify x fun a => { a with timeout := false }) :=
        confined_modify (fun _ => rfl) (.inl fun _ => rfl)
      refine (h₁.trans h₂).trans (ih _ fun y hy => ?_)
      rw [(h₁.trans h₂).taskId]
      exact hts y (List.mem_cons_of_mem _ hy)
  have hfold := hloop _ r h
  refine ⟨hfold.input, hfold.promise, fun s y hy => ?_, fun rid y hy => ?_, hfold.log⟩
  · cases hy
  · cases hy

theorem confined_onOk (id : String) (runId : Option String)
    (h : ∀ x, r.activeByTask.get id = some x → ts (r.taskId x)) : Confined ts r (r.onOk id runId) := by
  unfold onOk
  cases hget : r.activeByTask.get id with
  | none => exact Confined.refl ts r
  | some x =>
    have hx := h x hget
    have h₁ : Confined ts r (r.modify x fun a =>
        { a with runId := orElse (asNonEmptyString runId) (r.taskId x) }) :=
      confined_modify (fun _ => rfl) (.inl fun _ => rfl)
    have h₂ : ∀ r₁ : Registry, r₁.taskId x = r.taskId x →
        Confined ts r₁ { r₁ with
          taskByRun := r₁.taskByRun.set (orElse (asNonEmptyString runId) (r.taskId x)) x } := by
      intro r₁ hid
      refine ⟨fun _ => rfl, fun _ _ => rfl, fun _ _ h => h, fun rid y hy => ?_, [], by simp, by simp⟩
      rw [OrderedMap.get_set] at hy
      split at hy
      · obtain rfl := Option.some.inj hy
        exact .inr (hid ▸ hx)
      · exact .inl hy
    have h₁₂ := h₁.trans (h₂ _ (h₁.taskId x))
    have hx₂ := h₁₂.taskId x ▸ hx
    refine h₁₂.trans ((confined_emit .accepted hx₂).trans (confined_modify (fun _ => rfl) (.inr ?_)))
    exact hx₂

theorem confined_onError (id : String) (code message : Option String)
    (h : ∀ x, r.activeByTask.get id = some x → ts (r.taskId x)) :
    Confined ts r (r.onError id code message) := by
  unfold onError
  cases hget : r.activeByTask.get id with
  | none => exact Confined.refl ts r
  | some x => exact (confined_reject _ (h x hget)).trans (confined_removeTask _ x)

theorem confined_emitArtifact (artifact : Option Artifact) (h : ts (r.taskId x)) :
    Confined ts r (r.emitArtifact x artifact) := by
  cases artifact with
  | none => exact Confined.refl ts r
  | some a => exact confined_emit _ h

theorem confined_onAgent (opts : Options) (payload : EventPayload) (h : ts (r.taskId x)) :
    Confined ts r (r.onAgent opts x payload) := by
  have h₁ : Confined ts r (r.emitArtifact x (frameArtifact opts payload)) :=
    confined_emitArtifact _ h
  have hx₁ := h₁.taskId x ▸ h
  have h₂ : ∀ snapshot, Confined ts (r.emitArtifact x (frameArtifact opts payload))
      ((r.emitArtifact x (frameArtifact opts payload)).modify x
        fun a => { a with lastAssistantSnapshot := snapshot }) := fun snapshot =>
    confined_modify (fun _ => rfl) (.inl fun _ => rfl)
  simp only [onAgent]
  split
  · split
    · exact h₁.trans (h₂ _)
    · refine (h₁.trans (h₂ _)).trans (confined_emit _ ?_)
      rwa [(h₂ _).taskId]
  · split
    · exact h₁.trans (confined_emit _ hx₁)
    · exact h₁

theorem confined_onChat (opts : Options) (payload : EventPayload) (h : ts (r.taskId x)) :
    Confined ts r (r.onChat opts x payload) := by
  have h₁ : Confined ts r (r.emitArtifact x (frameArtifact opts payload)) :=
    confined_emitArtifact _ h
  have hx₁ := h₁.taskId x ▸ h
  have h₂ : ∀ d, Confined ts r
      (((r.emitArtifact x (frameArtifact opts payload)).emit x d).removeTask x) := fun d =>
    (h₁.trans (confined_emit d hx₁)).trans (confined_removeTask _ x)
  simp only [onChat]
  split
  · exact h₂ _
  · exact h₂ _
  · exact h₂ _
  · exact h₁

theorem confined_onTimeout (x : Nat)
    (h : ∀ y, r.activeByTask.get (r.taskId x) = some y → ts (r.taskId y)) :
    Confined ts r (r.onTimeout x) := by
  have h₁ : Confined ts r (r.modify x fun a => { a with timeout := false }) :=
    confined_modify (fun _ => rfl) (.inl fun _ => rfl)
  unfold onTimeout
  dsimp only
  split
  · exact h₁
  · rename_i y hy
    have hid := h₁.taskId x
    have hy' := h y (hid ▸ hy)
    refine h₁.trans ((confined_fail _ ?_).trans (confined_removeTask _ y))
    rwa [h₁.taskId]

theorem confined_cancelActive (h : ts (r.taskId x)) : Confined ts r (r.cancelActive x) := by
  have h₁ : ∀ e, Confined ts r (r.write x (r.taskId x) e) := fun e => confined_write _ e h x
  have h₂ : ∀ (e : Effect) (d : TaskEventDetail),
      Confined ts r ((r.write x (r.taskId x) e).emit x d) := fun e d =>
    (h₁ e).trans (confined_emit d h)
  unfold cancelActive
  dsimp only
  split
  · exact (h₂ _ _).trans (confined_removeTask _ x)
  · exact ((h₂ _ _).trans (confined_reject _ h)).trans (confined_removeTask _ x)

theorem cancelActive_activeByTask (r : Registry) (x : Nat) :
    (r.cancelActive x).activeByTask = r.activeByTask.delete (r.taskId x) := by
  simp only [cancelActive]
  split
  · rfl
  · rw [removeTask_activeByTask, taskId_reject]
    rfl

theorem cancelActive_taskByRun (r : Registry) (x : Nat) :
    (r.cancelActive x).taskByRun =
      if (r.tasks x).runId = "" then r.taskByRun else r.taskByRun.delete (r.tasks x).runId := by
  simp only [cancelActive]
  split
  · rfl
  · simp [removeTask, reject]

theorem cancelActive_tasks_other (r : Registry) (h : y ≠ x) :
    (r.cancelActive x).tasks y = r.tasks y := by
  simp only [cancelActive]
  split <;> simp [removeTask_tasks_other, reject, h]

theorem accepted_cancelActive (r : Registry) (x : Nat) :
    (r.cancelActive x).accepted x = r.accepted x := by
  simp only [cancelActive]
  split <;> simp [accepted, reject]

end Registry

end PersistentGatewayClient
