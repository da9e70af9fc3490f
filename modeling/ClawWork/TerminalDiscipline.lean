import ClawWork.RegistryFrames

/-!
# Terminal events of accepted executions

An execution that the gateway accepted stays in `activeByTask` without a
terminal event and leaves it together with exactly one, after which its handler
is silent. The adapter keeps this discipline except where an error response
arrives late, where a task id is executed again while its task is active, and
where a frame reaches an object that is no longer active through a run id that
was never forgotten.
-/

namespace TerminalDiscipline

open JavaScript SharedTypes GatewayProtocol GatewayClient PersistentGatewayClient
open PersistentGatewayClient.Registry Transition

variable {opts : Options} {r r' r'' : Registry} {x y : Nat}

/-- No terminal event so far. -/
def Open (es : List TaskEventDetail) : Prop := ∀ e ∈ es, e.isTerminal = false

/-- Exactly one terminal event, and nothing after it. -/
def Sealed (es : List TaskEventDetail) : Prop :=
  ∃ before last, es = before ++ [last] ∧ last.isTerminal = true ∧ Open before

theorem Open.append {es fs : List TaskEventDetail} (h : Open es) (h' : Open fs) :
    Open (es ++ fs) := by
  intro e he
  rcases List.mem_append.mp he with he | he
  · exact h e he
  · exact h' e he

theorem open_singleton {d : TaskEventDetail} (h : d.isTerminal = false) : Open [d] := by
  intro e he
  rw [List.mem_singleton] at he
  exact he ▸ h

theorem Open.seal {es : List TaskEventDetail} {d : TaskEventDetail} (h : Open es)
    (hd : d.isTerminal = true) : Sealed (es ++ [d]) := ⟨es, d, rfl, hd, h⟩

/-- What the handlers have received, in one state. -/
def Disciplined (r : Registry) : Prop :=
  ∀ x, r.accepted x = true →
    (r.Registered x ∧ Open (r.received x)) ∨ (¬ r.Registered x ∧ Sealed (r.received x))

/-- What holds of one call between two steps. -/
structure Good (r : Registry) (x : Nat) : Prop where
  settled : r.Registered x → (r.tasks x).settled = r.accepted x
  unrejected : r.Registered x → ∀ error, (r.tasks x).promise ≠ .rejected error
  quiet : r.Registered x → Open (r.received x)
  closed : r.accepted x = true → ¬ r.Registered x → Sealed (r.received x)

structure RegInv (r : Registry) : Prop where
  keyed : ∀ t x, r.activeByTask.get t = some x → r.taskId x = t
  runs : ∀ rid x, r.taskByRun.get rid = some x → r.accepted x = true
  good : ∀ x, Good r x

/-- A call that is neither active nor accepted, to which the registry says nothing. -/
structure Outside (r : Registry) (x : Nat) (es : List TaskEventDetail) : Prop where
  unregistered : ¬ r.Registered x
  unaccepted : r.accepted x = false
  received : r.received x = es

/-- A step of the registry that concerns registered or accepted calls only. -/
structure RegStep (r r' : Registry) : Prop where
  inv : RegInv r'
  outside : ∀ x es, Outside r x es → Outside r' x es

theorem RegInv.disciplined (h : RegInv r) : Disciplined r := by
  intro x hx
  by_cases hreg : r.Registered x
  · exact .inl ⟨hreg, (h.good x).quiet hreg⟩
  · exact .inr ⟨hreg, (h.good x).closed hx hreg⟩

theorem RegInv.registered (h : RegInv r) {t : String} (hx : r.activeByTask.get t = some x) :
    r.Registered x := by
  have hid := h.keyed t x hx
  simpa [Registered, hid] using hx

theorem RegInv.registered_of_mem (h : RegInv r) (hx : x ∈ r.activeByTask.values) :
    r.Registered x := by
  obtain ⟨t, ht⟩ := (OrderedMap.mem_values_iff _ _).mp hx
  exact h.registered ht

theorem RegStep.refl (h : RegInv r) : RegStep r r := ⟨h, fun _ _ => id⟩

theorem RegStep.trans (h : RegStep r r') (h' : RegStep r' r'') : RegStep r r'' :=
  ⟨h'.inv, fun x es hx => h'.outside x es (h.outside x es hx)⟩

theorem Outside.of_frame {es : List TaskEventDetail} (h : Outside r x es) (hf : Frame r r' x) :
    Outside r' x es where
  unregistered := by
    rw [hf.registered]
    exact h.unregistered
  unaccepted := hf.accepted.trans h.unaccepted
  received := hf.received.trans h.received

theorem Good.of_frame (h : Good r x) (hf : Frame r r' x) : Good r' x where
  settled := by
    rw [hf.registered, hf.tasks, hf.accepted]
    exact h.settled
  unrejected := by
    rw [hf.registered, hf.tasks]
    exact h.unrejected
  quiet := by
    rw [hf.registered, hf.received]
    exact h.quiet
  closed := by
    rw [hf.registered, hf.received, hf.accepted]
    exact h.closed

/-- A step aimed at a registered call that keeps it in the map. -/
theorem regStep_of_frames (hr : RegInv r) (hframe : ∀ x, x ≠ y → Frame r r' x)
    (hactive : r'.activeByTask = r.activeByTask) (hid : r'.taskId y = r.taskId y)
    (hruns : ∀ rid x, r'.taskByRun.get rid = some x → x ≠ y → r.taskByRun.get rid = some x)
    (hmono : ∀ rid, r'.taskByRun.get rid = some y → r'.accepted y = true)
    (htarget : r.Registered y) (hgood : Good r' y) : RegStep r r' where
  inv :=
    { keyed := by
        intro t x hx
        rw [hactive] at hx
        by_cases h : x = y
        · subst h; rw [hid]; exact hr.keyed t x hx
        · simpa [taskId, (hframe x h).tasks] using hr.keyed t x hx
      runs := by
        intro rid x hx
        by_cases h : x = y
        · subst h; exact hmono rid hx
        · rw [(hframe x h).accepted]; exact hr.runs rid x (hruns rid x hx h)
      good := by
        intro x
        by_cases h : x = y
        · subst h; exact hgood
        · exact (hr.good x).of_frame (hframe x h) }
  outside := by
    intro x es hx
    refine hx.of_frame (hframe x ?_)
    intro hxy
    exact hx.unregistered (hxy ▸ htarget)

theorem regStep_emit (hr : RegInv r) (hy : r.Registered y) {d : TaskEventDetail}
    (hd : d.isTerminal = false) : RegStep r (r.emit y d) := by
  have hg := hr.good y
  refine regStep_of_frames hr (fun x hx => frame_emit r d hx) rfl rfl (fun _ _ h _ => h)
    (fun rid h => hr.runs rid y h) hy ?_
  refine ⟨hg.settled, hg.unrejected, fun h => ?_, fun _ h => absurd hy h⟩
  rw [received_emit_same]
  exact (hg.quiet h).append (open_singleton hd)

/-- Changing only bookkeeping members of an object. -/
theorem regStep_modify (hr : RegInv r) {f : ActiveTask → ActiveTask}
    (hinput : ∀ a, (f a).input = a.input) (hpromise : ∀ a, (f a).promise = a.promise)
    (hsettled : ∀ a, (f a).settled = a.settled) (y : Nat) : RegStep r (r.modify y f) := by
  have hid : ∀ x, (r.modify y f).taskId x = r.taskId x := taskId_modify r hinput y
  have hreg : ∀ x, (r.modify y f).Registered x ↔ r.Registered x := by simp [Registered, hid]
  have htask : ∀ x, ((r.modify y f).tasks x).promise = (r.tasks x).promise ∧
      ((r.modify y f).tasks x).settled = (r.tasks x).settled := by
    intro x
    by_cases h : x = y
    · subst h; simp [hpromise, hsettled]
    · simp [h]
  have hacc : ∀ x, (r.modify y f).accepted x = r.accepted x := by simp [accepted, htask]
  refine ⟨⟨fun t x hx => (hid x).trans (hr.keyed t x hx), fun rid x hx => ?_, fun x => ?_⟩,
    fun x es hx => ⟨?_, (hacc x).trans hx.unaccepted, hx.received⟩⟩
  · exact (hacc x).trans (hr.runs rid x hx)
  · have hg := hr.good x
    refine ⟨fun h => ?_, fun h => ?_, fun h => hg.quiet ((hreg x).mp h), fun h h' => ?_⟩
    · rw [(htask x).2, hacc]
      exact hg.settled ((hreg x).mp h)
    · rw [(htask x).1]
      exact hg.unrejected ((hreg x).mp h)
    · exact hg.closed (hacc x ▸ h) (fun hn => h' ((hreg x).mpr hn))
  · rw [hreg]
    exact hx.unregistered

theorem regStep_write (hr : RegInv r) (t : String) {e : Effect} (he : ∀ event, e ≠ .event event)
    (y : Nat) : RegStep r (r.write y t e) := by
  have hf : ∀ x, Frame r (r.write y t e) x := fun x =>
    ⟨rfl, received_write_silent r y x t he, Iff.rfl⟩
  exact ⟨⟨hr.keyed, hr.runs, fun x => (hr.good x).of_frame (hf x)⟩,
    fun x _ hx => hx.of_frame (hf x)⟩

/-- A registered task leaves the maps: it must be sealed by then if it was accepted. -/
theorem regStep_leave (hr : RegInv r) (hy : r.Registered y) (hframe : ∀ x, x ≠ y → Frame r r' x)
    (hactive : r'.activeByTask = r.activeByTask) (htaskByRun : r'.taskByRun = r.taskByRun)
    (hid : r'.taskId y = r.taskId y) (hmono : r.accepted y = true → r'.accepted y = true)
    (hsealed : r'.accepted y = true → Sealed (r'.received y)) : RegStep r (r'.removeTask y) := by
  have hy' : r'.Registered y := by simpa [Registered, hactive, hid] using hy
  have hf : ∀ x, x ≠ y → Frame r (r'.removeTask y) x := fun x hx =>
    (hframe x hx).trans (frame_removeTask hy' hx)
  have hacc : (r'.removeTask y).accepted y = r'.accepted y := by simp [accepted]
  refine ⟨⟨?_, ?_, ?_⟩, ?_⟩
  · intro t x hx
    rw [removeTask_activeByTask, OrderedMap.get_delete] at hx
    split at hx
    · cases hx
    · rw [hactive] at hx
      rw [taskId_removeTask]
      by_cases h : x = y
      · subst h; rw [hid]; exact hr.keyed t x hx
      · simpa [taskId, (hframe x h).tasks] using hr.keyed t x hx
  · intro rid x hx
    have hold : r.taskByRun.get rid = some x := by
      rw [← htaskByRun]
      simp only [removeTask] at hx
      split at hx
      · exact hx
      · rw [OrderedMap.get_delete] at hx
        split at hx
        · cases hx
        · exact hx
    by_cases h : x = y
    · subst h; rw [hacc]; exact hmono (hr.runs rid x hold)
    · rw [(hf x h).accepted]; exact hr.runs rid x hold
  · intro x
    by_cases h : x = y
    · subst h
      have hn := not_registered_removeTask r' x
      refine ⟨fun h => absurd h hn, fun h => absurd h hn, fun h => absurd h hn, fun h _ => ?_⟩
      exact hsealed (hacc ▸ h)
    · exact (hr.good x).of_frame (hf x h)
  · intro x es hx
    exact hx.of_frame (hf x fun h => hx.unregistered (h ▸ hy))

theorem regStep_emit_leave (hr : RegInv r) (hy : r.Registered y) {d : TaskEventDetail}
    (hd : d.isTerminal = true) : RegStep r ((r.emit y d).removeTask y) := by
  refine regStep_leave hr hy (fun x hx => frame_emit r d hx) rfl rfl rfl id fun _ => ?_
  rw [received_emit_same]
  exact ((hr.good y).quiet hy).seal hd

theorem regStep_reject_leave (hr : RegInv r) (hy : r.Registered y) (hacc : r.accepted y = false)
    (e : GatewayError) : RegStep r ((r.reject y e).removeTask y) := by
  have hacc' : (r.reject y e).accepted y = false := by simpa [accepted, reject] using hacc
  refine regStep_leave hr hy (fun x hx => frame_modify r _ hx) rfl rfl
    (taskId_reject r y y e) (fun h => ?_) (fun h => ?_)
  · rw [hacc] at h; cases h
  · rw [hacc'] at h; cases h

/-- A task whose timer fires, however far its execution has come. -/
theorem regStep_fail_leave (hr : RegInv r) (hy : r.Registered y) (e : GatewayError) :
    RegStep r ((r.fail y e).removeTask y) := by
  have hs := (hr.good y).settled hy
  unfold fail
  split
  · exact regStep_emit_leave hr hy rfl
  · rename_i hset
    exact regStep_reject_leave hr hy (by rw [← hs]; simpa using hset) e

theorem regStep_onOk (hr : RegInv r) (id : String) (runId : Option String) :
    RegStep r (r.onOk id runId) := by
  unfold onOk
  cases hget : r.activeByTask.get id with
  | none => exact RegStep.refl hr
  | some y =>
    have hy := hr.registered hget
    have hg := hr.good y
    have hrej := hg.unrejected hy
    refine regStep_of_frames hr (y := y) (fun x hx => ?_) rfl ?_ (fun rid x hx hne => ?_)
      (fun rid _ => ?_) hy ⟨fun _ => ?_, fun _ e => ?_, fun _ => ?_, fun _ h => ?_⟩
    · exact ⟨by simp [hx], by simp [received, emit, write, details, hx.symm],
        by simp [Registered, taskId, hx]⟩
    · simp [taskId]
    · simp only [modify_taskByRun, emit_taskByRun, OrderedMap.get_set] at hx
      split at hx
      · exact absurd (Option.some.inj hx).symm hne
      · exact hx
    · simp [accepted, Promise.isFulfilled_resolve _ hrej]
    · simp [accepted, Promise.isFulfilled_resolve _ hrej]
    · simpa using Promise.resolve_ne_rejected _ hrej e
    · have hopen := (hg.quiet hy).append (open_singleton (d := .accepted) rfl)
      simpa [received, emit, write, details] using hopen
    · exact absurd (by simpa [Registered, taskId] using hy) h

theorem regStep_onError (hr : RegInv r) {id : String} (code message : Option String)
    (hok : ∀ x, r.activeByTask.get id = some x → r.accepted x = false) :
    RegStep r (r.onError id code message) := by
  unfold onError
  cases hget : r.activeByTask.get id with
  | none => exact RegStep.refl hr
  | some y => exact regStep_reject_leave hr (hr.registered hget) (hok y hget) _

theorem regStep_emitArtifact (hr : RegInv r) (hy : r.Registered y) (artifact : Option Artifact) :
    RegStep r (r.emitArtifact y artifact) := by
  cases artifact with
  | none => exact RegStep.refl hr
  | some a => exact regStep_emit hr hy rfl

/-- An agent frame may reach an object that is no longer active only without effect. -/
theorem regStep_onAgent (hr : RegInv r) {payload : EventPayload}
    (hy : r.Registered y ∨ AgentSilent opts r y payload) :
    RegStep r (r.onAgent opts y payload) := by
  rcases hy with hy | hsilent
  · have h₁ := regStep_emitArtifact hr hy (frameArtifact opts payload)
    have hy₁ : (r.emitArtifact y (frameArtifact opts payload)).Registered y :=
      registered_emitArtifact.mpr hy
    unfold onAgent
    dsimp only
    split
    · have h₂ := regStep_modify h₁.inv (f := fun a => { a with lastAssistantSnapshot :=
        (normalizeAssistantDelta (assistantSnapshot opts payload)
          ((r.emitArtifact y (frameArtifact opts payload)).tasks y).lastAssistantSnapshot).2 })
        (fun _ => rfl) (fun _ => rfl) (fun _ => rfl) y
      split
      · exact h₁.trans h₂
      · exact (h₁.trans h₂).trans (regStep_emit h₂.inv (by simpa [Registered, taskId] using hy₁) rfl)
    · split
      · exact h₁.trans (regStep_emit h₁.inv hy₁ rfl)
      · exact h₁
  · rw [onAgent_silent hsilent]
    apply regStep_modify hr <;> exact fun _ => rfl

theorem regStep_onChat (hr : RegInv r) {payload : EventPayload}
    (hy : r.Registered y ∨ ChatSilent opts payload) : RegStep r (r.onChat opts y payload) := by
  rcases hy with hy | hsilent
  · have h₁ := regStep_emitArtifact hr hy (frameArtifact opts payload)
    have hy₁ : (r.emitArtifact y (frameArtifact opts payload)).Registered y :=
      registered_emitArtifact.mpr hy
    unfold onChat
    dsimp only
    split
    · exact h₁.trans (regStep_emit_leave h₁.inv hy₁ rfl)
    · exact h₁.trans (regStep_emit_leave h₁.inv hy₁ rfl)
    · exact h₁.trans (regStep_emit_leave h₁.inv hy₁ rfl)
    · exact h₁
  · rw [onChat_silent hsilent]
    exact RegStep.refl hr

theorem regStep_onTimeout (hr : RegInv r) (x : Nat) : RegStep r (r.onTimeout x) := by
  have h₁ : RegStep r (r.modify x fun a => { a with timeout := false }) := by
    apply regStep_modify hr <;> exact fun _ => rfl
  unfold onTimeout
  dsimp only
  split
  · exact h₁
  · rename_i y hy
    exact h₁.trans (regStep_fail_leave h₁.inv (h₁.inv.registered hy) _)

/-- A user's cancellation emits its event; the promise is rejected if it is still pending. -/
theorem regStep_cancelled (hr : RegInv r) (hy : r.Registered y) {d : TaskEventDetail}
    (hd : d.isTerminal = true) (e : GatewayError) :
    RegStep r ((if (r.tasks y).settled then r.emit y d else (r.emit y d).reject y e).removeTask y) := by
  have hset := (hr.good y).settled hy
  split
  · exact regStep_emit_leave hr hy hd
  · rename_i hs
    have hfalse : r.accepted y = false := by
      rw [← hset]
      simpa using hs
    have hrej : ((r.emit y d).reject y e).accepted y = false := by
      simpa [accepted, reject] using hfalse
    refine regStep_leave hr hy (fun x hx => ?_) rfl rfl ?_ (fun h => ?_) (fun h => ?_)
    · exact (frame_emit r d hx).trans (frame_modify _ _ hx)
    · exact taskId_reject _ y y e
    · rw [hfalse] at h; cases h
    · rw [hrej] at h; cases h

theorem regStep_cancelActive (hr : RegInv r) (hx : r.Registered x) :
    RegStep r (r.cancelActive x) := by
  have h₁ : RegStep r (r.write x (r.taskId x) (.send (.chatAbort ("abort:" ++ r.taskId x)
      (r.tasks x).sessionKey (if (r.tasks x).runId = "" then none else some (r.tasks x).runId)))) :=
    regStep_write hr _ (fun _ h => Effect.noConfusion h) x
  exact h₁.trans (regStep_cancelled h₁.inv hx rfl _)

/-- One iteration of `failAll`. -/
def failOne (e : GatewayError) (r : Registry) (x : Nat) : Registry :=
  (r.fail x e).modify x fun a => { a with timeout := false }

theorem frame_failOne (e : GatewayError) (h : x ≠ y) : Frame r (failOne e r y) x := by
  unfold failOne fail
  split
  · exact (frame_emit r _ h).trans (frame_modify _ _ h)
  · exact (frame_modify r _ h).trans (frame_modify _ _ h)

theorem accepted_failOne (e : GatewayError) (r : Registry) (x : Nat) :
    (failOne e r x).accepted x = r.accepted x := by
  unfold failOne fail
  split <;> simp [accepted, emitFailure, reject]

theorem sealed_failOne {e : GatewayError} (hset : (r.tasks x).settled = true)
    (hopen : Open (r.received x)) : Sealed ((failOne e r x).received x) := by
  have hevents : (failOne e r x).received x = r.received x ++ [.failed e.code e.message] := by
    simp [failOne, fail, hset, emitFailure]
  rw [hevents]
  exact hopen.seal rfl

/-- What the loop of `failAll` does to the calls it visits and to the others. -/
theorem failAll_loop (e : GatewayError) {xs : List Nat} (hnodup : xs.Nodup)
    (hset : ∀ x ∈ xs, (r.tasks x).settled = r.accepted x ∧ Open (r.received x)) :
    (∀ x, x ∉ xs → Frame r (xs.foldl (failOne e) r) x) ∧
      ∀ x, x ∈ xs → (xs.foldl (failOne e) r).accepted x = r.accepted x ∧
        (r.accepted x = true → Sealed ((xs.foldl (failOne e) r).received x)) := by
  induction xs generalizing r with
  | nil => exact ⟨fun x _ => Frame.refl r x, fun x hx => absurd hx (List.not_mem_nil)⟩
  | cons y ys ih =>
    obtain ⟨hy, hys⟩ := List.nodup_cons.mp hnodup
    have hf : ∀ x, x ≠ y → Frame r (failOne e r y) x := fun x h => frame_failOne e h
    have hset' : ∀ x ∈ ys, ((failOne e r y).tasks x).settled = (failOne e r y).accepted x ∧
        Open ((failOne e r y).received x) := by
      intro x hx
      have hxy : x ≠ y := fun h => hy (h ▸ hx)
      rw [(hf x hxy).tasks, (hf x hxy).accepted, (hf x hxy).received]
      exact hset x (List.mem_cons_of_mem _ hx)
    obtain ⟨hout, hin⟩ := ih hys hset'
    refine ⟨fun x hx => ?_, fun x hx => ?_⟩
    · have hne := List.ne_of_not_mem_cons hx
      exact (hf x hne).trans (hout x (List.not_mem_of_not_mem_cons hx))
    · rcases List.mem_cons.mp hx with rfl | hx
      · have hlast := hout x hy
        refine ⟨hlast.accepted.trans (accepted_failOne e r x), fun hacc => ?_⟩
        have hx₀ := hset x (List.mem_cons_self)
        rw [List.foldl_cons, hlast.received]
        exact sealed_failOne (hx₀.1.trans hacc) hx₀.2
      · have hxy : x ≠ y := fun h => hy (h ▸ hx)
        have hi := hin x hx
        rw [(hf x hxy).accepted] at hi
        exact hi

theorem regStep_failAll (hr : RegInv r) (e : GatewayError) : RegStep r (r.failAll e) := by
  have hnodup : r.activeByTask.values.Nodup := OrderedMap.nodup_values _ hr.keyed
  obtain ⟨hout, hin⟩ := failAll_loop e hnodup fun x hx =>
    ⟨(hr.good x).settled (hr.registered_of_mem hx), (hr.good x).quiet (hr.registered_of_mem hx)⟩
  have hnone : ∀ x, ¬ (r.failAll e).Registered x := fun x h => by
    simp [Registered, failAll] at h
  have hmem : ∀ x, ¬ r.Registered x → x ∉ r.activeByTask.values := fun x h hx =>
    h (hr.registered_of_mem hx)
  refine ⟨⟨fun t x h => ?_, fun rid x h => ?_, fun x => ?_⟩, fun x es hx => ?_⟩
  · simp [failAll] at h
  · simp [failAll] at h
  · refine ⟨fun h => absurd h (hnone x), fun h => absurd h (hnone x), fun h => absurd h (hnone x),
      fun hacc _ => ?_⟩
    by_cases hx : x ∈ r.activeByTask.values
    · exact (hin x hx).2 ((hin x hx).1 ▸ hacc)
    · have hf := hout x hx
      have hsealed : Sealed (r.received x) := by
        refine (hr.good x).closed (hf.accepted ▸ hacc) fun hreg => hx ?_
        exact (OrderedMap.mem_values_iff _ _).mpr ⟨_, hreg⟩
      exact hf.received ▸ hsealed
  · have hf := hout x (hmem x hx.unregistered)
    exact ⟨hnone x, hf.accepted.trans hx.unaccepted, hf.received.trans hx.received⟩

/-- A fresh call enters the map; the call it displaces must not have been accepted. -/
theorem regStep_insert (opts : Options) (hr : RegInv r) (hx : Outside r x [])
    (input : ExecuteGatewayTaskInput) (prepared : PreparedGatewayInput)
    (hold : ∀ y, r.activeByTask.get input.taskId = some y → r.accepted y = false) :
    RegInv (r.insert opts x input prepared) ∧
      ∀ y es, y ≠ x → Outside r y es → Outside (r.insert opts x input prepared) y es := by
  have htask : ∀ y, y ≠ x → (r.insert opts x input prepared).tasks y = r.tasks y := fun y h => by
    simp [Registry.insert, h]
  have hacc : ∀ y, y ≠ x → (r.insert opts x input prepared).accepted y = r.accepted y := fun y h => by
    simp only [accepted, htask y h]
  have hid : ∀ y, y ≠ x → (r.insert opts x input prepared).taskId y = r.taskId y := fun y h => by
    simp only [taskId, htask y h]
  have hidx : (r.insert opts x input prepared).taskId x = input.taskId := by simp [Registry.insert, taskId]
  have hrec : ∀ y, (r.insert opts x input prepared).received y = r.received y := fun y =>
    received_write_silent _ x y input.taskId (fun _ h => Effect.noConfusion h)
  have hget : ∀ t, (r.insert opts x input prepared).activeByTask.get t =
      if t = input.taskId then some x else r.activeByTask.get t := fun t => by
    simp [Registry.insert, OrderedMap.get_set]
  have hleft : ∀ y, y ≠ x → ((r.insert opts x input prepared).Registered y ↔
      r.Registered y ∧ r.taskId y ≠ input.taskId) := by
    intro y h
    simp only [Registered, hid y h, hget]
    split
    · simp [Ne.symm h, *]
    · simp [*]
  refine ⟨⟨fun t y hy => ?_, fun rid y hy => ?_, fun y => ?_⟩, fun y es h hy => ?_⟩
  · rw [hget] at hy
    split at hy
    · cases hy
      rw [hidx, ← ‹t = input.taskId›]
    · by_cases h : y = x
      · subst h
        exact absurd (hr.registered hy) hx.unregistered
      · rw [hid y h]
        exact hr.keyed t y hy
  · have h : r.accepted y = true := hr.runs rid y hy
    have hne : y ≠ x := fun he => by
      rw [he, hx.unaccepted] at h
      cases h
    rw [hacc y hne]
    exact h
  · by_cases h : y = x
    · subst h
      have hpending : ((r.insert opts y input prepared).tasks y).promise = .pending := by
        simp [Registry.insert]
      have hfalse : (r.insert opts y input prepared).accepted y = false := by
        simp [accepted, hpending, Promise.isFulfilled]
      refine ⟨fun _ => ?_, fun _ e => ?_, fun _ => ?_, fun h => ?_⟩
      · rw [hfalse]
        simp [Registry.insert]
      · simp [hpending]
      · rw [hrec, hx.received]
        intro e he
        cases he
      · rw [hfalse] at h; cases h
    · have hg := hr.good y
      refine ⟨fun hreg => ?_, fun hreg => ?_, fun hreg => ?_, fun ha hreg => ?_⟩
      · rw [htask y h, hacc y h]
        exact hg.settled ((hleft y h).mp hreg).1
      · rw [htask y h]
        exact hg.unrejected ((hleft y h).mp hreg).1
      · rw [hrec]
        exact hg.quiet ((hleft y h).mp hreg).1
      · rw [hacc y h] at ha
        rw [hrec]
        refine hg.closed ha fun hold' => hreg ((hleft y h).mpr ⟨hold', fun heq => ?_⟩)
        have hfalse := hold y (heq ▸ hold')
        rw [ha] at hfalse; cases hfalse
  · refine ⟨fun hreg => hy.unregistered ((hleft y h).mp hreg).1, ?_, ?_⟩
    · rw [hacc y h]
      exact hy.unaccepted
    · rw [hrec]
      exact hy.received

theorem Sealed.not_open {es : List TaskEventDetail} (h : Sealed es) : ¬ Open es := by
  obtain ⟨before, last, rfl, hlast, -⟩ := h
  intro hopen
  have hfalse := hopen last (List.mem_append_right before (List.mem_singleton_self last))
  rw [hlast] at hfalse
  cases hfalse

/-- Whatever follows a terminal event breaks the discipline. -/
theorem Sealed.append_eq_nil {es fs : List TaskEventDetail} (h : Sealed es)
    (h' : Sealed (es ++ fs)) : fs = [] := by
  obtain ⟨before, last, rfl, hlast, -⟩ := h
  obtain ⟨before', last', heq, -, hopen⟩ := h'
  rcases List.eq_nil_or_concat fs with hnil | ⟨gs, g, rfl⟩
  · exact hnil
  · have hb : before ++ [last] ++ gs = before' := by
      rw [List.concat_eq_append, ← List.append_assoc] at heq
      exact (List.append_inj' heq rfl).1
    have hfalse := hopen last (by rw [← hb]; simp)
    rw [hlast] at hfalse
    cases hfalse

theorem Disciplined.sealed (h : Disciplined r) (hacc : r.accepted x = true)
    (hreg : ¬ r.Registered x) : Sealed (r.received x) := by
  rcases h x hacc with ⟨h', -⟩ | ⟨-, h'⟩
  · exact absurd h' hreg
  · exact h'

/-- A task that leaves the map without an event was not accepted. -/
theorem unaccepted_of_silent_leave (hr : RegInv r) (hy : r.Registered y) (hd : Disciplined r')
    (hacc : r'.accepted y = r.accepted y) (hrec : r'.received y = r.received y)
    (hleft : ¬ r'.Registered y) : r.accepted y = false := by
  cases h : r.accepted y with
  | false => rfl
  | true =>
    have hsealed := hd.sealed (hacc.trans h) hleft
    rw [hrec] at hsealed
    exact absurd ((hr.good y).quiet hy) hsealed.not_open

/-- An object that is not active takes part in a disciplined step only silently. -/
theorem registered_or_silent (hr : RegInv r) (hd : Disciplined r') {rid : Option String}
    (hy : r.byRun rid = some y) {es : List TaskEventDetail}
    (hrec : r'.received y = r.received y ++ es) (hacc : r'.accepted y = r.accepted y)
    (hleft : ¬ r.Registered y → ¬ r'.Registered y) : r.Registered y ∨ es = [] := by
  by_cases hreg : r.Registered y
  · exact .inl hreg
  · refine .inr ?_
    obtain ⟨id, -, hid⟩ := Option.bind_eq_some_iff.mp hy
    have h := hr.runs id y hid
    have hsealed := (hr.good y).closed h hreg
    have hsealed' := hd.sealed (hacc.trans h) (hleft hreg)
    exact hsealed.append_eq_nil (hrec ▸ hsealed')

theorem unaccepted_of_onError (hr : RegInv r) {id : String} {code message : Option String}
    (hd : Disciplined (r.onError id code message)) (hy : r.activeByTask.get id = some y) :
    r.accepted y = false := by
  simp only [onError, hy] at hd
  exact unaccepted_of_silent_leave hr (hr.registered hy) hd (by simp [accepted, reject])
    (by simp [reject]) (not_registered_removeTask _ y)

theorem silent_of_onAgent (hr : RegInv r) {payload : EventPayload}
    (hd : Disciplined (r.onAgent opts y payload)) (hy : r.byRun payload.runId = some y) :
    r.Registered y ∨ AgentSilent opts r y payload := by
  rw [← agentDetails_eq_nil_iff]
  refine registered_or_silent hr hd hy (received_onAgent opts r y payload) ?_ fun h => ?_
  · simp [accepted, onAgent_promise]
  · rwa [registered_onAgent]

theorem silent_of_onChat (hr : RegInv r) {payload : EventPayload}
    (hd : Disciplined (r.onChat opts y payload)) (hy : r.byRun payload.runId = some y) :
    r.Registered y ∨ ChatSilent opts payload := by
  rw [← chatDetails_eq_nil_iff]
  refine registered_or_silent hr hd hy (received_onChat opts r y payload) ?_ fun h => ?_
  · simp [accepted, onChat_promise]
  · exact not_registered_onChat h

/-- A displaced task was not accepted. -/
theorem unaccepted_of_insert (hr : RegInv r) (hx : ¬ r.Registered x)
    {input : ExecuteGatewayTaskInput} {prepared : PreparedGatewayInput}
    (hd : Disciplined (r.insert opts x input prepared))
    (hy : r.activeByTask.get input.taskId = some y) : r.accepted y = false := by
  have hreg := hr.registered hy
  have hne : y ≠ x := fun h => hx (h ▸ hreg)
  have htask : (r.insert opts x input prepared).tasks y = r.tasks y := by
    simp [Registry.insert, hne]
  refine unaccepted_of_silent_leave hr hreg hd (by simp only [accepted, htask]) ?_ ?_
  · exact received_write_silent _ x y input.taskId (fun _ h => Effect.noConfusion h)
  · have hid : r.taskId y = input.taskId := hr.keyed _ _ hy
    have hid' : (r.insert opts x input prepared).taskId y = input.taskId := by
      rw [← hid]
      simp only [taskId, htask]
    have hget : (r.insert opts x input prepared).activeByTask.get input.taskId = some x := by
      simp [Registry.insert]
    rw [Registered, hid', hget]
    exact fun h => hne (Option.some.inj h).symm

end TerminalDiscipline
