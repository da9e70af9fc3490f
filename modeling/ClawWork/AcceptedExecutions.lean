import ClawWork.TerminalDiscipline

/-!
# The discipline over whole runs of the client

`CallInv` says where a call stands with respect to the registry in each phase of
`execute`. Every label of the client is an operation of the registry, or moves
one call to its next phase, or is a callback of a call's one-shot client, whose
call the registry has dropped for good.
-/

namespace AcceptedExecutions

open JavaScript SharedTypes GatewayProtocol GatewayClient PersistentGatewayClient
open PersistentGatewayClient.Registry TerminalDiscipline Transition

variable {opts : Options} {c c' : Client} {r r' : Registry} {x y : Nat}

/-- Neither active nor accepted, whatever its handler has received. -/
def Dropped (r : Registry) (x : Nat) : Prop := ∃ es, Outside r x es

def CallInv (r : Registry) (x : Nat) : Option Call → Prop
  | none => Outside r x []
  | some call =>
    match call.phase with
    | .preparing | .connecting _ => Outside r x [] ∧ call.oneShot = none
    | .awaiting => call.oneShot = none
    | .fallbackPreparing | .fallbackAwaiting => Dropped r x
    | .returned | .threw _ => call.oneShot = none ∨ Dropped r x

structure Inv (c : Client) : Prop where
  reg : RegInv c.registry
  calls : ∀ x, CallInv c.registry x (c.calls x)
  numbered : ∀ x, c.nextCall ≤ x → c.calls x = none

theorem CallInv.mono {call : Option Call}
    (houtside : ∀ es, Outside r x es → Outside r' x es) (h : CallInv r x call) :
    CallInv r' x call := by
  cases call with
  | none => exact houtside _ h
  | some call =>
    obtain ⟨input, prepared, phase, oneShot, promise⟩ := call
    cases phase with
    | preparing => exact ⟨houtside _ h.1, h.2⟩
    | connecting p => exact ⟨houtside _ h.1, h.2⟩
    | awaiting => exact h
    | fallbackPreparing => exact h.imp houtside
    | fallbackAwaiting => exact h.imp houtside
    | returned => exact h.imp id (Exists.imp houtside)
    | threw error => exact h.imp id (Exists.imp houtside)

/-- A step of the registry alone. -/
theorem Inv.of_regStep (h : Inv c) (hstep : RegStep c.registry c'.registry)
    (hcalls : c'.calls = c.calls) (hnext : c'.nextCall = c.nextCall) : Inv c' where
  reg := hstep.inv
  calls := by
    intro x
    rw [hcalls]
    exact (h.calls x).mono (hstep.outside x)
  numbered := by
    intro x hx
    rw [hcalls]
    exact h.numbered x (hnext ▸ hx)

/-- One call gets a new state that fits the registry. -/
theorem Inv.setCall (h : Inv c) {call : Call} (hx : x < c.nextCall)
    (hcall : CallInv c.registry x (some call)) : Inv (c.setCall x call) where
  reg := h.reg
  calls := by
    intro y
    by_cases hy : y = x
    · subst hy
      simpa [Client.setCall] using hcall
    · simpa [Client.setCall, hy] using h.calls y
  numbered := by
    intro y hy
    have hne : y ≠ x := fun he => Nat.not_lt.mpr hy (he ▸ hx)
    simpa [Client.setCall, hne] using h.numbered y hy

theorem Inv.lt_nextCall (h : Inv c) {call : Call} (hx : c.calls x = some call) :
    x < c.nextCall := by
  apply Nat.lt_of_not_le
  intro hle
  rw [h.numbered x hle] at hx
  cases hx

/-- The fields of a client that the invariant reads. -/
theorem Inv.congr (h : Inv c) (hreg : c'.registry = c.registry) (hcalls : c'.calls = c.calls)
    (hnext : c'.nextCall = c.nextCall) : Inv c' := by
  refine h.of_regStep ?_ hcalls hnext
  rw [hreg]
  exact RegStep.refl h.reg

theorem not_registered_init (x : Nat) : ¬ Client.init.registry.Registered x := by
  intro h
  cases h

theorem inv_init : Inv Client.init where
  reg :=
    { keyed := fun t x h => by cases h
      runs := fun rid x h => by cases h
      good := fun x =>
        { settled := fun h => absurd h (not_registered_init x)
          unrejected := fun h => absurd h (not_registered_init x)
          quiet := fun h => absurd h (not_registered_init x)
          closed := fun h => absurd h Bool.false_ne_true } }
  calls := fun x => ⟨not_registered_init x, rfl, rfl⟩
  numbered := fun _ _ => rfl

theorem inv_execute (h : Inv c) (input : ExecuteGatewayTaskInput) : Inv (c.execute input) where
  reg := h.reg
  calls := by
    intro y
    by_cases hy : y = c.nextCall
    · subst hy
      have hnone := h.calls c.nextCall
      rw [h.numbered _ (Nat.le_refl _)] at hnone
      simpa [Client.execute, Client.setCall, CallInv] using hnone
    · simpa [Client.execute, Client.setCall, hy] using h.calls y
  numbered := by
    intro y hy
    have hlt : c.nextCall < y := hy
    have hne : y ≠ c.nextCall := by omega
    simpa [Client.execute, Client.setCall, hne] using h.numbered y (by omega)

/-- The catch clause takes over a call that the registry has dropped. -/
theorem inv_catchError (h : Inv c) {call : Call} (hx : c.calls x = some call)
    (hdrop : Dropped c.registry x) (e : GatewayError) : Inv (c.catchError x call e) := by
  refine h.setCall (h.lt_nextCall hx) ?_
  split
  · exact Or.inr hdrop
  · exact hdrop

theorem inv_failFallback (h : Inv c) {call : Call} (hx : c.calls x = some call)
    (hdrop : Dropped c.registry x) (e : GatewayError) : Inv (c.failFallback x call e) := by
  have hset : Inv (c.setPhase x call (.threw e)) := h.setCall (h.lt_nextCall hx) (Or.inr hdrop)
  exact hset.congr rfl rfl rfl

theorem dropped_write (hx : Dropped r x) (t : String) (e : Effect) :
    Dropped (r.write x t e) x := by
  obtain ⟨es, hes⟩ := hx
  exact ⟨_, hes.unregistered, hes.unaccepted, rfl⟩

/-- A record written for a dropped call concerns no other call. -/
theorem regInv_write (hr : RegInv r) (hx : Dropped r x) (t : String) (e : Effect) :
    RegInv (r.write x t e) ∧
      ∀ y es, y ≠ x → Outside r y es → Outside (r.write x t e) y es := by
  obtain ⟨es, hes⟩ := hx
  have hrec : ∀ y, y ≠ x → (r.write x t e).received y = r.received y := by
    intro y hy
    cases e with
    | event event => simp [received_write_event, hy.symm]
    | _ => exact received_write_silent r x y t (fun _ h => Effect.noConfusion h)
  refine ⟨⟨hr.keyed, hr.runs, fun y => ?_⟩, fun y fs hy hf => ?_⟩
  · by_cases hy : y = x
    · subst hy
      refine ⟨fun h => absurd h hes.unregistered, fun h => absurd h hes.unregistered,
        fun h => absurd h hes.unregistered, fun h => ?_⟩
      exact absurd (hes.unaccepted.symm.trans h) Bool.false_ne_true
    · exact (hr.good y).of_frame ⟨rfl, hrec y hy, Iff.rfl⟩
  · exact hf.of_frame ⟨rfl, hrec y hy, Iff.rfl⟩

/-- A call whose one-shot client exists is dropped, and may be so in any registry. -/
theorem CallInv.late {call : Call} {oneShot : OneShot} (h : CallInv r x (some call))
    (hone : call.oneShot = some oneShot) :
    Dropped r x ∧ ∀ r' oneShot' promise, Dropped r' x →
      CallInv r' x (some { call with oneShot := oneShot', oneShotPromise := promise }) := by
  obtain ⟨input, prepared, phase, one, promise⟩ := call
  obtain rfl : one = some oneShot := hone
  cases phase with
  | preparing => exact absurd h.2 (Option.some_ne_none _)
  | connecting p => exact absurd h.2 (Option.some_ne_none _)
  | awaiting => exact absurd h (Option.some_ne_none _)
  | fallbackPreparing => exact ⟨h, fun _ _ _ h' => h'⟩
  | fallbackAwaiting => exact ⟨h, fun _ _ _ h' => h'⟩
  | returned => exact ⟨h.resolve_left (Option.some_ne_none _), fun _ _ _ h' => .inr h'⟩
  | threw e => exact ⟨h.resolve_left (Option.some_ne_none _), fun _ _ _ h' => .inr h'⟩

/-- A call that is past the persistent path, in whatever state its one-shot client is. -/
def Past (c : Client) (x : Nat) : Prop :=
  Dropped c.registry x ∧ ∃ call, c.calls x = some call ∧
    ∀ r' oneShot promise, Dropped r' x →
      CallInv r' x (some { call with oneShot, oneShotPromise := promise })

theorem inv_write (h : Inv c) (hx : Past c x) (t : String) (e : Effect) :
    Inv { c with registry := c.registry.write x t e } ∧
      Past { c with registry := c.registry.write x t e } x := by
  obtain ⟨hdrop, call, hcall, hlate⟩ := hx
  obtain ⟨hreg, hout⟩ := regInv_write h.reg hdrop t e
  have hdrop' := dropped_write hdrop t e
  refine ⟨⟨hreg, fun y => ?_, h.numbered⟩, hdrop', call, hcall, hlate⟩
  by_cases hy : y = x
  · subst hy
    show CallInv _ y (c.calls y)
    rw [hcall]
    exact hlate _ _ _ hdrop'
  · exact (h.calls y).mono fun es => hout y es hy

theorem inv_settleOneShot (h : Inv c) (hx : Past c x)
    (settle : Promise GatewayError Accepted → Promise GatewayError Accepted) :
    Inv (c.settleOneShot x settle) ∧ Past (c.settleOneShot x settle) x := by
  obtain ⟨hdrop, call, hcall, hlate⟩ := hx
  have hset := h.setCall (h.lt_nextCall hcall)
    (hlate c.registry call.oneShot (settle call.oneShotPromise) hdrop)
  have heq : c.settleOneShot x settle =
      c.setCall x { call with oneShotPromise := settle call.oneShotPromise } := by
    simp only [Client.settleOneShot, hcall]
  rw [heq]
  exact ⟨hset, hdrop, { call with oneShotPromise := settle call.oneShotPromise },
    Function.update_self .., hlate⟩

theorem inv_onEffect (h : Inv c) (hx : Past c x) (t : String) (e : Effect) :
    Inv (Client.onEffect x t c e) ∧ Past (Client.onEffect x t c e) x := by
  cases e with
  | event event =>
    obtain ⟨hinv, hdrop, call, hcall, hlate⟩ := inv_write h hx t (.event event)
    exact ⟨hinv.congr rfl rfl rfl, hdrop, call, hcall, hlate⟩
  | send request => exact inv_write h hx t _
  | httpRequest => exact inv_write h hx t _
  | resolve accepted => exact inv_settleOneShot h hx fun p => p.resolve accepted
  | reject error => exact inv_settleOneShot h hx fun p => p.reject error

theorem inv_effects (h : Inv c) (hx : Past c x) (t : String) (es : List Effect) :
    Inv (es.foldl (Client.onEffect x t) c) := by
  induction es generalizing c with
  | nil => exact h
  | cons e es ih =>
    obtain ⟨h', hx'⟩ := inv_onEffect h hx t e
    exact ih h' hx'

theorem inv_stepOneShot (h : Inv c) {stimulus : Stimulus}
    (hstep : c.stepOneShot opts x stimulus = some c') : Inv c' := by
  simp only [Client.stepOneShot, Option.bind_eq_bind, Option.bind_eq_some_iff, Option.some.injEq,
    Prod.exists] at hstep
  obtain ⟨call, hcall, oneShot, hone, oneShot', effects, -, rfl⟩ := hstep
  have hc := h.calls x
  rw [hcall] at hc
  obtain ⟨hdrop, hlate⟩ := hc.late hone
  have hset := h.setCall (h.lt_nextCall hcall)
    (hlate c.registry (some oneShot') call.oneShotPromise hdrop)
  exact inv_effects hset ⟨hdrop, { call with oneShot := some oneShot' },
    Function.update_self .., hlate⟩ _ _

theorem inv_stepOneShot_getD (h : Inv c) (x : Nat) (stimulus : Stimulus) :
    Inv ((c.stepOneShot opts x stimulus).getD c) := by
  cases hstep : c.stepOneShot opts x stimulus with
  | none => exact h
  | some c' => exact inv_stepOneShot h hstep

/-- Call `call` is about to be inserted under its task id. -/
def enters (c : Client) (call : Call) : Bool :=
  c.connection.isOpen &&
    match call.phase with
    | .connecting none => true
    | .connecting (some p) => (c.connection.promises p).isFulfilled
    | _ => false

/-- The frames that keep the discipline: an error response finds no accepted task, and a run
id leads to an active task unless the frame has no effect. -/
def OrderlyFrame (opts : Options) (r : Registry) : GatewayFrame → Prop
  | .error id _ _ => id = Client.connectRequestId ∨ ∀ y ∈ r.activeByTask.get id, r.accepted y = false
  | .agent payload => ∀ y ∈ r.byRun payload.runId, r.Registered y ∨ AgentSilent opts r y payload
  | .chat payload => ∀ y ∈ r.byRun payload.runId, r.Registered y ∨ ChatSilent opts payload
  | _ => True

/-- The steps that keep the discipline: moreover no accepted task is displaced. -/
def Orderly (opts : Options) (c : Client) : Label → Prop
  | .message _ frame => OrderlyFrame opts c.registry frame
  | .resume x => ∀ call ∈ c.calls x, enters c call = true →
      ∀ y ∈ c.registry.activeByTask.get call.input.taskId, c.registry.accepted y = false
  | _ => True

theorem registered_of_findActive (hr : RegInv r) {runId sessionKey : Option String}
    (h : r.findActive runId sessionKey = some y) : r.byRun runId = some y ∨ r.Registered y := by
  rcases Option.or_eq_some_iff.mp h with h | ⟨-, h⟩
  · exact .inl h
  · exact .inr (hr.registered_of_mem (mem_values_of_fallbackActive h))

theorem inv_handleMessage (h : Inv c) {frame : GatewayFrame}
    (hok : OrderlyFrame opts c.registry frame) : Inv (c.handleMessage opts frame) := by
  cases frame with
  | challenge => exact h.congr rfl rfl rfl
  | ok id runId key =>
    simp only [Client.handleMessage]
    split
    · exact h.congr rfl rfl rfl
    · exact h.of_regStep (regStep_onOk h.reg id runId) rfl rfl
  | error id code message =>
    simp only [Client.handleMessage]
    split
    · exact h.congr rfl rfl rfl
    · rename_i hid
      exact h.of_regStep (regStep_onError h.reg code message (hok.resolve_left hid)) rfl rfl
  | agent payload =>
    simp only [Client.handleMessage]
    split
    · rename_i y hy
      refine h.of_regStep (regStep_onAgent h.reg ?_) rfl rfl
      rcases registered_of_findActive h.reg hy with hrun | hreg
      · exact hok y hrun
      · exact .inl hreg
    · exact h
  | chat payload =>
    simp only [Client.handleMessage]
    split
    · rename_i y hy
      refine h.of_regStep (regStep_onChat h.reg ?_) rfl rfl
      rcases registered_of_findActive h.reg hy with hrun | hreg
      · exact hok y hrun
      · exact .inl hreg
    · exact h
  | other => exact h

theorem inv_handleDisconnect (h : Inv c) (e : GatewayError) : Inv (c.handleDisconnect e) := by
  unfold Client.handleDisconnect
  dsimp only
  split
  · exact h.of_regStep (regStep_failAll h.reg e) rfl rfl
  · exact h.congr rfl rfl rfl

theorem inv_insertActive (h : Inv c) {call : Call} (hx : c.calls x = some call)
    (hphase : ∃ p, call.phase = .connecting p)
    (hold : c.connection.isOpen = true →
      ∀ y ∈ c.registry.activeByTask.get call.input.taskId, c.registry.accepted y = false) :
    Inv (c.insertActive opts x call) := by
  have hc := h.calls x
  rw [hx] at hc
  obtain ⟨p, hp⟩ := hphase
  simp only [CallInv, hp] at hc
  unfold Client.insertActive
  split
  · rename_i hopen
    obtain ⟨hreg, hout⟩ := regStep_insert opts h.reg hc.1 call.input call.prepared
      (hold hopen)
    refine ⟨hreg, fun y => ?_, fun y hy => ?_⟩
    · by_cases hy : y = x
      · subst hy
        simpa [Client.setPhase, Client.setCall, CallInv] using hc.2
      · have hmono := (h.calls y).mono fun es => hout y es hy
        simpa [Client.setPhase, Client.setCall, hy] using hmono
    · have hlt := h.lt_nextCall hx
      have hy' : c.nextCall ≤ y := hy
      have hne : y ≠ x := by omega
      simpa [Client.setPhase, Client.setCall, hne] using h.numbered y hy'
  · exact inv_catchError h hx ⟨_, hc.1⟩ _

theorem dropped_of_rejected (hr : RegInv r) {e : GatewayError}
    (hrej : (r.tasks x).promise = .rejected e) : Dropped r x :=
  ⟨_, fun hreg => (hr.good x).unrejected hreg e hrej, by simp [accepted, hrej, Promise.isFulfilled],
    rfl⟩

theorem inv_resume (h : Inv c) {call : Call} (hx : c.calls x = some call)
    (hok : Orderly opts c (.resume x)) (hstep : c.resume opts x call = some c') : Inv c' := by
  have hc := h.calls x
  rw [hx] at hc
  have henter := hok call hx
  cases Client.resumes_of_resume hstep with
  | connected promise hphase hfulfilled =>
    refine inv_insertActive h hx ⟨_, hphase⟩ fun hopen => henter ?_
    cases promise with
    | none => simp [enters, hopen, hphase]
    | some p => simp [enters, hopen, hphase, hfulfilled p rfl, Promise.isFulfilled]
  | unconnected p error hphase hrejected =>
    simp only [CallInv, hphase] at hc
    exact inv_catchError h hx ⟨_, hc.1⟩ _
  | returns accepted hphase hfulfilled =>
    simp only [CallInv, hphase] at hc
    exact h.setCall (h.lt_nextCall hx) (Or.inl hc)
  | fails error hphase hrejected => exact inv_catchError h hx (dropped_of_rejected h.reg hrejected) _
  | oneShotReturns accepted hphase hfulfilled =>
    simp only [CallInv, hphase] at hc
    exact h.setCall (h.lt_nextCall hx) (Or.inr hc)
  | oneShotFails error hphase hrejected =>
    simp only [CallInv, hphase] at hc
    exact inv_failFallback h hx hc _

theorem inv_onPrepared (h : Inv c) {call : Call} (hx : c.calls x = some call)
    {result : Except GatewayError PreparedGatewayInput}
    (hstep : c.onPrepared opts x call result = some c') : Inv c' := by
  have hc := h.calls x
  rw [hx] at hc
  cases Client.proceeds_of_onPrepared hstep with
  | connects prepared hphase =>
    simp only [CallInv, hphase] at hc
    have hconn : Inv { c with connection := c.connection.ensureConnected.1 } := h.congr rfl rfl rfl
    exact hconn.setCall (h.lt_nextCall hx) hc
  | unprepared error hphase =>
    simp only [CallInv, hphase] at hc
    exact inv_catchError h hx ⟨_, hc.1⟩ _
  | startsOneShot prepared hphase =>
    simp only [CallInv, hphase] at hc
    have hset : Inv (c.setPhase x { call with
        prepared, oneShot := some (OneShot.start opts call.input prepared) } .fallbackAwaiting) :=
      h.setCall (h.lt_nextCall hx) hc
    exact hset.congr rfl rfl rfl
  | oneShotUnprepared error hphase =>
    simp only [CallInv, hphase] at hc
    exact inv_failFallback h hx hc _

theorem inv_cancel (h : Inv c) (t : String) : Inv (c.cancel opts t).2 := by
  unfold Client.cancel
  split
  · split
    · exact h
    · exact (inv_stepOneShot_getD h _ .cancel).congr rfl rfl rfl
  · rename_i x hx
    split
    · exact h.of_regStep (regStep_cancelActive h.reg (h.reg.registered hx)) rfl rfl
    · exact h

theorem inv_shutdown (h : Inv c) (fallbacks : List Fallback) :
    Inv (fallbacks.foldl (fun c f => (c.stepOneShot opts f.call .shutdown).getD c) c) := by
  induction fallbacks generalizing c with
  | nil => exact h
  | cons f fs ih => exact ih (inv_stepOneShot_getD h f.call .shutdown)

theorem inv_close (h : Inv c) : Inv (c.close opts) := by
  unfold Client.close
  dsimp only
  have hfail : Inv { c with
      connection := { { c.connection with closed := true, connected := false }.clearConnectTimer with
        heartbeat := false, reconnectTimer := false }
      registry := c.registry.failAll ⟨"GATEWAY_SHUTDOWN", "gateway client is shutting down"⟩ } :=
    h.of_regStep (regStep_failAll h.reg _) rfl rfl
  exact (inv_shutdown hfail _).congr rfl rfl rfl

theorem inv_tick (h : Inv c) (now : String) :
    Inv { c with registry := { c.registry with clock := now } } := by
  have hf : ∀ y, Frame c.registry { c.registry with clock := now } y := fun y =>
    ⟨rfl, rfl, Iff.rfl⟩
  have hreg : RegStep c.registry { c.registry with clock := now } :=
    ⟨⟨h.reg.keyed, h.reg.runs, fun y => (h.reg.good y).of_frame (hf y)⟩,
      fun y _ hy => hy.of_frame (hf y)⟩
  exact h.of_regStep hreg rfl rfl

theorem inv_step (h : Inv c) {l : Label} (hok : Orderly opts c l)
    (hstep : c.step opts l = some c') : Inv c' := by
  cases l with
  | tick now => cases hstep; exact inv_tick h now
  | execute input => cases hstep; exact inv_execute h input
  | prepared x result =>
    obtain ⟨call, hx, hstep⟩ := Option.bind_eq_some_iff.mp hstep
    exact inv_onPrepared h hx hstep
  | resume x =>
    obtain ⟨call, hx, hstep⟩ := Option.bind_eq_some_iff.mp hstep
    exact inv_resume h hx hok hstep
  | cancel t => cases hstep; exact inv_cancel h t
  | close => cases hstep; exact inv_close h
  | message s frame =>
    simp only [Client.step, Option.ite_none_right_eq_some, Option.some.injEq] at hstep
    exact hstep.2 ▸ inv_handleMessage h hok
  | malformed s =>
    simp only [Client.step, Option.ite_none_right_eq_some, Option.some.injEq] at hstep
    exact hstep.2 ▸ (inv_handleDisconnect h _).congr rfl rfl rfl
  | socketClosed s code reason =>
    simp only [Client.step, Option.ite_none_right_eq_some, Option.some.injEq] at hstep
    have hready : Inv { c with connection := c.connection.setReady s .closed } := h.congr rfl rfl rfl
    exact hstep.2 ▸ inv_handleDisconnect hready _
  | taskTimeout x =>
    simp only [Client.step, Option.ite_none_right_eq_some, Option.some.injEq] at hstep
    exact hstep.2 ▸ h.of_regStep (regStep_onTimeout h.reg x) rfl rfl
  | oneShot x stimulus =>
    cases stimulus <;> first | cases hstep | exact inv_stepOneShot h hstep
  | socketError s message =>
    simp only [Client.step, Option.ite_none_right_eq_some] at hstep
    obtain ⟨-, hstep⟩ := hstep
    split at hstep <;> cases hstep
    · exact h
    · exact h.congr rfl rfl rfl
  | opened s =>
    simp only [Client.step, Option.ite_none_right_eq_some, Option.some.injEq] at hstep
    exact hstep.2 ▸ h.congr rfl rfl rfl
  | pong s =>
    simp only [Client.step, Option.ite_none_right_eq_some, Option.some.injEq] at hstep
    exact hstep.2 ▸ h.congr rfl rfl rfl
  | connectTimeout s =>
    simp only [Client.step, Option.ite_none_right_eq_some, Option.some.injEq] at hstep
    exact hstep.2 ▸ h.congr rfl rfl rfl
  | heartbeat =>
    simp only [Client.step, Option.ite_none_right_eq_some, Option.some.injEq] at hstep
    exact hstep.2 ▸ h.congr rfl rfl rfl
  | reconnect =>
    simp only [Client.step, Option.ite_none_right_eq_some, Option.some.injEq] at hstep
    exact hstep.2 ▸ h.congr rfl rfl rfl

theorem orderly_of_handleMessage (h : Inv c) {frame : GatewayFrame}
    (hd : Disciplined (c.handleMessage opts frame).registry) :
    OrderlyFrame opts c.registry frame := by
  cases frame with
  | error id code message =>
    by_cases hid : id = Client.connectRequestId
    · exact .inl hid
    · refine .inr fun y hy => ?_
      simp only [Client.handleMessage, hid, if_false] at hd
      exact unaccepted_of_onError h.reg hd hy
  | agent payload =>
    intro y hy
    simp only [Client.handleMessage, findActive_of_byRun hy] at hd
    exact silent_of_onAgent h.reg hd hy
  | chat payload =>
    intro y hy
    simp only [Client.handleMessage, findActive_of_byRun hy] at hd
    exact silent_of_onChat h.reg hd hy
  | _ => trivial

theorem resume_of_enters (opts : Options) (x : Nat) {call : Call} (henter : enters c call = true) :
    (∃ p, call.phase = .connecting p) ∧ c.resume opts x call = some { c.setPhase x call .awaiting with
      registry := c.registry.insert opts x call.input call.prepared } := by
  simp only [enters, Bool.and_eq_true] at henter
  obtain ⟨hopen, hphase⟩ := henter
  split at hphase
  · rename_i hp
    exact ⟨⟨_, hp⟩, by simp only [Client.resume, hp, Client.insertActive, hopen, if_true]⟩
  · rename_i p hp
    cases hprom : c.connection.promises p with
    | fulfilled u =>
      exact ⟨⟨_, hp⟩, by simp only [Client.resume, hp, hprom, Client.insertActive, hopen, if_true]⟩
    | pending => simp [hprom, Promise.isFulfilled] at hphase
    | rejected e => simp [hprom, Promise.isFulfilled] at hphase
  · cases hphase

theorem orderly_of_resume (h : Inv c) (hstep : c.step opts (.resume x) = some c')
    (hd : Disciplined c'.registry) : Orderly opts c (.resume x) := by
  intro call hcall henter y hy
  have hcall : c.calls x = some call := hcall
  obtain ⟨⟨p, hp⟩, hresume⟩ := resume_of_enters opts x henter
  simp only [Client.step, hcall, Option.bind_eq_bind, Option.bind_some, hresume,
    Option.some.injEq] at hstep
  have hx := h.calls x
  simp only [hcall, CallInv, hp] at hx
  subst hstep
  exact unaccepted_of_insert h.reg hx.1.unregistered hd hy

theorem orderly_of_step (h : Inv c) {l : Label} (hstep : c.step opts l = some c')
    (hd : Disciplined c'.registry) : Orderly opts c l := by
  cases l with
  | resume x => exact orderly_of_resume h hstep hd
  | message s frame =>
    simp only [Client.step, Option.ite_none_right_eq_some, Option.some.injEq] at hstep
    obtain ⟨-, rfl⟩ := hstep
    exact orderly_of_handleMessage h hd
  | _ => trivial

/-- An accepted execution is active without a terminal event, or has left the map together with
exactly one, after which its handler is silent: this holds in every state of a run exactly when
every step of the run is orderly. -/
theorem disciplined_iff_orderly {ls : List Label}
    (hrun : run (Client.step opts) Client.init ls = some c) :
    Throughout (Client.step opts) (fun c => Disciplined c.registry) Client.init ls ↔
      Along (Client.step opts) (Orderly opts) Client.init ls :=
  throughout_iff_along (fun _ h => h.reg.disciplined) (fun _ _ _ h hok hstep => inv_step h hok hstep)
    (fun _ _ _ h hstep hd => orderly_of_step h hstep hd) inv_init hrun

instance (opts : Options) (r : Registry) (x : Nat) (payload : EventPayload) :
    Decidable (AgentSilent opts r x payload) := inferInstanceAs (Decidable (_ ∧ _ ∧ _))

instance (opts : Options) (payload : EventPayload) : Decidable (ChatSilent opts payload) :=
  inferInstanceAs (Decidable (_ ∧ _))

instance (opts : Options) (r : Registry) : ∀ frame, Decidable (OrderlyFrame opts r frame)
  | .error _ _ _ => inferInstanceAs (Decidable (_ ∨ _))
  | .agent payload => inferInstanceAs (Decidable (∀ y ∈ r.byRun payload.runId, _))
  | .chat payload => inferInstanceAs (Decidable (∀ y ∈ r.byRun payload.runId, _))
  | .challenge | .ok _ _ _ | .other => .isTrue trivial

instance (opts : Options) (c : Client) : ∀ l, Decidable (Orderly opts c l)
  | .message _ frame => inferInstanceAs (Decidable (OrderlyFrame opts c.registry frame))
  | .resume x => inferInstanceAs (Decidable (∀ call ∈ c.calls x, _ → _))
  | .tick _ | .execute _ | .prepared _ _ | .cancel _ | .close | .opened _ | .malformed _ | .pong _
  | .socketError _ _ | .socketClosed _ _ _ | .connectTimeout _ | .heartbeat | .reconnect
  | .taskTimeout _ | .oneShot _ _ => .isTrue trivial

/-- The accepted task then completes. -/
theorem disciplined_completed :
    Throughout (Client.step defaultOptions) (fun c => Disciplined c.registry) Client.init
      (acceptedRun ++ [.message 0 (.chat { runId := some "r", state := some "final" })]) := by
  have hrun : (run (Client.step defaultOptions) Client.init
    (acceptedRun ++ [.message 0 (.chat { runId := some "r", state := some "final" })])).isSome := by
    decide
  obtain ⟨c, hc⟩ := Option.isSome_iff_exists.mp hrun
  exact (disciplined_iff_orderly hc).mpr (by decide)

/-- An error response for a task that was accepted removes it and nobody hears of it. -/
theorem not_disciplined_of_late_error :
    ¬ Throughout (Client.step defaultOptions) (fun c => Disciplined c.registry) Client.init
      (acceptedRun ++ [.message 0 (.error "t" (some "INTERNAL") (some "late failure"))]) := by
  intro h
  have hlast : (run (Client.step defaultOptions) Client.init
      (acceptedRun ++ [.message 0 (.error "t" (some "INTERNAL") (some "late failure"))])).any
        (fun c => c.registry.accepted 0 && !decide (c.registry.Registered 0) &&
          (c.registry.received 0).all fun e => !e.isTerminal) = true := by decide
  obtain ⟨c, hrun, hc⟩ := (Option.any_eq_true _ _).mp hlast
  simp only [Bool.and_eq_true, Bool.not_eq_true', decide_eq_false_iff_not, List.all_eq_true] at hc
  obtain ⟨⟨hacc, hreg⟩, hopen⟩ := hc
  have hd : Disciplined c.registry := h.last hrun
  refine (hd.sealed hacc hreg).not_open fun e he => ?_
  simpa using hopen e he

end AcceptedExecutions
