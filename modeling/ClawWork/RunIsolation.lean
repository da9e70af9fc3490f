import ClawWork.RegistryFrames

/-!
# Isolation between the runs of a gateway

`gatewayRun` gives, for every execution, the run id that the gateway chose for
its `chat.send`; the adapter learns it with the ok response and forgets it when
the task leaves. A frame of a run is isolated when it neither reaches the handler
of an execution of another run nor takes such an execution out of the map.
-/

namespace RunIsolation

open JavaScript SharedTypes GatewayProtocol GatewayClient PersistentGatewayClient
open PersistentGatewayClient.Registry Transition

variable {opts : Options} {r r' : Registry} {x y z : Nat} {payload : EventPayload}

/-- The handler of `x` got nothing, and the entries that refer to `x` are still there. -/
structure Untouched (r r' : Registry) (x : Nat) : Prop where
  received : r'.received x = r.received x
  kept : ∀ t, r.activeByTask.get t = some x → r'.activeByTask.get t = some x

def Isolated (gatewayRun : Nat → String) (runId : String) (r r' : Registry) : Prop :=
  ∀ x, gatewayRun x ≠ runId → Untouched r r' x

/-- The execution registered under the run id or, when there is none, the active execution that
the session key of the frame, or the lack of one, leads to. -/
def Attributed (r : Registry) (runId : String) (sessionKey : Option String) (y : Nat) : Prop :=
  (runId ≠ "" ∧ r.taskByRun.get runId = some y) ∨
    ((runId = "" ∨ r.taskByRun.get runId = none) ∧ r.fallbackActive sessionKey = some y)

theorem findActive_eq_some_iff {runId : String} {sessionKey : Option String} :
    r.findActive (some runId) sessionKey = some y ↔ Attributed r runId sessionKey y := by
  by_cases h : runId = ""
  · simp [findActive, byRun, Attributed, Option.filter, h]
  · cases hget : r.taskByRun.get runId <;>
      simp [findActive, byRun, Attributed, Option.filter, h, hget]

/-- The condition on an agent frame: it belongs to the execution it is attributed to, or it has
no effect there. -/
def AgentRouted (opts : Options) (gatewayRun : Nat → String) (runId : String) (r : Registry)
    (payload : EventPayload) : Prop :=
  ∀ y, Attributed r runId payload.sessionKey y →
    gatewayRun y = runId ∨ AgentSilent opts r y payload

/-- The condition on a chat frame: moreover a frame that closes the run finds no execution of
another run under the task id it removes. -/
def ChatRouted (opts : Options) (gatewayRun : Nat → String) (runId : String) (r : Registry)
    (payload : EventPayload) : Prop :=
  ∀ y, Attributed r runId payload.sessionKey y →
    (gatewayRun y = runId ∧ (endsRun payload = true →
      ∀ z, r.activeByTask.get (r.taskId y) = some z → gatewayRun z = runId)) ∨
    ChatSilent opts payload

theorem untouched_refl (r : Registry) (x : Nat) : Untouched r r x := ⟨rfl, fun _ h => h⟩

theorem onAgent_activeByTask (opts : Options) (r : Registry) (x : Nat) (payload : EventPayload) :
    (r.onAgent opts x payload).activeByTask = r.activeByTask := by
  have hart : (r.emitArtifact x (frameArtifact opts payload)).activeByTask = r.activeByTask := by
    cases frameArtifact opts payload <;> rfl
  simp only [onAgent]
  split
  · split <;> exact hart
  · split <;> exact hart

theorem untouched_onAgent (opts : Options) (r : Registry) (payload : EventPayload) (h : x ≠ y) :
    Untouched r (r.onAgent opts y payload) x where
  received := received_onAgent_other opts r payload h
  kept := by
    intro t ht
    rw [onAgent_activeByTask]
    exact ht

theorem isolated_onAgent_iff (gatewayRun : Nat → String) (runId : String) :
    Isolated gatewayRun runId r (r.onAgent opts y payload) ↔
      gatewayRun y = runId ∨ AgentSilent opts r y payload := by
  constructor
  · intro h
    by_cases hy : gatewayRun y = runId
    · exact .inl hy
    · have hrec := (h y hy).received
      rw [received_onAgent, List.append_right_eq_self] at hrec
      exact .inr (agentDetails_eq_nil_iff.mp hrec)
  · rintro (hy | hsilent) x hx
    · exact untouched_onAgent opts r payload fun h => hx (h ▸ hy)
    · by_cases h : x = y
      · subst h
        refine ⟨?_, fun t ht => ?_⟩
        · rw [received_onAgent, agentDetails_eq_nil_iff.mpr hsilent, List.append_nil]
        · rw [onAgent_activeByTask]
          exact ht
      · exact untouched_onAgent opts r payload h

/-- What a chat frame does to the map: a closing frame deletes one key. -/
theorem onChat_activeByTask (opts : Options) (r : Registry) (y : Nat) (payload : EventPayload) :
    (r.onChat opts y payload).activeByTask =
      if endsRun payload = true then r.activeByTask.delete (r.taskId y) else r.activeByTask := by
  have hart : (r.emitArtifact y (frameArtifact opts payload)).activeByTask = r.activeByTask := by
    cases frameArtifact opts payload <;> rfl
  have hid : (r.emitArtifact y (frameArtifact opts payload)).taskId y = r.taskId y := by
    cases frameArtifact opts payload <;> rfl
  simp only [onChat]
  split
  · simp [endsRun, emitFailure, *]
  · simp [endsRun, emitFailure, *]
  · simp [endsRun, *]
  · simp_all [endsRun]

theorem isolated_onChat_iff (gatewayRun : Nat → String) (runId : String) :
    Isolated gatewayRun runId r (r.onChat opts y payload) ↔
      (gatewayRun y = runId ∧ (endsRun payload = true →
        ∀ z, r.activeByTask.get (r.taskId y) = some z → gatewayRun z = runId)) ∨
      ChatSilent opts payload := by
  constructor
  · intro h
    by_cases hsilent : ChatSilent opts payload
    · exact .inr hsilent
    · refine .inl ⟨?_, fun hends z hz => ?_⟩
      · by_contra hy
        have hrec := (h y hy).received
        rw [received_onChat, List.append_right_eq_self] at hrec
        exact hsilent (chatDetails_eq_nil_iff.mp hrec)
      · by_contra hne
        have hkept := (h z hne).kept _ hz
        simp [onChat_activeByTask, hends] at hkept
  · rintro (⟨hy, hclose⟩ | hsilent) x hx
    · have hne : x ≠ y := fun h => hx (h ▸ hy)
      refine ⟨received_onChat_other opts r payload hne, fun t ht => ?_⟩
      rw [onChat_activeByTask]
      split
      · rename_i hends
        by_cases hid : t = r.taskId y
        · exact absurd (hclose hends x (hid ▸ ht)) hx
        · rw [OrderedMap.get_delete_other _ hid]
          exact ht
      · exact ht
    · rw [onChat_silent hsilent]
      exact untouched_refl r x

theorem isolated_agent_iff (gatewayRun : Nat → String) {runId : String} (c : Client)
    (hid : payload.runId = some runId) :
    Isolated gatewayRun runId c.registry (c.handleMessage opts (.agent payload)).registry ↔
      AgentRouted opts gatewayRun runId c.registry payload := by
  simp only [AgentRouted, ← findActive_eq_some_iff, ← hid, Client.handleMessage]
  cases hfind : c.registry.findActive payload.runId payload.sessionKey with
  | none =>
    simp only [reduceCtorEq, false_implies, implies_true, iff_true]
    exact fun x _ => untouched_refl _ x
  | some y =>
    simp only [Option.some.injEq, forall_eq']
    exact isolated_onAgent_iff gatewayRun runId

theorem isolated_chat_iff (gatewayRun : Nat → String) {runId : String} (c : Client)
    (hid : payload.runId = some runId) :
    Isolated gatewayRun runId c.registry (c.handleMessage opts (.chat payload)).registry ↔
      ChatRouted opts gatewayRun runId c.registry payload := by
  simp only [ChatRouted, ← findActive_eq_some_iff, ← hid, Client.handleMessage]
  cases hfind : c.registry.findActive payload.runId payload.sessionKey with
  | none =>
    simp only [reduceCtorEq, false_implies, implies_true, iff_true]
    exact fun x _ => untouched_refl _ x
  | some y =>
    simp only [Option.some.injEq, forall_eq']
    exact isolated_onChat_iff gatewayRun runId

/-- The run that was acknowledged for the task of a one-shot client. -/
def acknowledgedRun (o : OneShot) : Option String :=
  if o.resolvedRunId = "" then none else some o.resolvedRunId

/-- A frame of another run than the acknowledged one leads to no event and ends nothing. -/
def OneShotIsolated (runId : String) (o : OneShot) (result : OneShot × List Effect) : Prop :=
  ∀ own ∈ acknowledgedRun o, own ≠ runId →
    (∀ event, Effect.event event ∉ result.2) ∧ result.1.listening = o.listening

def OneShotAgentSilent (opts : Options) (o : OneShot) (payload : EventPayload) : Prop :=
  frameArtifact opts payload = none ∧ payload.stream = some "assistant" ∧
    (normalizeAssistantDelta (assistantSnapshot opts payload) o.lastAssistantSnapshot).1 = ""

def OneShotChatSilent (opts : Options) (payload : EventPayload) : Prop :=
  extractArtifactResult opts.isUrl [payload.message, payload.data.map Json.obj] = none ∧
    endsRun payload = false

/-- Nothing in the one-shot client looks at the run id of a frame. -/
theorem oneShotIsolated_iff {runId : String} {o : OneShot} {result : OneShot × List Effect}
    {silent : Prop}
    (hsilent : (∀ event, Effect.event event ∉ result.2) ∧ result.1.listening = o.listening ↔ silent) :
    OneShotIsolated runId o result ↔
      (o.resolvedRunId = "" ∨ o.resolvedRunId = runId ∨ silent) := by
  unfold OneShotIsolated acknowledgedRun
  by_cases hack : o.resolvedRunId = ""
  · simp [hack]
  · by_cases hrun : o.resolvedRunId = runId
    · simp [hrun]
    · simp [hack, hrun, hsilent]

theorem oneShot_agent_silent (opts : Options) (o : OneShot) (now : String) (payload : EventPayload) :
    (∀ event, Effect.event event ∉ (o.onAgent opts now payload).2) ∧
        (o.onAgent opts now payload).1.listening = o.listening ↔
      OneShotAgentSilent opts o payload := by
  unfold OneShot.onAgent OneShotAgentSilent frameArtifact
  cases extractArtifactResult opts.isUrl [payload.data.map Json.obj, payload.message] with
  | some a => simp
  | none =>
    by_cases hstream : payload.stream = some "assistant"
    · by_cases hdelta :
        (normalizeAssistantDelta (assistantSnapshot opts payload) o.lastAssistantSnapshot).1 = ""
      · simp [hstream, hdelta]
      · simp [hstream, hdelta]
    · simp [hstream]

theorem oneShot_terminal_silent (o : OneShot) (now : String) (payload : EventPayload) :
    (∀ event, Effect.event event ∉ (o.chatTerminal now payload).2) ∧
        (o.chatTerminal now payload).1.listening = o.listening ↔ endsRun payload = false := by
  unfold OneShot.chatTerminal endsRun
  split
  · simp [OneShot.failAfterAccepted, *]
  · simp [OneShot.failAfterAccepted, *]
  · simp [*]
  · simp_all

theorem oneShot_chat_silent (opts : Options) (o : OneShot) (now : String) (payload : EventPayload) :
    (∀ event, Effect.event event ∉ (o.onChat opts now payload).2) ∧
        (o.onChat opts now payload).1.listening = o.listening ↔
      OneShotChatSilent opts payload := by
  rw [OneShotChatSilent, ← oneShot_terminal_silent o now]
  unfold OneShot.onChat
  cases extractArtifactResult opts.isUrl [payload.message, payload.data.map Json.obj] with
  | some a =>
    simp only [List.mem_append, List.mem_singleton, reduceCtorEq, false_and, iff_false, not_and]
    intro h
    exact absurd (.inl rfl) (h _)
  | none => simp

/-- A frame is isolated exactly when the execution it is attributed to is one of its own run, and
so is the execution that it removes, or when it has no effect; the one-shot client isolates only
the frames of the run that was acknowledged for its task. -/
theorem isolated_iff_routed (opts : Options) (gatewayRun : Nat → String) {runId : String}
    {payload : EventPayload} (hid : payload.runId = some runId) :
    (∀ c : Client,
      (Isolated gatewayRun runId c.registry (c.handleMessage opts (.agent payload)).registry ↔
        AgentRouted opts gatewayRun runId c.registry payload) ∧
      (Isolated gatewayRun runId c.registry (c.handleMessage opts (.chat payload)).registry ↔
        ChatRouted opts gatewayRun runId c.registry payload)) ∧
    (∀ (o : OneShot) (now : String),
      (OneShotIsolated runId o (o.onMessage opts now (.agent payload)) ↔
        o.resolvedRunId = "" ∨ o.resolvedRunId = runId ∨ OneShotAgentSilent opts o payload) ∧
      (OneShotIsolated runId o (o.onMessage opts now (.chat payload)) ↔
        o.resolvedRunId = "" ∨ o.resolvedRunId = runId ∨ OneShotChatSilent opts payload)) := by
  refine ⟨fun c => ⟨?_, ?_⟩, fun o now => ⟨?_, ?_⟩⟩
  · exact isolated_agent_iff gatewayRun c hid
  · exact isolated_chat_iff gatewayRun c hid
  · exact oneShotIsolated_iff (oneShot_agent_silent opts o now payload)
  · exact oneShotIsolated_iff (oneShot_chat_silent opts o now payload)

/-- A follow-up of the same session is active while the first task is cancelled. -/
def cancelledRun : List Label :=
  [.execute ⟨"a", "s", "first"⟩, .prepared 0 (.ok ⟨"first", []⟩), .opened 0,
    .message 0 (.ok Client.connectRequestId none none), .resume 0,
    .message 0 (.ok "a" (some "mock-run-a") none),
    .execute ⟨"b", "s", "second"⟩, .prepared 1 (.ok ⟨"second", []⟩), .resume 1,
    .message 0 (.ok "b" (some "mock-run-b") none), .cancel "a"]

/-- What the mock gateway sends after the abort of the first task's run. -/
def abortedPayload : EventPayload :=
  { runId := some "mock-run-a", sessionKey := some "agent:main:session:s", state := some "aborted" }

def mockRun (x : Nat) : String := if x = 0 then "mock-run-a" else "mock-run-b"

/-- While both tasks are active the same frame reaches its own task only. -/
theorem isolated_before_cancel :
    ∃ c, Reachable (Client.step defaultOptions) Client.init c ∧
      Isolated mockRun "mock-run-a" c.registry
        (c.handleMessage defaultOptions (.chat abortedPayload)).registry := by
  have hown : (run (Client.step defaultOptions) Client.init cancelledRun.dropLast).any
      (fun c => decide (c.registry.taskByRun.get "mock-run-a" = some 0) &&
        decide (c.registry.activeByTask.get (c.registry.taskId 0) = some 0)) = true := by decide
  obtain ⟨c, hrun, hc⟩ := (Option.any_eq_true _ _).mp hown
  simp only [Bool.and_eq_true, decide_eq_true_eq] at hc
  obtain ⟨hget, htask⟩ := hc
  refine ⟨c, ⟨_, hrun⟩, ?_⟩
  have hid : abortedPayload.runId = some "mock-run-a" := rfl
  refine (((isolated_iff_routed defaultOptions mockRun hid).1 c).2).mpr fun y hy => ?_
  have hy0 : y = 0 := by
    rcases hy with ⟨-, hy⟩ | ⟨hnone, -⟩
    · exact Option.some.inj (hy.symm.trans hget)
    · simp [hget] at hnone
  subst hy0
  refine .inl ⟨rfl, fun _ z hz => ?_⟩
  rw [Option.some.inj (hz.symm.trans htask)]
  rfl

/-- The frame of the cancelled run fails and removes the follow-up. -/
theorem not_isolated_after_cancel :
    ∃ c, Reachable (Client.step defaultOptions) Client.init c ∧
      ¬ Isolated mockRun "mock-run-a" c.registry
        (c.handleMessage defaultOptions (.chat abortedPayload)).registry := by
  have hremoved : (run (Client.step defaultOptions) Client.init cancelledRun).any
      (fun c => decide (c.registry.activeByTask.get "b" = some 1) &&
        decide ((c.handleMessage defaultOptions
          (.chat abortedPayload)).registry.activeByTask.get "b" = none)) = true := by decide
  obtain ⟨c, hrun, hc⟩ := (Option.any_eq_true _ _).mp hremoved
  simp only [Bool.and_eq_true, decide_eq_true_eq] at hc
  refine ⟨c, ⟨_, hrun⟩, fun h => ?_⟩
  have hkept := (h 1 (by decide)).kept "b" hc.1
  rw [hc.2] at hkept
  cases hkept

end RunIsolation
