import ClawWork.SingleRun

/-!
# The end of a one-shot execution

An execution on a socket of its own is over when the socket is closed or its listeners are
removed, and no HTTP request is in flight. Its promise should be settled then: rejected,
with no terminal event but that of a cancellation, or resolved, with exactly one. Five
kinds of callbacks can break this, and nothing else does.
-/

namespace Settlement

open JavaScript SharedTypes GatewayProtocol GatewayClient PersistentGatewayClient SingleRun Transition

structure Execution where
  oneShot : OneShot
  /-- What the callbacks have done so far. -/
  effects : List Effect

def Execution.start (opts : Options) (input : ExecuteGatewayTaskInput) (prepared : PreparedGatewayInput) :
    Execution := ⟨.start opts input prepared, []⟩

/-- A callback at a time. -/
def step (opts : Options) (e : Execution) (l : String × Stimulus) : Option Execution :=
  (e.oneShot.step opts l.1 l.2).map fun (oneShot, effects) => ⟨oneShot, e.effects ++ effects⟩

@[simp] def isResolve : Effect → Bool
  | .resolve _ => true
  | _ => false

@[simp] def isReject : Effect → Bool
  | .reject _ => true
  | _ => false

def resolved (es : List Effect) : Bool := es.any isResolve

def rejected (es : List Effect) : Bool := es.any isReject

def terminals (es : List Effect) : List TaskStreamEvent :=
  (es.filterMap eventOfEffect).filter TaskStreamEvent.isTerminal

def isCancelled (event : TaskStreamEvent) : Bool :=
  match event.detail with
  | .cancelled _ => true
  | _ => false

/-- The socket is closed or cleaned up, and no fallback is in flight. -/
def Over (o : OneShot) : Prop := (o.readyState = .closed ∨ o.listening = false) ∧ o.httpPending = none

/-- An execution that is over has settled its promise, and its events fit that. -/
def Settled (e : Execution) : Prop :=
  Over e.oneShot →
    (rejected e.effects = true ∧ ∀ event ∈ terminals e.effects, isCancelled event = true) ∨
    (resolved e.effects = true ∧ (terminals e.effects).length = 1)

/-- The callbacks after which an execution can still be told how it has ended. -/
def Orderly (e : Execution) : String × Stimulus → Prop
  | (_, .message (.chat payload)) => Registry.endsRun payload = true → e.oneShot.promiseSettled = true
  | (_, .close code _) => e.oneShot.listening = true → e.oneShot.promiseSettled = true → code ≠ 1000
  | (_, .cancel) =>
    (e.oneShot.listening = true ∧ e.oneShot.promiseSettled = true) ∨ e.oneShot.httpPending.isSome = true ∨
      rejected e.effects = true
  | (_, .http (.reply _ reply)) => reply ≠ "" → terminals e.effects = []
  | (_, .shutdown) => e.oneShot.listening = false
  | _ => True

instance (e : Execution) : (l : String × Stimulus) → Decidable (Orderly e l)
  | (_, .message (.chat payload)) =>
    inferInstanceAs (Decidable (Registry.endsRun payload = true → e.oneShot.promiseSettled = true))
  | (_, .close code _) =>
    inferInstanceAs (Decidable (e.oneShot.listening = true → e.oneShot.promiseSettled = true → code ≠ 1000))
  | (_, .cancel) => inferInstanceAs (Decidable (_ ∨ _ ∨ rejected e.effects = true))
  | (_, .http (.reply _ reply)) => inferInstanceAs (Decidable (reply ≠ "" → terminals e.effects = []))
  | (_, .shutdown) => inferInstanceAs (Decidable (e.oneShot.listening = false))
  | (_, .message .challenge) | (_, .message (.ok _ _ _)) | (_, .message (.error _ _ _)) | (_, .message (.agent _))
  | (_, .message .other) | (_, .http (.failed _)) | (_, .http (.rejected _ _)) | (_, .opened) | (_, .error _)
  | (_, .connectTimeout) => isTrue trivial

/-- Where an execution stands. -/
inductive Stage where
  /-- The socket is used, and the task is not accepted. -/
  | connecting
  /-- The task is accepted and has not ended. -/
  | streaming
  /-- The HTTP request is in flight. -/
  | fallback
  | ended
  | refused

namespace Stage

def listens : Stage → Bool
  | .connecting | .streaming => true
  | _ => false

def settled : Stage → Bool
  | .connecting | .fallback => false
  | _ => true

def pending : Stage → Bool
  | .fallback => true
  | _ => false

def resolved : Stage → Bool
  | .streaming | .ended => true
  | _ => false

def rejected : Stage → Bool
  | .refused => true
  | _ => false

/-- The terminal events so far. -/
def Fits : Stage → List TaskStreamEvent → Prop
  | .connecting, events | .streaming, events => events = []
  | .ended, events => events.length = 1
  | .fallback, events | .refused, events => ∀ event ∈ events, isCancelled event = true

end Stage

/-- The state and the effects at a stage. -/
structure At (stage : Stage) (e : Execution) : Prop where
  listening : e.oneShot.listening = stage.listens
  promiseSettled : e.oneShot.promiseSettled = stage.settled
  httpPending : e.oneShot.httpPending.isSome = stage.pending
  resolved : resolved e.effects = stage.resolved
  rejected : rejected e.effects = stage.rejected
  terminals : stage.Fits (terminals e.effects)
  fallbackInFlight : stage = .connecting → e.oneShot.fallbackInFlight = false
  /-- Once the listeners are removed the timer is cleared. -/
  timer : e.oneShot.listening = false → e.oneShot.connectTimer = false
  socket : e.oneShot.listening = true → e.oneShot.readyState ≠ .closed

def Inv (e : Execution) : Prop := ∃ stage, At stage e

variable {opts : Options} {o o' : OneShot} {e e' : Execution} {es es' : List Effect} {stage : Stage} {now : String}

@[simp] theorem resolved_nil : resolved [] = false := rfl

@[simp] theorem rejected_nil : rejected [] = false := rfl

@[simp] theorem terminals_nil : terminals [] = [] := rfl

@[simp] theorem resolved_cons (effect : Effect) : resolved (effect :: es) = (isResolve effect || resolved es) := rfl

@[simp] theorem rejected_cons (effect : Effect) : rejected (effect :: es) = (isReject effect || rejected es) := rfl

@[simp] theorem terminals_event (event : TaskStreamEvent) : terminals (.event event :: es) =
    if event.isTerminal = true then event :: terminals es else terminals es := by
  simp [terminals, eventOfEffect, List.filter_cons]

theorem terminals_cons {effect : Effect} (h : eventOfEffect effect = none) :
    terminals (effect :: es) = terminals es := by
  simp [terminals, h]

@[simp] theorem resolved_append : resolved (es ++ es') = (resolved es || resolved es') := List.any_append

@[simp] theorem rejected_append : rejected (es ++ es') = (rejected es || rejected es') := List.any_append

@[simp] theorem terminals_append : terminals (es ++ es') = terminals es ++ terminals es' := by
  simp [terminals, List.filterMap_append]

/-- Effects that neither settle the promise nor end the events. -/
structure Quiet (es : List Effect) : Prop where
  resolved : resolved es = false
  rejected : rejected es = false
  terminals : terminals es = []

theorem quiet_nil : Quiet [] := ⟨rfl, rfl, rfl⟩

theorem quiet_send (request : GatewayRequest) : Quiet [.send request] := ⟨rfl, rfl, rfl⟩

theorem quiet_event {event : TaskStreamEvent} (h : event.isTerminal = false) : Quiet [.event event] :=
  ⟨rfl, rfl, by simp [h]⟩

/-- Quiet effects at a stage, as long as the socket is used as before. -/
theorem At.quiet {o : OneShot} (h : At stage ⟨o, es⟩) (hquiet : Quiet es')
    (hlistening : o'.listening = o.listening) (hsettled : o'.promiseSettled = o.promiseSettled)
    (hpending : o'.httpPending = o.httpPending) (hfallback : o'.fallbackInFlight = o.fallbackInFlight)
    (htimer : o'.connectTimer = o.connectTimer) (hsocket : o'.readyState = .closed → o.readyState = .closed) :
    At stage ⟨o', es ++ es'⟩ where
  listening := hlistening.trans h.listening
  promiseSettled := hsettled.trans h.promiseSettled
  httpPending := (congrArg Option.isSome hpending).trans h.httpPending
  resolved := by
    rw [resolved_append, hquiet.resolved, Bool.or_false]
    exact h.resolved
  rejected := by
    rw [rejected_append, hquiet.rejected, Bool.or_false]
    exact h.rejected
  terminals := by
    rw [terminals_append, hquiet.terminals, List.append_nil]
    exact h.terminals
  fallbackInFlight hstage := hfallback.trans (h.fallbackInFlight hstage)
  timer hoff := htimer.trans (h.timer (hlistening ▸ hoff))
  socket hon hclosed := h.socket (hlistening ▸ hon) (hsocket hclosed)

/-! ## The callbacks -/

theorem At.quiet_effects (h : At .connecting ⟨o, es⟩) : Quiet es := ⟨h.resolved, h.rejected, h.terminals⟩

theorem httpPending_none (h : o.httpPending.isSome = false) : o.httpPending = none :=
  Option.isSome_eq_false_iff.mp h |> Option.isNone_iff_eq_none.mp

/-- The run ends with a terminal event. -/
theorem at_ended {event : TaskStreamEvent} (hsettled : o.promiseSettled = true) (hpending : o.httpPending = none)
    (hresolved : resolved es = true) (hrejected : rejected es = false) (hopen : terminals es = [])
    (hquiet : Quiet es') (hevent : event.isTerminal = true) : At .ended ⟨o.cleanup, es ++ (es' ++ [.event event])⟩ where
  listening := rfl
  promiseSettled := hsettled
  httpPending := by simp [OneShot.cleanup, hpending, Stage.pending]
  resolved := by simp [hresolved, Stage.resolved]
  rejected := by simp [hrejected, hquiet.rejected, Stage.rejected]
  terminals := by simp [hopen, hquiet.terminals, hevent, Stage.Fits]
  fallbackInFlight hstage := by cases hstage
  timer _ := rfl
  socket hon := by cases hon

theorem At.seal {event : TaskStreamEvent} (h : At .streaming ⟨o, es⟩) (hquiet : Quiet es')
    (hevent : event.isTerminal = true) : At .ended ⟨o.cleanup, es ++ (es' ++ [.event event])⟩ :=
  at_ended h.promiseSettled (httpPending_none h.httpPending) h.resolved h.rejected h.terminals hquiet hevent

theorem At.failAfterAccepted (h : At .streaming ⟨o, es⟩) (error : GatewayError) :
    At .ended ⟨(o.failAfterAccepted now error).1, es ++ (o.failAfterAccepted now error).2⟩ :=
  h.seal quiet_nil rfl

/-- The promise is rejected. -/
theorem at_refused {o' : OneShot} {error : GatewayError} (hresolved : resolved es = false)
    (hcancelled : ∀ event ∈ terminals es, isCancelled event = true) (hlistening : o'.listening = false)
    (hsettled : o'.promiseSettled = true) (hpending : o'.httpPending = none) (htimer : o'.connectTimer = false) :
    At .refused ⟨o', es ++ [.reject error]⟩ where
  listening := hlistening
  promiseSettled := hsettled
  httpPending := by simp [hpending, Stage.pending]
  resolved := by simp [hresolved, Stage.resolved]
  rejected := by simp [Stage.rejected]
  terminals := by
    rw [terminals_append, terminals_cons rfl, terminals_nil, List.append_nil]
    exact hcancelled
  fallbackInFlight hstage := by cases hstage
  timer _ := htimer
  socket hon := by simp [hlistening] at hon

theorem rejectExecution_refused (hsettled : o.promiseSettled = false) (hpending : o.httpPending = none)
    (hresolved : resolved es = false) (hcancelled : ∀ event ∈ terminals es, isCancelled event = true)
    (error : GatewayError) : At .refused ⟨(o.rejectExecution error).1, es ++ (o.rejectExecution error).2⟩ := by
  unfold OneShot.rejectExecution
  rw [if_neg (by simp [hsettled])]
  exact at_refused hresolved hcancelled rfl rfl hpending rfl

/-- The socket has failed before the task is accepted: the fallback is in flight, or it is refused. -/
theorem failBeforeAccepted_inv (hsettled : o.promiseSettled = false) (hfallback : o.fallbackInFlight = false)
    (hpending : o.httpPending = none) (hquiet : Quiet es) (error : GatewayError) :
    Inv ⟨(o.failBeforeAccepted now error).1, es ++ (o.failBeforeAccepted now error).2⟩ := by
  have hcancelled : ∀ event ∈ terminals es, isCancelled event = true := by simp [hquiet.terminals]
  unfold OneShot.failBeforeAccepted OneShot.startHttp
  rw [if_neg (by simp [hsettled]), if_neg (by simp [hfallback])]
  split
  · refine ⟨.fallback, rfl, hsettled, rfl, ?_, ?_, ?_, fun hstage => (by cases hstage), fun _ => rfl,
      fun hon => (by cases hon)⟩
    · simp [hquiet.resolved, Stage.resolved]
    · simp [hquiet.rejected, Stage.rejected]
    · rw [terminals_append, terminals_cons rfl, hquiet.terminals]
      simp [Stage.Fits]
  · exact ⟨.refused, rejectExecution_refused (o := { o.cleanup with fallbackInFlight := true }) hsettled hpending
      hquiet.resolved hcancelled _⟩

theorem At.failBeforeAccepted (h : At .connecting ⟨o, es⟩) (error : GatewayError) :
    Inv ⟨(o.failBeforeAccepted now error).1, es ++ (o.failBeforeAccepted now error).2⟩ :=
  failBeforeAccepted_inv h.promiseSettled (h.fallbackInFlight rfl) (httpPending_none h.httpPending)
    h.quiet_effects error

/-- `failBeforeAccepted` while the socket is listened to. -/
theorem inv_failBeforeAccepted (now : String) (h : At stage ⟨o, es⟩) (hon : stage.listens = true)
    (error : GatewayError) :
    Inv ⟨(o.failBeforeAccepted now error).1, es ++ (o.failBeforeAccepted now error).2⟩ := by
  cases stage with
  | connecting => exact h.failBeforeAccepted error
  | streaming =>
    have hsettled : o.promiseSettled = true := h.promiseSettled
    unfold OneShot.failBeforeAccepted
    rw [if_pos hsettled]
    exact ⟨.ended, h.failAfterAccepted error⟩
  | fallback => cases hon
  | ended => cases hon
  | refused => cases hon

theorem at_onAgent (h : At stage ⟨o, es⟩) (payload : EventPayload) :
    At stage ⟨(o.onAgent opts now payload).1, es ++ (o.onAgent opts now payload).2⟩ := by
  unfold OneShot.onAgent
  dsimp only
  split
  · exact h.quiet (quiet_event rfl) rfl rfl rfl rfl rfl id
  · split
    · dsimp only
      split
      · exact h.quiet quiet_nil rfl rfl rfl rfl rfl id
      · exact h.quiet (quiet_event rfl) rfl rfl rfl rfl rfl id
    · exact h.quiet (quiet_event rfl) rfl rfl rfl rfl rfl id

/-- The results that a chat frame brings along come before what it ends. -/
theorem onChat_eq (opts : Options) (now : String) (o : OneShot) (payload : EventPayload) :
    ∃ created, Quiet created ∧ o.onChat opts now payload =
      ((o.chatTerminal now payload).1, created ++ (o.chatTerminal now payload).2) := by
  refine ⟨_, ?_, rfl⟩
  split
  · exact quiet_event rfl
  · exact quiet_nil

theorem chatTerminal_ends (o : OneShot) (now : String) {payload : EventPayload} (h : Registry.endsRun payload = true) :
    ∃ event : TaskStreamEvent, event.isTerminal = true ∧
      o.chatTerminal now payload = (o.cleanup, [.event event]) := by
  unfold OneShot.chatTerminal
  split
  · exact ⟨_, rfl, rfl⟩
  · exact ⟨_, rfl, rfl⟩
  · exact ⟨_, rfl, rfl⟩
  · rename_i herror haborted hfinal
    simp only [Registry.endsRun, Bool.or_eq_true, decide_eq_true_eq] at h
    rcases h with (hstate | hstate) | hstate
    · exact absurd hstate herror
    · exact absurd hstate haborted
    · exact absurd hstate hfinal

theorem chatTerminal_goes_on {payload : EventPayload} (h : Registry.endsRun payload = false) :
    o.chatTerminal now payload = (o, []) := by
  simp only [Registry.endsRun, Bool.or_eq_false_iff, decide_eq_false_iff_not] at h
  unfold OneShot.chatTerminal
  split
  · exact absurd ‹_› h.1.1
  · exact absurd ‹_› h.1.2
  · exact absurd ‹_› h.2
  · rfl

theorem inv_onChat (h : At stage ⟨o, es⟩) (hon : stage.listens = true) {payload : EventPayload}
    (hok : Registry.endsRun payload = true → o.promiseSettled = true) :
    Inv ⟨(o.onChat opts now payload).1, es ++ (o.onChat opts now payload).2⟩ := by
  obtain ⟨created, hcreated, hchat⟩ := onChat_eq opts now o payload
  rw [hchat]
  cases hends : Registry.endsRun payload with
  | true =>
    obtain ⟨event, hevent, hterminal⟩ := chatTerminal_ends o now hends
    have hsettled : stage.settled = true := h.promiseSettled.symm.trans (hok hends)
    rw [hterminal]
    cases stage with
    | streaming => exact ⟨.ended, h.seal hcreated hevent⟩
    | connecting => cases hsettled
    | fallback => cases hon
    | ended => cases hon
    | refused => cases hon
  | false =>
    rw [chatTerminal_goes_on hends, List.append_nil]
    exact ⟨stage, h.quiet hcreated rfl rfl rfl rfl rfl id⟩

theorem inv_onOk (h : At stage ⟨o, es⟩) (hon : stage.listens = true) (requestId : String)
    (runId mainSessionKey : Option String) :
    Inv ⟨(o.onMessage opts now (.ok requestId runId mainSessionKey)).1,
      es ++ (o.onMessage opts now (.ok requestId runId mainSessionKey)).2⟩ := by
  unfold OneShot.onMessage
  dsimp only
  split
  · exact ⟨stage, h.quiet (quiet_send _) rfl rfl rfl rfl rfl id⟩
  · split
    · unfold OneShot.resolveAccepted
      dsimp only
      cases stage with
      | connecting =>
        have hsettled : o.promiseSettled = false := h.promiseSettled
        rw [if_neg (by simp [hsettled])]
        refine ⟨.streaming, h.listening, rfl, h.httpPending, ?_, ?_, ?_, fun hstage => (by cases hstage),
          fun _ => rfl, fun hon => h.socket hon⟩
        · simp [Stage.resolved]
        · simp [h.quiet_effects.rejected, Stage.rejected]
        · rw [terminals_append, h.quiet_effects.terminals]
          rfl
      | streaming =>
        have hsettled : o.promiseSettled = true := h.promiseSettled
        rw [if_pos hsettled]
        exact ⟨.streaming, h.quiet (quiet_event rfl) rfl rfl rfl rfl rfl id⟩
      | fallback => cases hon
      | ended => cases hon
      | refused => cases hon
    · exact ⟨stage, h.quiet quiet_nil rfl rfl rfl rfl rfl id⟩

theorem inv_onError (h : At stage ⟨o, es⟩) (hon : stage.listens = true) (requestId : String)
    (code message : Option String) :
    Inv ⟨(o.onMessage opts now (.error requestId code message)).1,
      es ++ (o.onMessage opts now (.error requestId code message)).2⟩ := by
  unfold OneShot.onMessage
  dsimp only
  split
  · exact inv_failBeforeAccepted _ h hon _
  · split
    · cases stage with
      | connecting =>
        have hsettled : o.promiseSettled = false := h.promiseSettled
        rw [if_neg (by simp [hsettled])]
        exact ⟨.refused, rejectExecution_refused hsettled (httpPending_none h.httpPending) h.resolved
          (by simp [h.quiet_effects.terminals]) _⟩
      | streaming =>
        have hsettled : o.promiseSettled = true := h.promiseSettled
        rw [if_pos hsettled]
        exact ⟨.ended, h.failAfterAccepted _⟩
      | fallback => cases hon
      | ended => cases hon
      | refused => cases hon
    · exact ⟨stage, h.quiet quiet_nil rfl rfl rfl rfl rfl id⟩

theorem inv_onMessage (opts : Options) (h : At stage ⟨o, es⟩) (hon : stage.listens = true) {frame : GatewayFrame}
    (hok : Orderly ⟨o, es⟩ (now, .message frame)) :
    Inv ⟨(o.onMessage opts now frame).1, es ++ (o.onMessage opts now frame).2⟩ := by
  cases frame with
  | challenge => exact ⟨stage, h.quiet (quiet_send _) rfl rfl rfl rfl rfl id⟩
  | ok requestId runId mainSessionKey => exact inv_onOk h hon requestId runId mainSessionKey
  | error requestId code message => exact inv_onError h hon requestId code message
  | agent payload => exact ⟨stage, at_onAgent h payload⟩
  | chat payload => exact inv_onChat h hon hok
  | other => exact ⟨stage, h.quiet quiet_nil rfl rfl rfl rfl rfl id⟩

/-- The socket closes. -/
theorem inv_onClose (h : At stage ⟨o, es⟩) (hon : stage.listens = true) {code : Nat} {reason : String}
    (hok : Orderly ⟨o, es⟩ (now, .close code reason)) :
    Inv ⟨({ o with readyState := .closed }.onClose now code reason).1,
      es ++ ({ o with readyState := .closed }.onClose now code reason).2⟩ := by
  unfold OneShot.onClose
  dsimp only
  cases stage with
  | connecting =>
    have hsettled : o.promiseSettled = false := h.promiseSettled
    rw [if_pos (by simp [hsettled])]
    exact failBeforeAccepted_inv (o := { o with readyState := .closed }) hsettled (h.fallbackInFlight rfl)
      (httpPending_none h.httpPending) h.quiet_effects _
  | streaming =>
    have hsettled : o.promiseSettled = true := h.promiseSettled
    rw [if_neg (by simp [hsettled]), if_pos (hok h.listening hsettled)]
    exact ⟨.ended, at_ended (o := { o with readyState := .closed }) hsettled (httpPending_none h.httpPending) h.resolved
      h.rejected h.terminals quiet_nil rfl⟩
  | fallback => cases hon
  | ended => cases hon
  | refused => cases hon

/-- The socket closes when nobody listens any more. -/
theorem at_closed (h : At stage ⟨o, es⟩) (hoff : stage.listens = false) :
    At stage ⟨{ o with readyState := .closed }, es ++ []⟩ where
  listening := h.listening
  promiseSettled := h.promiseSettled
  httpPending := h.httpPending
  resolved := by
    rw [List.append_nil]
    exact h.resolved
  rejected := by
    rw [List.append_nil]
    exact h.rejected
  terminals := by
    rw [List.append_nil]
    exact h.terminals
  fallbackInFlight := h.fallbackInFlight
  timer := h.timer
  socket hon := by
    have hoff' : o.listening = false := h.listening.trans hoff
    rw [show o.listening = true from hon] at hoff'
    cases hoff'

theorem inv_connectTimeout (now : String) (h : At stage ⟨o, es⟩) (htimer : o.connectTimer = true)
    (error : GatewayError) :
    Inv ⟨({ o with connectTimer := false }.failBeforeAccepted now error).1,
      es ++ ({ o with connectTimer := false }.failBeforeAccepted now error).2⟩ := by
  have hon : o.listening = true := by
    cases hlistening : o.listening with
    | true => rfl
    | false =>
      rw [h.timer hlistening] at htimer
      cases htimer
  have hstage : At stage ⟨{ o with connectTimer := false }, es⟩ :=
    ⟨h.listening, h.promiseSettled, h.httpPending, h.resolved, h.rejected, h.terminals, h.fallbackInFlight,
      fun _ => rfl, h.socket⟩
  exact inv_failBeforeAccepted now hstage (h.listening.symm.trans hon) error

theorem inv_onHttp (h : At .fallback ⟨o, es⟩) (wsError : GatewayError) {outcome : HttpOutcome}
    (hok : Orderly ⟨o, es⟩ (now, .http outcome)) :
    Inv ⟨(o.onHttp now wsError outcome).1, es ++ (o.onHttp now wsError outcome).2⟩ := by
  have hrefused : ∀ error, Inv ⟨({ o with httpPending := none }.rejectExecution error).1,
      es ++ ({ o with httpPending := none }.rejectExecution error).2⟩ := fun error =>
    ⟨.refused, rejectExecution_refused (o := { o with httpPending := none }) h.promiseSettled rfl h.resolved h.terminals
      error⟩
  cases outcome with
  | failed error => exact hrefused _
  | rejected status message => exact hrefused _
  | reply replyId reply =>
    unfold OneShot.onHttp
    dsimp only
    split
    · exact hrefused _
    · rename_i hreply
      have hsettled : o.promiseSettled = false := h.promiseSettled
      have hlistening : o.listening = false := h.listening
      rw [if_neg (by simp [hsettled])]
      have hopen : terminals es = [] := hok hreply
      have hrejected : rejected es = false := h.rejected
      refine ⟨.ended, hlistening, rfl, rfl, ?_, ?_, ?_, fun hstage => (by cases hstage), fun _ => h.timer hlistening,
        fun hon => ?_⟩
      · simp [Stage.resolved]
      · simp [hrejected, Stage.rejected]
      · rw [terminals_append, hopen]
        rfl
      · dsimp only at hon
        rw [hlistening] at hon
        cases hon

/-- A cancellation that comes when the socket is no longer listened to adds its event. -/
theorem at_cancelled {event : TaskStreamEvent} (h : At stage ⟨o, es⟩) (hoff : stage = .fallback ∨ stage = .refused)
    (hquiet : Quiet es') (hterminal : event.isTerminal = true) (hevent : isCancelled event = true) :
    At stage ⟨o.cleanup, es ++ (es' ++ [.event event])⟩ where
  listening := by rcases hoff with rfl | rfl <;> rfl
  promiseSettled := h.promiseSettled
  httpPending := h.httpPending
  resolved := by
    have hresolved : resolved es = stage.resolved := h.resolved
    simp [hresolved, hquiet.resolved]
  rejected := by
    have hrejected : rejected es = stage.rejected := h.rejected
    simp [hrejected, hquiet.rejected]
  terminals := by
    have hterminals : stage.Fits (terminals es) := h.terminals
    rw [terminals_append, terminals_append, hquiet.terminals, List.nil_append, terminals_event, if_pos hterminal,
      terminals_nil]
    rcases hoff with rfl | rfl <;>
      exact List.forall_mem_append.mpr ⟨hterminals, fun other hother => by rwa [List.mem_singleton.mp hother]⟩
  fallbackInFlight := h.fallbackInFlight
  timer _ := rfl
  socket hon := by cases hon

theorem quiet_abort (o : OneShot) (request : GatewayRequest) :
    Quiet (if o.readyState = .opened then [Effect.send request] else []) := by
  split
  · exact quiet_send _
  · exact quiet_nil

theorem inv_cancel (h : At stage ⟨o, es⟩) (hok : Orderly ⟨o, es⟩ (now, .cancel)) :
    Inv ⟨(o.cancel now).1, es ++ (o.cancel now).2⟩ := by
  have hlistening : o.listening = stage.listens := h.listening
  have hsettled : o.promiseSettled = stage.settled := h.promiseSettled
  have hpending : o.httpPending.isSome = stage.pending := h.httpPending
  have hrejected : rejected es = stage.rejected := h.rejected
  simp only [Orderly, hlistening, hsettled, hpending, hrejected] at hok
  unfold OneShot.cancel
  dsimp only
  cases stage with
  | connecting => simp [Stage.settled, Stage.pending, Stage.rejected] at hok
  | streaming => exact ⟨.ended, h.seal (quiet_abort o _) rfl⟩
  | fallback => exact ⟨.fallback, at_cancelled h (.inl rfl) (quiet_abort o _) rfl rfl⟩
  | ended => simp [Stage.listens, Stage.pending, Stage.rejected] at hok
  | refused => exact ⟨.refused, at_cancelled h (.inr rfl) (quiet_abort o _) rfl rfl⟩

theorem inv_shutdown (h : At stage ⟨o, es⟩) (hoff : o.listening = false) : At stage ⟨o.cleanup, es ++ []⟩ where
  listening := hoff.symm.trans h.listening
  promiseSettled := h.promiseSettled
  httpPending := h.httpPending
  resolved := by
    rw [List.append_nil]
    exact h.resolved
  rejected := by
    rw [List.append_nil]
    exact h.rejected
  terminals := by
    rw [List.append_nil]
    exact h.terminals
  fallbackInFlight := h.fallbackInFlight
  timer _ := rfl
  socket hon := by cases hon

theorem inv_start (input : ExecuteGatewayTaskInput) (prepared : PreparedGatewayInput) :
    Inv (.start opts input prepared) :=
  ⟨.connecting, rfl, rfl, rfl, rfl, rfl, rfl, fun _ => rfl, fun hoff => (by cases hoff),
    fun _ hclosed => (by cases hclosed)⟩

theorem inv_step {l : String × Stimulus} (h : Inv e) (hok : Orderly e l) (hstep : step opts e l = some e') :
    Inv e' := by
  obtain ⟨stage, h⟩ := h
  obtain ⟨now, stimulus⟩ := l
  obtain ⟨o, es⟩ := e
  obtain ⟨⟨o', es'⟩, hone, rfl⟩ := Option.map_eq_some_iff.mp hstep
  dsimp only at hone ⊢
  have hlistening : o.listening = stage.listens := h.listening
  cases stimulus with
  | opened =>
    simp only [OneShot.step, Option.ite_none_right_eq_some, Option.some.injEq] at hone
    obtain ⟨-, hone⟩ := hone
    cases hone
    exact ⟨stage, h.quiet quiet_nil rfl rfl rfl rfl rfl fun hclosed => (by cases hclosed)⟩
  | message frame =>
    simp only [OneShot.step, Option.ite_none_right_eq_some, Option.some.injEq] at hone
    obtain ⟨hon, hone⟩ := hone
    have hinv := inv_onMessage opts h (hlistening.symm.trans hon) hok
    rw [hone] at hinv
    exact hinv
  | error message =>
    simp only [OneShot.step, Option.ite_none_right_eq_some, Option.some.injEq] at hone
    obtain ⟨hon, hone⟩ := hone
    have hinv := inv_failBeforeAccepted now h (hlistening.symm.trans hon)
      (toGatewayExecutionError "UNAVAILABLE" (orElse message "gateway websocket request failed"))
    rw [hone] at hinv
    exact hinv
  | close code reason =>
    simp only [OneShot.step] at hone
    split at hone
    · rename_i hon
      have hinv := inv_onClose h (hlistening.symm.trans hon) hok
      rw [Option.some.inj hone] at hinv
      exact hinv
    · rename_i hoff
      cases hone
      exact ⟨stage, at_closed h (hlistening.symm.trans (Bool.eq_false_iff.mpr hoff))⟩
  | connectTimeout =>
    simp only [OneShot.step, Option.ite_none_right_eq_some, Option.some.injEq] at hone
    obtain ⟨htimer, hone⟩ := hone
    have hinv := inv_connectTimeout now h htimer
      (toGatewayExecutionError "AGENT_TIMEOUT" "gateway connect timed out")
    rw [hone] at hinv
    exact hinv
  | http outcome =>
    obtain ⟨wsError, hpending, hone⟩ := Option.map_eq_some_iff.mp hone
    have hstage : stage.pending = true := by
      rw [← h.httpPending]
      exact Option.isSome_iff_exists.mpr ⟨wsError, hpending⟩
    cases stage with
    | fallback =>
      have hinv := inv_onHttp h wsError hok
      rw [hone] at hinv
      exact hinv
    | connecting => cases hstage
    | streaming => cases hstage
    | ended => cases hstage
    | refused => cases hstage
  | cancel =>
    have hinv := inv_cancel h hok
    rw [Option.some.inj hone] at hinv
    exact hinv
  | shutdown =>
    cases hone
    exact ⟨stage, inv_shutdown h hok⟩

/-- What holds at every stage. -/
theorem Inv.settled (h : Inv e) : Settled e := by
  obtain ⟨stage, h⟩ := h
  rintro ⟨hover, hpending⟩
  cases stage with
  | connecting =>
    rcases hover with hclosed | hoff
    · exact absurd hclosed (h.socket h.listening)
    · exact absurd hoff (by simp [h.listening, Stage.listens])
  | streaming =>
    rcases hover with hclosed | hoff
    · exact absurd hclosed (h.socket h.listening)
    · exact absurd hoff (by simp [h.listening, Stage.listens])
  | fallback =>
    have hsome := h.httpPending
    rw [hpending] at hsome
    cases hsome
  | ended => exact .inr ⟨h.resolved, h.terminals⟩
  | refused => exact .inl ⟨h.rejected, h.terminals⟩

/-! ## Where the order is broken -/

/-- No way to have ended well. -/
theorem not_settled (hover : Over e.oneShot) (hrejected : rejected e.effects = false)
    (hbad : resolved e.effects = false ∨ (terminals e.effects).length ≠ 1) : ¬ Settled e := by
  intro h
  rcases h hover with ⟨hyes, -⟩ | ⟨hyes, hone⟩
  · rw [hrejected] at hyes
    cases hyes
  · rcases hbad with hno | hother
    · rw [hno] at hyes
      cases hyes
    · exact hother hone

/-- A stage that has neither ended well nor been refused, and is over with these effects. -/
theorem not_settled_at (h : At stage ⟨o, es⟩) (hpending : o'.httpPending = none)
    (hover : o'.readyState = .closed ∨ o'.listening = false) (hrejected : stage.rejected = false)
    (hquiet : rejected es' = false)
    (hbad : (stage.resolved = false ∧ resolved es' = false) ∨ (terminals (es ++ es')).length ≠ 1) :
    ¬ Settled ⟨o', es ++ es'⟩ := by
  have hresolved : resolved es = stage.resolved := h.resolved
  have hrej : rejected es = stage.rejected := h.rejected
  apply not_settled ⟨hover, hpending⟩
  · rw [rejected_append, hrej, hrejected, hquiet]
    rfl
  · rcases hbad with ⟨hno, hno'⟩ | hlength
    · refine .inl ?_
      rw [resolved_append, hresolved, hno, hno']
      rfl
    · exact .inr hlength

theorem orderly_chat (opts : Options) (h : At stage ⟨o, es⟩) (hon : stage.listens = true) {payload : EventPayload}
    (hgood : Settled ⟨(o.onChat opts now payload).1, es ++ (o.onChat opts now payload).2⟩) :
    Orderly ⟨o, es⟩ (now, .message (.chat payload)) := by
  intro hends
  cases stage with
  | streaming => exact h.promiseSettled
  | connecting =>
    obtain ⟨created, hcreated, hchat⟩ := onChat_eq opts now o payload
    obtain ⟨event, hevent, hterminal⟩ := chatTerminal_ends o now hends
    rw [hchat, hterminal] at hgood
    refine absurd hgood (not_settled_at h (httpPending_none h.httpPending) (.inr rfl) rfl ?_ (.inl ⟨rfl, ?_⟩))
    · simp [hcreated.rejected]
    · simp [hcreated.resolved]
  | fallback => cases hon
  | ended => cases hon
  | refused => cases hon

theorem orderly_close (h : At stage ⟨o, es⟩) {code : Nat} {reason : String}
    (hgood : Settled ⟨({ o with readyState := .closed }.onClose now code reason).1,
      es ++ ({ o with readyState := .closed }.onClose now code reason).2⟩) :
    Orderly ⟨o, es⟩ (now, .close code reason) := by
  intro hon hsettled hcode
  have hlistens : stage.listens = true := h.listening.symm.trans hon
  have hstage : stage.settled = true := h.promiseSettled.symm.trans hsettled
  cases stage with
  | streaming =>
    have hpromise : o.promiseSettled = true := hsettled
    unfold OneShot.onClose at hgood
    dsimp only at hgood
    rw [if_neg (by simp [hpromise]), if_neg (by simp [hcode])] at hgood
    refine absurd hgood (not_settled_at h (httpPending_none h.httpPending) (.inl rfl) rfl rfl (.inr ?_))
    have hopen : terminals es = [] := h.terminals
    simp [hopen]
  | connecting => cases hstage
  | fallback => cases hlistens
  | ended => cases hlistens
  | refused => cases hlistens

theorem orderly_cancel (h : At stage ⟨o, es⟩) (hgood : Settled ⟨(o.cancel now).1, es ++ (o.cancel now).2⟩) :
    Orderly ⟨o, es⟩ (now, .cancel) := by
  have habort := quiet_abort o (.chatAbort ("abort:" ++ o.input.taskId) o.sessionKey
    (if o.resolvedRunId = "" then none else some o.resolvedRunId))
  unfold OneShot.cancel at hgood
  dsimp only at hgood
  cases stage with
  | streaming => exact .inl ⟨h.listening, h.promiseSettled⟩
  | fallback => exact .inr (.inl h.httpPending)
  | refused => exact .inr (.inr h.rejected)
  | connecting =>
    refine absurd hgood (not_settled_at h (httpPending_none h.httpPending) (.inr rfl) rfl ?_ (.inl ⟨rfl, ?_⟩))
    · simp [habort.rejected]
    · simp [habort.resolved]
  | ended =>
    refine absurd hgood (not_settled_at h (httpPending_none h.httpPending) (.inr rfl) rfl ?_ (.inr ?_))
    · simp [habort.rejected]
    · have hone : (terminals es).length = 1 := h.terminals
      rw [terminals_append, terminals_append, habort.terminals, List.nil_append, List.length_append, hone]
      simp [OneShot.event, TaskStreamEvent.isTerminal, TaskEventDetail.isTerminal]

theorem orderly_http (h : At .fallback ⟨o, es⟩) (wsError : GatewayError) {outcome : HttpOutcome}
    (hgood : Settled ⟨(o.onHttp now wsError outcome).1, es ++ (o.onHttp now wsError outcome).2⟩) :
    Orderly ⟨o, es⟩ (now, .http outcome) := by
  cases outcome with
  | failed error => trivial
  | rejected status message => trivial
  | reply replyId reply =>
    intro hreply
    have hsettled : o.promiseSettled = false := h.promiseSettled
    unfold OneShot.onHttp at hgood
    dsimp only at hgood
    rw [if_neg hreply, if_neg (by simp [hsettled])] at hgood
    by_contra hopen
    refine absurd hgood (not_settled_at h rfl (.inr h.listening) rfl rfl (.inr ?_))
    have hpos := List.length_pos_iff.mpr hopen
    rw [terminals_append, List.length_append]
    intro hlength
    -- the fallback adds its `task.completed`
    change _ + 1 = 1 at hlength
    dsimp only at hpos
    omega

theorem orderly_of_settled {l : String × Stimulus} (h : Inv e) (hstep : step opts e l = some e') (hgood : Settled e') :
    Orderly e l := by
  obtain ⟨stage, h⟩ := h
  obtain ⟨now, stimulus⟩ := l
  obtain ⟨o, es⟩ := e
  obtain ⟨⟨o', es'⟩, hone, rfl⟩ := Option.map_eq_some_iff.mp hstep
  dsimp only at hone hgood
  have hlistening : o.listening = stage.listens := h.listening
  cases stimulus with
  | message frame =>
    simp only [OneShot.step, Option.ite_none_right_eq_some, Option.some.injEq] at hone
    obtain ⟨hon, hone⟩ := hone
    cases frame with
    | chat payload =>
      apply orderly_chat opts h (hlistening.symm.trans hon)
      rw [OneShot.onMessage] at hone
      rw [hone]
      exact hgood
    | _ => trivial
  | close code reason =>
    simp only [OneShot.step] at hone
    split at hone
    · apply orderly_close h
      rw [Option.some.inj hone]
      exact hgood
    · rename_i hoff
      intro hon
      exact absurd hon hoff
  | cancel =>
    apply orderly_cancel h
    rw [Option.some.inj hone]
    exact hgood
  | http outcome =>
    obtain ⟨wsError, hpending, hone⟩ := Option.map_eq_some_iff.mp hone
    have hstage : stage.pending = true := by
      rw [← h.httpPending]
      exact Option.isSome_iff_exists.mpr ⟨wsError, hpending⟩
    cases stage with
    | fallback =>
      apply orderly_http h wsError
      rw [hone]
      exact hgood
    | connecting => cases hstage
    | streaming => cases hstage
    | ended => cases hstage
    | refused => cases hstage
  | shutdown =>
    cases hone
    change o.listening = false
    rw [hlistening]
    cases stage with
    | connecting =>
      exact absurd hgood (not_settled_at h (httpPending_none h.httpPending) (.inr rfl) rfl rfl (.inl ⟨rfl, rfl⟩))
    | streaming =>
      refine absurd hgood (not_settled_at h (httpPending_none h.httpPending) (.inr rfl) rfl rfl (.inr ?_))
      have hopen : terminals es = [] := h.terminals
      simp [hopen]
    | fallback => rfl
    | ended => rfl
    | refused => rfl
  | _ => trivial

/-- In a run of callbacks every execution that is over is settled, if and only if the callbacks come in order. -/
theorem settled_iff_orderly (opts : Options) (input : ExecuteGatewayTaskInput) (prepared : PreparedGatewayInput)
    (callbacks : List (String × Stimulus)) (hrun : run (step opts) (.start opts input prepared) callbacks = some e) :
    Throughout (step opts) Settled (.start opts input prepared) callbacks ↔
      Along (step opts) Orderly (.start opts input prepared) callbacks :=
  throughout_iff_along (fun _ h => h.settled) (fun _ _ _ h hok hstep => inv_step h hok hstep)
    (fun _ _ _ h hstep hgood => orderly_of_settled h hstep hgood) (inv_start input prepared) hrun

/-- A run that the gateway accepts and completes. -/
def completedCallbacks : List (String × Stimulus) :=
  [("", .opened), ("", .message .challenge), ("", .message (.ok connectRequestId none none)),
    ("", .message (.ok "t" (some "r") none)), ("", .message (.chat { runId := some "r", state := some "final" }))]

theorem settled_iff_orderly_completed :
    Throughout (step defaultOptions) Settled (.start defaultOptions ⟨"t", "s", "hello"⟩ ⟨"hello", []⟩)
      completedCallbacks := by
  have hrun : (run (step defaultOptions) (.start defaultOptions ⟨"t", "s", "hello"⟩ ⟨"hello", []⟩)
      completedCallbacks).isSome = true := by decide +kernel
  exact (settled_iff_orderly _ _ _ _ (Option.some_get hrun).symm).mpr (by decide +kernel)

/-- The gateway says that the run is over before it has answered the request: the completion is emitted, and the
promise stays pending for ever. -/
theorem not_settled_final_before_response :
    ∃ e, run (step defaultOptions) (.start defaultOptions ⟨"t", "s", "hello"⟩ ⟨"hello", []⟩)
      [("", .opened), ("", .message .challenge), ("", .message (.ok connectRequestId none none)),
        ("", .message (.chat { runId := some "r", state := some "final" }))] = some e ∧
      e.oneShot.promiseSettled = false ∧ Over e.oneShot ∧ ¬ Settled e := by
  refine ⟨_, rfl, rfl, ⟨.inr rfl, rfl⟩, ?_⟩
  exact not_settled ⟨.inr rfl, rfl⟩ rfl (.inl rfl)

end Settlement
