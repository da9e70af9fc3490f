import ClawWork.RunIsolation
import ClawWork.SingleRun
import ClawWork.UpTo

/-!
# The two gateway clients on one run

The persistent client and the one-shot client get the same frames of a run: the response
that accepts it, and the agent and chat frames up to the one that ends it. They read them
differently. When an assistant frame has an artifact, the persistent client also reads its
text, which the one-shot client passes over; and of two artifacts in a chat frame they take
different ones. `InStep` says when that makes no difference to the events.
-/

namespace ClientAgreement

open JavaScript SharedTypes GatewayProtocol GatewayClient PersistentGatewayClient SingleRun UpTo

variable {opts : Options} {payload : EventPayload} {frames : List GatewayFrame} {p q : String}

/-! ## The details of the events -/

def createdDetail (artifact : Option Artifact) : List TaskEventDetail :=
  (artifact.map fun a => TaskEventDetail.resultCreated (.artifact a)).toList

/-- The artifact of a chat frame, as the one-shot client finds it. -/
def messageArtifact (opts : Options) (payload : EventPayload) : Option Artifact :=
  extractArtifactResult opts.isUrl [payload.message, payload.data.map Json.obj]

/-- What a text adds to the one before, when that is sent. -/
def addition (next previous : String) : Option String :=
  if (normalizeAssistantDelta next previous).1 = "" then none else some (normalizeAssistantDelta next previous).1

def deltaDetails (delta : Option String) : List TaskEventDetail := (delta.map TaskEventDetail.delta).toList

def endDetails (payload : EventPayload) : List TaskEventDetail :=
  match payload.state with
  | some "error" => [.failed "GATEWAY_ERROR" (payload.errorMessage.getD "gateway task failed")]
  | some "aborted" => [.failed "GATEWAY_ABORTED" "gateway task was aborted"]
  | some "final" => [.completed]
  | _ => []

/-- What the persistent client emits for the frames of a run; `p` is the last text of the assistant. -/
def persistentDetails (opts : Options) (p : String) : List GatewayFrame → List TaskEventDetail
  | [] => []
  | .agent payload :: frames =>
    if payload.stream = some "assistant" then
      createdDetail (Registry.frameArtifact opts payload) ++
        (deltaDetails (addition (assistantSnapshot opts payload) p) ++
          persistentDetails opts (assistantSnapshot opts payload) frames)
    else
      (if (Registry.frameArtifact opts payload).isNone then [.stageChanged (payload.stream.getD "agent")]
        else createdDetail (Registry.frameArtifact opts payload)) ++ persistentDetails opts p frames
  | .chat payload :: frames =>
    createdDetail (Registry.frameArtifact opts payload) ++
      (endDetails payload ++ if Registry.endsRun payload then [] else persistentDetails opts p frames)
  | _ :: frames => persistentDetails opts p frames

/-- What the one-shot client emits; `q` is the last text of the assistant that came without an artifact. -/
def oneShotDetails (opts : Options) (q : String) : List GatewayFrame → List TaskEventDetail
  | [] => []
  | .agent payload :: frames =>
    match Registry.frameArtifact opts payload with
    | some artifact => createdDetail (some artifact) ++ oneShotDetails opts q frames
    | none =>
      if payload.stream = some "assistant" then
        deltaDetails (addition (assistantSnapshot opts payload) q) ++
          oneShotDetails opts (assistantSnapshot opts payload) frames
      else .stageChanged (payload.stream.getD "agent") :: oneShotDetails opts q frames
  | .chat payload :: frames =>
    createdDetail (messageArtifact opts payload) ++
      (endDetails payload ++ if Registry.endsRun payload then [] else oneShotDetails opts q frames)
  | _ :: frames => oneShotDetails opts q frames

/-- The frames of a run make no difference between the clients, when the persistent client has sent the text
`ahead` that the one-shot client has not. -/
def InStep (opts : Options) (p q : String) (ahead : Option String) : List GatewayFrame → Prop
  | [] => ahead = none
  | .agent payload :: frames =>
    if payload.stream = some "assistant" then
      match Registry.frameArtifact opts payload with
      | some _ =>
        -- the one-shot client does not read the text
        ahead = none ∧ InStep opts (assistantSnapshot opts payload) q
          (addition (assistantSnapshot opts payload) p) frames
      | none =>
        ahead.toList ++ (addition (assistantSnapshot opts payload) p).toList =
            (addition (assistantSnapshot opts payload) q).toList ∧
          InStep opts (assistantSnapshot opts payload) (assistantSnapshot opts payload) none frames
    else ahead = none ∧ InStep opts p q none frames
  | .chat payload :: frames =>
    Registry.frameArtifact opts payload = messageArtifact opts payload ∧
      ((Registry.frameArtifact opts payload).isSome ∨ Registry.endsRun payload = true → ahead = none) ∧
      (Registry.endsRun payload = true ∨ InStep opts p q ahead frames)
  | _ :: frames => InStep opts p q ahead frames

def isDelta : TaskEventDetail → Bool
  | .delta _ => true
  | _ => false

theorem isDelta_deltaDetails {delta : Option String} : ∀ d ∈ deltaDetails delta, isDelta d = true := by
  intro d hd
  cases delta with
  | none => cases hd
  | some text =>
    rw [deltaDetails, Option.map_some, Option.toList_some, List.mem_singleton] at hd
    rw [hd]
    rfl

theorem deltaDetails_inj {ds es : List String} :
    ds.map TaskEventDetail.delta = es.map TaskEventDetail.delta ↔ ds = es := by
  refine (List.map_injective_iff.mpr ?_).eq_iff
  intro d e h
  exact TaskEventDetail.delta.inj h

theorem deltaDetails_eq (delta : Option String) : deltaDetails delta = delta.toList.map TaskEventDetail.delta := by
  cases delta <;> rfl

/-- Which artifact is found depends on the order, whether there is one does not. -/
theorem messageArtifact_isNone (opts : Options) (payload : EventPayload) :
    (messageArtifact opts payload).isNone = (Registry.frameArtifact opts payload).isNone := by
  simp only [messageArtifact, Registry.frameArtifact, extractArtifactResult, List.findSome?_cons, List.findSome?_nil]
  cases (payload.message.bind (normalizeArtifactPayload opts.isUrl)).bind (parseArtifactResult opts.isUrl) <;>
    cases ((payload.data.map Json.obj).bind (normalizeArtifactPayload opts.isUrl)).bind
      (parseArtifactResult opts.isUrl) <;> rfl

theorem endDetails_eq_nil : endDetails payload = [] ↔ Registry.endsRun payload = false := by
  unfold endDetails Registry.endsRun
  split <;> simp_all

/-- Where a frame emits an event that is no delta, nothing may be ahead. -/
theorem ahead_iff (ahead : Option String) {d e : TaskEventDetail} {ds es : List TaskEventDetail}
    (he : isDelta e = false) : deltaDetails ahead ++ d :: ds = e :: es ↔ ahead = none ∧ d = e ∧ ds = es := by
  cases ahead with
  | none => simp [deltaDetails]
  | some text =>
    simp only [deltaDetails, Option.map_some, Option.toList_some, List.cons_append, List.nil_append, List.cons.injEq,
      reduceCtorEq, false_and, iff_false, not_and]
    intro htext
    rw [← htext] at he
    cases he

theorem isDelta_endDetails : ∀ d ∈ endDetails payload, isDelta d = false := by
  unfold endDetails
  split <;> simp [isDelta]

/-- With the same text before them, the clients send the same deltas up to the first event of another kind. -/
theorem leading_eq (s : String) (frames : List GatewayFrame) :
    (persistentDetails opts s frames).takeWhile isDelta = (oneShotDetails opts s frames).takeWhile isDelta := by
  induction frames generalizing s with
  | nil => rfl
  | cons frame frames ih =>
    cases frame with
    | agent payload =>
      rw [persistentDetails, oneShotDetails]
      by_cases hstream : payload.stream = some "assistant"
      · rw [if_pos hstream]
        cases Registry.frameArtifact opts payload with
        | none =>
          show (deltaDetails _ ++ _).takeWhile isDelta = (if _ then _ else _ : List TaskEventDetail).takeWhile isDelta
          rw [if_pos hstream, List.takeWhile_append_of_pos isDelta_deltaDetails,
            List.takeWhile_append_of_pos isDelta_deltaDetails, ih]
        | some artifact => rfl
      · rw [if_neg hstream]
        cases Registry.frameArtifact opts payload with
        | none =>
          show _ = (if _ then _ else _ : List TaskEventDetail).takeWhile isDelta
          rw [if_neg hstream]
          rfl
        | some artifact => rfl
    | chat payload =>
      rw [persistentDetails, oneShotDetails]
      have hnone := messageArtifact_isNone opts payload
      cases hdata : Registry.frameArtifact opts payload with
      | none =>
        rw [hdata, Option.isNone_none, Option.isNone_iff_eq_none] at hnone
        rw [hnone]
        cases hend : endDetails payload with
        | nil =>
          rw [endDetails_eq_nil] at hend
          simpa [createdDetail, hend] using ih s
        | cons d ds =>
          have hd := isDelta_endDetails d (by rw [hend]; exact List.mem_cons_self)
          simp [createdDetail, hd]
      | some artifact =>
        rw [hdata, Option.isNone_some, Option.isNone_eq_false_iff, Option.isSome_iff_exists] at hnone
        obtain ⟨other, hother⟩ := hnone
        rw [hother]
        rfl
    | _ => exact ih s

/-- With the same text before them, what one client has sent more stays more. -/
theorem cancel_leading {s : String} {ds es : List TaskEventDetail} (hds : ∀ d ∈ ds, isDelta d = true)
    (hes : ∀ e ∈ es, isDelta e = true) :
    ds ++ persistentDetails opts s frames = es ++ oneShotDetails opts s frames ↔
      ds = es ∧ persistentDetails opts s frames = oneShotDetails opts s frames := by
  constructor
  · intro h
    have hleading := congrArg (List.takeWhile isDelta) h
    rw [List.takeWhile_append_of_pos hds, List.takeWhile_append_of_pos hes, leading_eq] at hleading
    have hsame := List.append_cancel_right hleading
    rw [hsame] at h
    exact ⟨hsame, List.append_cancel_left h⟩
  · rintro ⟨rfl, h⟩
    rw [h]

/-- The condition is exact: nothing else evens the differences out. -/
theorem details_eq_iff (p q : String) (ahead : Option String) (frames : List GatewayFrame) :
    deltaDetails ahead ++ persistentDetails opts p frames = oneShotDetails opts q frames ↔
      InStep opts p q ahead frames := by
  induction frames generalizing p q ahead with
  | nil => cases ahead <;> simp [persistentDetails, oneShotDetails, InStep, deltaDetails]
  | cons frame frames ih =>
    cases frame with
    | agent payload =>
      rw [persistentDetails, oneShotDetails, InStep]
      by_cases hstream : payload.stream = some "assistant"
      · simp only [if_pos hstream]
        cases Registry.frameArtifact opts payload with
        | none =>
          show deltaDetails ahead ++ (deltaDetails _ ++ _) = deltaDetails _ ++ _ ↔ _ ∧ _
          rw [← List.append_assoc, cancel_leading, ← ih]
          · rw [deltaDetails_eq, deltaDetails_eq, deltaDetails_eq, ← List.map_append, deltaDetails_inj]
            rfl
          · exact List.forall_mem_append.mpr ⟨isDelta_deltaDetails, isDelta_deltaDetails⟩
          · exact isDelta_deltaDetails
        | some artifact =>
          show deltaDetails ahead ++ .resultCreated (.artifact artifact) :: (deltaDetails _ ++ _) =
            .resultCreated (.artifact artifact) :: oneShotDetails opts q frames ↔ ahead = none ∧ _
          rw [ahead_iff ahead rfl, ← ih, eq_self_iff_true, true_and]
      · simp only [if_neg hstream]
        have hrest := ih p q none
        rw [deltaDetails, Option.map_none, Option.toList_none, List.nil_append] at hrest
        cases Registry.frameArtifact opts payload with
        | none =>
          show deltaDetails ahead ++ .stageChanged _ :: persistentDetails opts p frames = .stageChanged _ :: _ ↔ _
          rw [ahead_iff ahead rfl, hrest, eq_self_iff_true, true_and]
        | some artifact =>
          show deltaDetails ahead ++ .resultCreated (.artifact artifact) :: persistentDetails opts p frames =
            .resultCreated (.artifact artifact) :: oneShotDetails opts q frames ↔ _
          rw [ahead_iff ahead rfl, hrest, eq_self_iff_true, true_and]
    | chat payload =>
      rw [persistentDetails, oneShotDetails, InStep]
      have hnone := messageArtifact_isNone opts payload
      cases hdata : Registry.frameArtifact opts payload with
      | none =>
        rw [hdata, Option.isNone_none, Option.isNone_iff_eq_none] at hnone
        rw [hnone]
        cases hends : Registry.endsRun payload with
        | false =>
          have hnil := endDetails_eq_nil.mpr hends
          rw [hnil]
          simpa [createdDetail] using ih p q ahead
        | true =>
          have hne : endDetails payload ≠ [] := by simp [Ne, endDetails_eq_nil, hends]
          obtain ⟨d, ds, hend⟩ := List.exists_cons_of_ne_nil hne
          have hd := isDelta_endDetails d (by rw [hend]; exact List.mem_cons_self)
          have hahead : deltaDetails ahead ++ d :: ds = d :: ds ↔ ahead = none ∧ d = d ∧ ds = ds := ahead_iff ahead hd
          simpa [createdDetail, hend] using hahead
      | some artifact =>
        rw [hdata, Option.isNone_some, Option.isNone_eq_false_iff, Option.isSome_iff_exists] at hnone
        obtain ⟨other, hother⟩ := hnone
        rw [hother]
        show deltaDetails ahead ++ .resultCreated (.artifact artifact) :: (endDetails payload ++ _) =
          .resultCreated (.artifact other) :: (endDetails payload ++ _) ↔ _
        rw [ahead_iff ahead rfl, List.append_cancel_left_eq]
        have hrest := ih p q none
        rw [deltaDetails, Option.map_none, Option.toList_none, List.nil_append] at hrest
        have hsame : TaskEventDetail.resultCreated (.artifact artifact) = .resultCreated (.artifact other) ↔
            artifact = other := by simp
        rw [hsame]
        cases hends : Registry.endsRun payload with
        | false =>
          simp only [Bool.false_eq_true, if_false, Option.some.injEq, Option.isSome_some, true_or, forall_const,
            false_or, hrest]
          constructor
          · rintro ⟨rfl, rfl, h⟩
            exact ⟨rfl, rfl, h⟩
          · rintro ⟨rfl, rfl, h⟩
            exact ⟨rfl, rfl, h⟩
        | true => simp [and_comm]
    | challenge => exact ih p q ahead
    | ok id runId key => exact ih p q ahead
    | error id code message => exact ih p q ahead
    | other => exact ih p q ahead

/-! ## The events of the two clients -/

variable {c : Client} {o : OneShot} {x : Nat} {input : ExecuteGatewayTaskInput} {r named now : String}
  {arrivals : List Arrival}

/-- The event apart from its time. -/
def untimed (event : TaskStreamEvent) : TaskStreamEvent := { event with timestamp := "" }

def label (input : ExecuteGatewayTaskInput) (runId : String) (d : TaskEventDetail) : TaskStreamEvent :=
  ⟨d, input.taskId, input.sessionId, runId, ""⟩

/-- An agent or chat frame of the run. -/
def Carries (r : String) : GatewayFrame → Prop
  | .agent payload => payload.runId = some r
  | .chat payload => payload.runId = some r
  | _ => False

/-- The frame ends the run. -/
def ends (arrival : Arrival) : Bool :=
  match arrival.frame with
  | .chat payload => Registry.endsRun payload
  | _ => false

/-- The run of call `x` has this run id. -/
structure Labelled (c : Client) (x : Nat) (input : ExecuteGatewayTaskInput) (named : String) : Prop where
  nonempty : named ≠ ""
  input : (c.registry.tasks x).input = input
  runId : (c.registry.tasks x).runId = named

/-- The object of call `x` is known under its run id, and this is the last text of the assistant. -/
structure Running (c : Client) (x : Nat) (input : ExecuteGatewayTaskInput) (named p : String) : Prop
    extends Labelled c x input named where
  run : c.registry.taskByRun.get named = some x
  snapshot : (c.registry.tasks x).lastAssistantSnapshot = p

/-- The one-shot client hears the frames of the run. -/
structure Listening (o : OneShot) (input : ExecuteGatewayTaskInput) (named q : String) : Prop where
  nonempty : named ≠ ""
  listening : o.listening = true
  input : o.input = input
  runId : o.resolvedRunId = named
  snapshot : o.lastAssistantSnapshot = q

theorem untimed_event {r : Registry} (hnamed : named ≠ "") (hinput : (r.tasks x).input = input)
    (hrunId : (r.tasks x).runId = named) (d : TaskEventDetail) : untimed (r.event x d) = label input named d := by
  simp [untimed, Registry.event, label, hinput, hrunId, orElse, hnamed]

theorem Running.findActive (h : Running c x input named p) (hr : payload.runId = some named) :
    (tick c now).registry.findActive payload.runId payload.sessionKey = some x := by
  have hrun : (tick c now).registry.taskByRun.get named = some x := h.run
  rw [hr, Registry.findActive_named h.nonempty hrun]

theorem Labelled.untimed_map (h : Labelled c x input named) (ds : List TaskEventDetail) :
    (ds.map ((tick c now).registry.event x)).map untimed = ds.map (label input named) := by
  rw [List.map_map]
  exact List.map_congr_left fun d _ => untimed_event h.nonempty h.input h.runId d

theorem onAgent_taskByRun (opts : Options) (payload : EventPayload) (r : Registry) (y : Nat) :
    (r.onAgent opts y payload).taskByRun = r.taskByRun := by
  have hcreated : (r.emitArtifact y (Registry.frameArtifact opts payload)).taskByRun = r.taskByRun := by
    cases Registry.frameArtifact opts payload <;> rfl
  unfold Registry.onAgent
  dsimp only
  split
  · split <;> simp [hcreated]
  · split <;> simp [hcreated]

/-- Of the objects, the frame changes the text of its own. -/
theorem onAgent_tasks (opts : Options) (payload : EventPayload) (r : Registry) (y x : Nat) :
    (r.onAgent opts y payload).tasks x = if x = y ∧ payload.stream = some "assistant" then
      { r.tasks x with lastAssistantSnapshot := assistantSnapshot opts payload }
    else r.tasks x := by
  unfold Registry.onAgent
  simp only [normalizeAssistantDelta_snd]
  by_cases hstream : payload.stream = some "assistant"
  · rw [if_pos hstream]
    by_cases hxy : x = y
    · subst hxy
      split <;> simp [Registry.emitArtifact_tasks, hstream]
    · split <;> simp [Registry.emitArtifact_tasks, hxy]
  · rw [if_neg hstream]
    split <;> simp [Registry.emitArtifact_tasks, hstream]

theorem running_agent (opts : Options) (now : String) (h : Running c x input named p)
    (hr : payload.runId = some named) :
    Running (receive opts c ⟨now, .agent payload⟩) x input named
      (if payload.stream = some "assistant" then assistantSnapshot opts payload else p) := by
  rw [receive, Client.handleMessage, h.findActive hr]
  have htasks := onAgent_tasks opts payload (tick c now).registry x x
  have hrun := onAgent_taskByRun opts payload (tick c now).registry x
  by_cases hstream : payload.stream = some "assistant"
  · rw [if_pos ⟨rfl, hstream⟩] at htasks
    rw [if_pos hstream]
    exact ⟨⟨h.nonempty, by rw [htasks]; exact h.input, by rw [htasks]; exact h.runId⟩, by rw [hrun]; exact h.run,
      by rw [htasks]⟩
  · rw [if_neg fun hboth => hstream hboth.2] at htasks
    rw [if_neg hstream]
    exact ⟨⟨h.nonempty, by rw [htasks]; exact h.input, by rw [htasks]; exact h.runId⟩, by rw [hrun]; exact h.run,
      by rw [htasks]; exact h.snapshot⟩

theorem onChat_of_going (r : Registry) (y : Nat) (hends : Registry.endsRun payload = false) :
    r.onChat opts y payload = r.emitArtifact y (Registry.frameArtifact opts payload) := by
  unfold Registry.onChat
  dsimp only
  split
  · simp_all [Registry.endsRun]
  · simp_all [Registry.endsRun]
  · simp_all [Registry.endsRun]
  · rfl

theorem running_chat (opts : Options) (now : String) (h : Running c x input named p) (hr : payload.runId = some named)
    (hends : Registry.endsRun payload = false) : Running (receive opts c ⟨now, .chat payload⟩) x input named p := by
  rw [receive, Client.handleMessage, h.findActive hr]
  dsimp only
  rw [onChat_of_going _ x hends]
  cases Registry.frameArtifact opts payload <;> exact ⟨⟨h.nonempty, h.input, h.runId⟩, h.run, h.snapshot⟩

theorem chatDetails_eq : Registry.chatDetails opts payload =
    createdDetail (Registry.frameArtifact opts payload) ++ endDetails payload := rfl

theorem agentDetails_eq (h : Running c x input named p) :
    Registry.agentDetails opts c.registry x payload = createdDetail (Registry.frameArtifact opts payload) ++
      if payload.stream = some "assistant" then deltaDetails (addition (assistantSnapshot opts payload) p)
      else if (Registry.frameArtifact opts payload).isNone then
        [.stageChanged (payload.stream.getD "agent")] else [] := by
  simp only [Registry.agentDetails, h.snapshot, createdDetail, addition, deltaDetails]
  congr 1
  split
  · split <;> rfl
  · rfl

/-- The persistent client emits the events that `persistentDetails` tells. -/
theorem emitted_frames (h : Running c x input named p) (hcarries : ∀ a ∈ arrivals, Carries named a.frame) :
    (emitted opts c x (upTo ends arrivals)).map untimed =
      (persistentDetails opts p (arrivals.map Arrival.frame)).map (label input named) := by
  induction arrivals generalizing c p with
  | nil => simp [upTo, persistentDetails]
  | cons arrival arrivals ih =>
    rw [List.forall_mem_cons] at hcarries
    obtain ⟨now, frame⟩ := arrival
    obtain ⟨hr, hrest⟩ := hcarries
    cases frame with
    | agent payload =>
      have hnext := ih (running_agent opts now h hr) hrest
      have hgoes : ends ⟨now, .agent payload⟩ = false := rfl
      rw [upTo, hgoes, if_neg Bool.false_ne_true, emitted_cons, List.map_append, hnext, emitted_agent (h.findActive hr),
        h.untimed_map, agentDetails_eq h, List.map_cons, persistentDetails]
      by_cases hstream : payload.stream = some "assistant"
      · simp only [if_pos hstream, List.map_append, List.append_assoc]
      · simp only [if_neg hstream]
        cases Registry.frameArtifact opts payload <;> simp [createdDetail]
    | chat payload =>
      rw [upTo, List.map_cons, persistentDetails]
      cases hends : Registry.endsRun payload with
      | true =>
        have hstops : ends ⟨now, .chat payload⟩ = true := hends
        rw [hstops, if_pos rfl, emitted_chat (h.findActive hr), h.untimed_map, chatDetails_eq, if_pos rfl,
          List.append_nil]
      | false =>
        have hnext := ih (running_chat opts now h hr hends) hrest
        have hgoes : ends ⟨now, .chat payload⟩ = false := hends
        rw [hgoes, if_neg Bool.false_ne_true, emitted_cons, List.map_append, hnext, emitted_chat (h.findActive hr),
          h.untimed_map, chatDetails_eq, if_neg Bool.false_ne_true, List.map_append, List.map_append, List.map_append,
          List.append_assoc]
    | _ => exact absurd hr id

theorem untimed_oneShot (hinput : o.input = input) (runId : String) (d : TaskEventDetail) :
    untimed (o.event now runId d) = label input runId d := by
  rw [← hinput]
  rfl

/-- The new state and the events of an agent frame. -/
theorem hear_agent (opts : Options) (now : String) (h : Listening o input named q) (hr : payload.runId = some r) :
    Listening (hear opts o ⟨now, .agent payload⟩).1 input named
        (if Registry.frameArtifact opts payload = none ∧ payload.stream = some "assistant" then
          assistantSnapshot opts payload else q) ∧
      ((hear opts o ⟨now, .agent payload⟩).2.filterMap eventOfEffect).map untimed =
        (match Registry.frameArtifact opts payload with
        | some artifact => createdDetail (some artifact)
        | none =>
          if payload.stream = some "assistant" then deltaDetails (addition (assistantSnapshot opts payload) q)
          else [.stageChanged (payload.stream.getD "agent")]).map (label input r) := by
  have hstep : hear opts o ⟨now, .agent payload⟩ = o.onAgent opts now payload := by
    rw [hear, OneShot.step, if_pos h.listening, Option.getD_some, OneShot.onMessage]
  have hrunId : o.frameRunId payload = r := by rw [OneShot.frameRunId, hr, Option.getD_some]
  have hartifact : extractArtifactResult opts.isUrl [payload.data.map Json.obj, payload.message] =
      Registry.frameArtifact opts payload := rfl
  rw [hstep]
  unfold OneShot.onAgent
  rw [hrunId, hartifact]
  cases Registry.frameArtifact opts payload with
  | some artifact => exact ⟨h, congrArg (fun e => [e]) (untimed_oneShot h.input r _)⟩
  | none =>
    dsimp only
    by_cases hstream : payload.stream = some "assistant"
    · simp only [hstream, and_self, if_true, normalizeAssistantDelta_snd, h.snapshot]
      refine ⟨⟨h.nonempty, h.listening, h.input, h.runId, rfl⟩, ?_⟩
      unfold addition
      split
      · rfl
      · exact congrArg (fun e => [e]) (untimed_oneShot h.input r _)
    · rw [if_neg hstream, if_neg fun hboth => hstream hboth.2, if_neg hstream]
      exact ⟨h, congrArg (fun e => [e]) (untimed_oneShot h.input r _)⟩

/-- The events of a chat frame: its failures are labelled with the run id of the response. -/
def chatEvents (input : ExecuteGatewayTaskInput) (named r : String) (opts : Options) (payload : EventPayload) :
    List TaskStreamEvent :=
  (createdDetail (messageArtifact opts payload)).map (label input r) ++
    (endDetails payload).map (label input (if payload.state = some "final" then r else named))

theorem hear_chat (opts : Options) (now : String) (h : Listening o input named q) (hr : payload.runId = some r) :
    (Registry.endsRun payload = false → Listening (hear opts o ⟨now, .chat payload⟩).1 input named q) ∧
      ((hear opts o ⟨now, .chat payload⟩).2.filterMap eventOfEffect).map untimed =
        chatEvents input named r opts payload := by
  have hstep : hear opts o ⟨now, .chat payload⟩ = o.onChat opts now payload := by
    rw [hear, OneShot.step, if_pos h.listening, Option.getD_some, OneShot.onMessage]
  have hrunId : o.frameRunId payload = r := by rw [OneShot.frameRunId, hr, Option.getD_some]
  have hown : o.ownRunId = named := by simp [OneShot.ownRunId, h.runId, orElse, h.nonempty]
  have hartifact : extractArtifactResult opts.isUrl [payload.message, payload.data.map Json.obj] =
      messageArtifact opts payload := rfl
  have hterminal : (Registry.endsRun payload = false → Listening (o.chatTerminal now payload).1 input named q) ∧
      ((o.chatTerminal now payload).2.filterMap eventOfEffect).map untimed =
        (endDetails payload).map (label input (if payload.state = some "final" then r else named)) := by
    unfold OneShot.chatTerminal
    split
    · rename_i hstate
      refine ⟨by simp [Registry.endsRun, hstate], ?_⟩
      simp only [endDetails, OneShot.failAfterAccepted, hown, hstate]
      exact congrArg (fun e => [e]) (untimed_oneShot h.input named _)
    · rename_i hstate
      refine ⟨by simp [Registry.endsRun, hstate], ?_⟩
      simp only [endDetails, OneShot.failAfterAccepted, hown, hstate]
      exact congrArg (fun e => [e]) (untimed_oneShot h.input named _)
    · rename_i hstate
      refine ⟨by simp [Registry.endsRun, hstate], ?_⟩
      simp only [endDetails, hrunId, hstate]
      exact congrArg (fun e => [e]) (untimed_oneShot h.input r _)
    · rename_i herror haborted hfinal
      have hnil : endDetails payload = [] :=
        endDetails_eq_nil.mpr (by simpa [Registry.endsRun] using ⟨⟨herror, haborted⟩, hfinal⟩)
      rw [hnil]
      exact ⟨fun _ => h, rfl⟩
  rw [hstep]
  unfold OneShot.onChat
  rw [hrunId, hartifact]
  refine ⟨hterminal.1, ?_⟩
  dsimp only
  rw [chatEvents, List.filterMap_append, List.map_append, hterminal.2]
  congr 1
  cases messageArtifact opts payload with
  | none => rfl
  | some artifact => exact congrArg (fun e => [e]) (untimed_oneShot h.input r _)

/-- The one-shot client emits the events that `oneShotDetails` tells. -/
theorem heard_frames (h : Listening o input named q) (hcarries : ∀ a ∈ arrivals, Carries named a.frame) :
    (heard opts o (upTo ends arrivals)).map untimed =
      (oneShotDetails opts q (arrivals.map Arrival.frame)).map (label input named) := by
  induction arrivals generalizing o q with
  | nil => rfl
  | cons arrival arrivals ih =>
    rw [List.forall_mem_cons] at hcarries
    obtain ⟨now, frame⟩ := arrival
    obtain ⟨hr, hrest⟩ := hcarries
    cases frame with
    | agent payload =>
      obtain ⟨hlistening, hevents⟩ := hear_agent opts now h hr
      have hnext := ih hlistening hrest
      have hgoes : ends ⟨now, .agent payload⟩ = false := rfl
      rw [upTo, hgoes, if_neg Bool.false_ne_true, heard, List.map_append, hnext, hevents, List.map_cons, oneShotDetails]
      cases Registry.frameArtifact opts payload with
      | some artifact => simp
      | none => by_cases hstream : payload.stream = some "assistant" <;> simp [hstream]
    | chat payload =>
      obtain ⟨hlistening, hevents⟩ := hear_chat opts now h hr
      have hchat : chatEvents input named named opts payload =
          (createdDetail (messageArtifact opts payload) ++ endDetails payload).map (label input named) := by
        rw [chatEvents, ite_self, List.map_append]
      rw [upTo, List.map_cons, oneShotDetails]
      cases hends : Registry.endsRun payload with
      | true =>
        have hstops : ends ⟨now, .chat payload⟩ = true := hends
        rw [hstops, if_pos rfl, heard, heard, List.append_nil, hevents, hchat, if_pos rfl, List.append_nil]
      | false =>
        have hnext := ih (hlistening hends) hrest
        have hgoes : ends ⟨now, .chat payload⟩ = false := hends
        rw [hgoes, if_neg Bool.false_ne_true, heard, List.map_append, hnext, hevents, hchat, if_neg Bool.false_ne_true,
          ← List.map_append, List.append_assoc]
    | _ => exact absurd hr id

/-! ## Frames whose run id is not the one of the response -/

/-- The persistent client takes the frame for one of call `x`. -/
def Found (c : Client) (x : Nat) (payload : EventPayload) : Prop :=
  c.registry.findActive payload.runId payload.sessionKey = some x

/-- No frame leads to an event, except a failure that both clients emit. -/
def Muted (opts : Options) (found : EventPayload → Prop) : List GatewayFrame → Prop
  | [] => True
  | .agent payload :: frames =>
    payload.stream = some "assistant" ∧ Registry.frameArtifact opts payload = none ∧
      assistantSnapshot opts payload = "" ∧ Muted opts found frames
  | .chat payload :: frames =>
    Registry.frameArtifact opts payload = none ∧
      if Registry.endsRun payload then payload.state ≠ some "final" ∧ found payload else Muted opts found frames
  | _ :: frames => Muted opts found frames

theorem Found.at_tick (h : Found c x payload) (now : String) :
    (tick c now).registry.findActive payload.runId payload.sessionKey = some x := h

theorem findActive_congr {reg reg' : Registry} {runId key : Option String} (hrun : reg'.byRun runId = reg.byRun runId)
    (hactive : reg'.activeByTask = reg.activeByTask)
    (hkeys : ∀ y, (reg'.tasks y).sessionKey = (reg.tasks y).sessionKey) :
    reg'.findActive runId key = reg.findActive runId key := by
  unfold Registry.findActive Registry.fallbackActive
  simp only [hrun, hactive, hkeys]

theorem found_agent (opts : Options) (now : String) (other : EventPayload) :
    Found (receive opts c ⟨now, .agent payload⟩) x other ↔ Found c x other := by
  unfold Found receive Client.handleMessage
  dsimp only
  split
  · rename_i y hy
    have hsame : ((tick c now).registry.onAgent opts y payload).findActive other.runId other.sessionKey =
        (tick c now).registry.findActive other.runId other.sessionKey := by
      apply findActive_congr
      · rw [Registry.byRun, onAgent_taskByRun]
        rfl
      · exact RunIsolation.onAgent_activeByTask opts _ y payload
      · intro z
        rw [onAgent_tasks]
        split <;> rfl
    rw [hsame]
    rfl
  · rfl

/-- The objects after an agent frame. -/
theorem receive_agent_tasks (opts : Options) (c : Client) (payload : EventPayload) (now : String) (x : Nat) :
    ((receive opts c ⟨now, .agent payload⟩).registry.tasks x) = c.registry.tasks x ∨
      payload.stream = some "assistant" ∧ (receive opts c ⟨now, .agent payload⟩).registry.tasks x =
        { c.registry.tasks x with lastAssistantSnapshot := assistantSnapshot opts payload } := by
  unfold receive Client.handleMessage
  dsimp only
  split
  · dsimp only
    rw [onAgent_tasks]
    split
    · rename_i hboth
      exact .inr ⟨hboth.2, rfl⟩
    · exact .inl rfl
  · exact .inl rfl

/-- A frame that is taken for one of another call gives nothing to this one. -/
theorem emitted_of_other {arrival : Arrival} {reg : Registry} {y : Nat} {ds : List TaskEventDetail} (hxy : y ≠ x)
    (h : (receive opts c arrival).registry.log = c.registry.log ++ ds.map (entry reg y)) :
    emitted opts c x [arrival] = [] := by
  rw [emitted, receiveAll, List.foldl_cons, List.foldl_nil, h, List.drop_left, List.filterMap_map,
    List.filterMap_eq_nil_iff]
  intro d _
  simp [eventOf, entry, hxy]

theorem emitted_of_same {arrival : Arrival} (h : (receive opts c arrival).registry.log = c.registry.log) :
    emitted opts c x [arrival] = [] := by
  rw [emitted, receiveAll, List.foldl_cons, List.foldl_nil, h, List.drop_length, List.filterMap_nil]

theorem emitted_agent_lost (opts : Options) (now : String) (h : ¬ Found c x payload) :
    emitted opts c x [⟨now, .agent payload⟩] = [] := by
  cases hfind : (tick c now).registry.findActive payload.runId payload.sessionKey with
  | none =>
    apply emitted_of_same
    rw [receive, Client.handleMessage, hfind]
    rfl
  | some y =>
    have hxy : y ≠ x := by
      rintro rfl
      exact h hfind
    have hlog : (receive opts c ⟨now, .agent payload⟩).registry.log = c.registry.log ++
        (Registry.agentDetails opts (tick c now).registry y payload).map (entry (tick c now).registry y) := by
      rw [receive, Client.handleMessage, hfind]
      exact log_onAgent
    exact emitted_of_other hxy hlog

theorem emitted_chat_lost (opts : Options) (now : String) (h : ¬ Found c x payload) :
    emitted opts c x [⟨now, .chat payload⟩] = [] := by
  cases hfind : (tick c now).registry.findActive payload.runId payload.sessionKey with
  | none =>
    apply emitted_of_same
    rw [receive, Client.handleMessage, hfind]
    rfl
  | some y =>
    have hxy : y ≠ x := by
      rintro rfl
      exact h hfind
    have hlog : (receive opts c ⟨now, .chat payload⟩).registry.log = c.registry.log ++
        (Registry.chatDetails opts payload).map (entry (tick c now).registry y) := by
      rw [receive, Client.handleMessage, hfind]
      exact log_onChat
    exact emitted_of_other hxy hlog

theorem labelled_agent (opts : Options) (now : String) (h : Labelled c x input named) :
    Labelled (receive opts c ⟨now, .agent payload⟩) x input named := by
  rcases receive_agent_tasks opts c payload now x with htasks | ⟨-, htasks⟩
  · exact ⟨h.nonempty, by rw [htasks]; exact h.input, by rw [htasks]; exact h.runId⟩
  · exact ⟨h.nonempty, by rw [htasks]; exact h.input, by rw [htasks]; exact h.runId⟩

theorem labelled_chat (opts : Options) (now : String) (h : Labelled c x input named)
    (hends : Registry.endsRun payload = false) : Labelled (receive opts c ⟨now, .chat payload⟩) x input named := by
  unfold receive Client.handleMessage
  dsimp only
  split
  · rw [onChat_of_going _ _ hends]
    refine ⟨h.nonempty, ?_, ?_⟩
    · rw [Registry.emitArtifact_tasks]
      exact h.input
    · rw [Registry.emitArtifact_tasks]
      exact h.runId
  · exact ⟨h.nonempty, h.input, h.runId⟩

theorem agentDetails_unaccepted (reg : Registry) :
    ∀ d ∈ Registry.agentDetails opts reg x payload, d.isAccepted = false := by
  intro d hd
  unfold Registry.agentDetails at hd
  rcases List.mem_append.mp hd with hd | hd
  · simp only [Option.mem_toList, Option.map_eq_some_iff] at hd
    obtain ⟨artifact, -, rfl⟩ := hd
    rfl
  · split at hd
    · split at hd
      · cases hd
      · rw [List.mem_singleton.mp hd]
        rfl
    · split at hd
      · rw [List.mem_singleton.mp hd]
        rfl
      · cases hd

theorem createdDetail_unaccepted (artifact : Option Artifact) : ∀ d ∈ createdDetail artifact, d.isAccepted = false := by
  intro d hd
  simp only [createdDetail, Option.mem_toList, Option.map_eq_some_iff] at hd
  obtain ⟨artifact, -, rfl⟩ := hd
  rfl

theorem endDetails_unaccepted : ∀ d ∈ endDetails payload, d.isAccepted = false := by
  unfold endDetails
  split <;> simp [TaskEventDetail.isAccepted]

/-- What the persistent client emits for call `x`, whatever it takes the frame for. -/
theorem emitted_single (opts : Options) (c : Client) (x : Nat) {arrival : Arrival} (h : Carries r arrival.frame) :
    ∃ ds : List TaskEventDetail, (∀ d ∈ ds, d.isAccepted = false) ∧
      emitted opts c x [arrival] = ds.map ((tick c arrival.now).registry.event x) := by
  obtain ⟨now, frame⟩ := arrival
  cases frame with
  | agent payload =>
    by_cases hfound : Found c x payload
    · exact ⟨_, agentDetails_unaccepted c.registry, emitted_agent (hfound.at_tick now)⟩
    · exact ⟨[], List.forall_mem_nil _, emitted_agent_lost opts now hfound⟩
  | chat payload =>
    by_cases hfound : Found c x payload
    · refine ⟨Registry.chatDetails opts payload, ?_, emitted_chat (hfound.at_tick now)⟩
      rw [chatDetails_eq]
      exact List.forall_mem_append.mpr ⟨createdDetail_unaccepted _, endDetails_unaccepted⟩
    · exact ⟨[], List.forall_mem_nil _, emitted_chat_lost opts now hfound⟩
  | _ => exact absurd h id

/-- The frames do not accept the run. -/
theorem unaccepted_emitted (hcarries : ∀ a ∈ arrivals, Carries r a.frame) :
    ∀ e ∈ emitted opts c x arrivals, e.detail.isAccepted = false := by
  induction arrivals generalizing c with
  | nil => simp
  | cons arrival arrivals ih =>
    rw [List.forall_mem_cons] at hcarries
    rw [emitted_cons, List.forall_mem_append]
    refine ⟨?_, ih hcarries.2⟩
    obtain ⟨ds, hds, hemitted⟩ := emitted_single opts c x hcarries.1
    rw [hemitted, List.forall_mem_map]
    exact hds

/-- The persistent client labels what it emits with the run id of the response. -/
theorem labels_emitted (opts : Options) (h : Labelled c x input named) (hcarries : ∀ a ∈ arrivals, Carries r a.frame) :
    ∀ e ∈ (emitted opts c x (upTo ends arrivals)).map untimed, e.runId = named := by
  have hsingle : ∀ {c : Client} {arrival : Arrival}, Labelled c x input named → Carries r arrival.frame →
      ∀ e ∈ (emitted opts c x [arrival]).map untimed, e.runId = named := by
    intro c arrival h hcarry
    obtain ⟨ds, -, hemitted⟩ := emitted_single opts c x hcarry
    rw [hemitted, h.untimed_map, List.forall_mem_map]
    exact fun d _ => rfl
  induction arrivals generalizing c with
  | nil => simp [upTo]
  | cons arrival arrivals ih =>
    rw [List.forall_mem_cons] at hcarries
    obtain ⟨hcarry, hrest⟩ := hcarries
    rw [upTo]
    by_cases hstops : ends arrival = true
    · rw [if_pos hstops]
      exact hsingle h hcarry
    · rw [if_neg hstops, emitted_cons, List.map_append, List.forall_mem_append]
      refine ⟨hsingle h hcarry, ih ?_ hrest⟩
      obtain ⟨now, frame⟩ := arrival
      cases frame with
      | agent payload => exact labelled_agent opts now h
      | chat payload => exact labelled_chat opts now h (Bool.eq_false_of_not_eq_true hstops)
      | _ => exact absurd hcarry id

/-- The one-shot client does not accept the run once more either. -/
theorem unaccepted_heard (hcarries : ∀ a ∈ arrivals, Carries r a.frame) :
    ∀ e ∈ heard opts o arrivals, e.detail.isAccepted = false := by
  induction arrivals generalizing o with
  | nil => simp [heard]
  | cons arrival arrivals ih =>
    rw [List.forall_mem_cons] at hcarries
    obtain ⟨now, frame⟩ := arrival
    obtain ⟨hr, hrest⟩ := hcarries
    rw [heard, List.forall_mem_append]
    refine ⟨?_, ih hrest⟩
    rw [hear, OneShot.step]
    by_cases hlisten : o.listening = true
    · rw [if_pos hlisten, Option.getD_some]
      cases frame with
      | agent payload =>
        rw [OneShot.onMessage]
        unfold OneShot.onAgent
        dsimp only
        split
        · simp [eventOfEffect, OneShot.event, TaskEventDetail.isAccepted]
        · split
          · split <;> simp [eventOfEffect, OneShot.event, TaskEventDetail.isAccepted]
          · simp [eventOfEffect, OneShot.event, TaskEventDetail.isAccepted]
      | chat payload =>
        rw [OneShot.onMessage]
        unfold OneShot.onChat OneShot.chatTerminal OneShot.failAfterAccepted
        dsimp only
        rw [List.filterMap_append, List.forall_mem_append]
        constructor
        · split <;> simp [eventOfEffect, OneShot.event, TaskEventDetail.isAccepted]
        · split <;> simp [eventOfEffect, OneShot.event, TaskEventDetail.isAccepted]
      | _ => exact absurd hr id
    · rw [if_neg hlisten]
      simp

theorem addition_of_first (s : String) : addition s "" = if s = "" then none else some s := by
  unfold addition normalizeAssistantDelta
  split
  · simp
  · rename_i hne
    simp [hne]

/-- The events of the two clients are not the same when the one-shot client labels one with its own run id. -/
theorem ne_of_foreign {es fs : List TaskStreamEvent} {d : TaskEventDetail} (hr : r ≠ named)
    (hes : ∀ e ∈ es, e.runId = named) (hfs : label input r d ∈ fs) : es ≠ fs := by
  rintro rfl
  exact hr (hes _ hfs)

/-- An assistant frame without text or artifact, and what it leaves. -/
theorem quiet_agent (opts : Options) (now : String)
    (hsnapshot : (c.registry.tasks x).lastAssistantSnapshot = "") (hstream : payload.stream = some "assistant")
    (hartifact : Registry.frameArtifact opts payload = none) (htext : assistantSnapshot opts payload = "") :
    emitted opts c x [⟨now, .agent payload⟩] = [] ∧
      ((receive opts c ⟨now, .agent payload⟩).registry.tasks x).lastAssistantSnapshot = "" := by
  constructor
  · by_cases hfound : Found c x payload
    · rw [emitted_agent (hfound.at_tick now)]
      simp [Registry.agentDetails, hartifact, hstream, htext, normalizeAssistantDelta]
    · exact emitted_agent_lost opts now hfound
  · rcases receive_agent_tasks opts c payload now x with htasks | ⟨-, htasks⟩
    · rw [htasks, hsnapshot]
    · rw [htasks, htext]

/-- A chat frame without a state that ends the run or an artifact. -/
theorem quiet_chat (opts : Options) (now : String) (hartifact : Registry.frameArtifact opts payload = none)
    (hends : Registry.endsRun payload = false) : emitted opts c x [⟨now, .chat payload⟩] = [] ∧
      (receive opts c ⟨now, .chat payload⟩).registry = (tick c now).registry := by
  constructor
  · by_cases hfound : Found c x payload
    · rw [emitted_chat (hfound.at_tick now), chatDetails_eq, hartifact, endDetails_eq_nil.mpr hends]
      rfl
    · exact emitted_chat_lost opts now hfound
  · unfold receive Client.handleMessage
    dsimp only
    split
    · exact Registry.onChat_silent ⟨hartifact, hends⟩
    · rfl

/-- Two clients that read the frames under another run id than the response agree only on failures. -/
theorem muted_iff (hlabelled : Labelled c x input named) (hsnapshot : (c.registry.tasks x).lastAssistantSnapshot = "")
    (hlistening : Listening o input named "") (hr : r ≠ named) (hcarries : ∀ a ∈ arrivals, Carries r a.frame) :
    (emitted opts c x (upTo ends arrivals)).map untimed = (heard opts o (upTo ends arrivals)).map untimed ↔
      Muted opts (Found c x) (arrivals.map Arrival.frame) := by
  induction arrivals generalizing c o with
  | nil => simp [upTo, heard, Muted]
  | cons arrival arrivals ih =>
    have hlabels := labels_emitted opts hlabelled hcarries
    rw [List.forall_mem_cons] at hcarries
    obtain ⟨now, frame⟩ := arrival
    obtain ⟨hcarry, hrest⟩ := hcarries
    cases frame with
    | agent payload =>
      have hgoes : ends ⟨now, .agent payload⟩ = false := rfl
      obtain ⟨hnext, hevents⟩ := hear_agent opts now hlistening hcarry
      rw [List.map_cons, Muted]
      rw [upTo, hgoes, if_neg Bool.false_ne_true] at hlabels ⊢
      by_cases hquiet : payload.stream = some "assistant" ∧ Registry.frameArtifact opts payload = none ∧
          assistantSnapshot opts payload = ""
      · obtain ⟨hstream, hartifact, htext⟩ := hquiet
        obtain ⟨hnone, hstill⟩ := quiet_agent opts now hsnapshot hstream hartifact htext
        rw [if_pos ⟨hartifact, hstream⟩, htext] at hnext
        simp only [hartifact, hstream, htext, addition_of_first, if_true, deltaDetails, Option.map_none,
          Option.toList_none, List.map_nil] at hevents
        have hfound : Found (receive opts c ⟨now, .agent payload⟩) x = Found c x := by
          funext other
          exact propext (found_agent opts now other)
        rw [emitted_cons, hnone, List.nil_append, heard, List.map_append, hevents, List.nil_append,
          ih (labelled_agent opts now hlabelled) hstill hnext hrest, hfound]
        simp [hstream, hartifact, htext]
      · have hforeign : ∃ d, label input r d ∈
            (heard opts o (⟨now, .agent payload⟩ :: upTo ends arrivals)).map untimed := by
          rw [heard, List.map_append, hevents]
          cases hartifact : Registry.frameArtifact opts payload with
          | some artifact => exact ⟨.resultCreated (.artifact artifact), by simp [createdDetail]⟩
          | none =>
            by_cases hstream : payload.stream = some "assistant"
            · have htext : assistantSnapshot opts payload ≠ "" := fun htext => hquiet ⟨hstream, hartifact, htext⟩
              exact ⟨.delta (assistantSnapshot opts payload), by simp [hstream, addition_of_first, htext, deltaDetails]⟩
            · exact ⟨.stageChanged (payload.stream.getD "agent"), by simp [hstream]⟩
        obtain ⟨d, hd⟩ := hforeign
        refine iff_of_false (ne_of_foreign hr hlabels hd) ?_
        rintro ⟨hstream, hartifact, htext, -⟩
        exact hquiet ⟨hstream, hartifact, htext⟩
    | chat payload =>
      obtain ⟨hnext, hevents⟩ := hear_chat opts now hlistening hcarry
      rw [List.map_cons, Muted]
      by_cases hartifact : Registry.frameArtifact opts payload = none
      · have hnone := messageArtifact_isNone opts payload
        rw [hartifact, Option.isNone_none, Option.isNone_iff_eq_none] at hnone
        rw [chatEvents, hnone, createdDetail, Option.map_none, Option.toList_none, List.map_nil, List.nil_append]
          at hevents
        cases hends : Registry.endsRun payload with
        | true =>
          have hstops : ends ⟨now, .chat payload⟩ = true := hends
          have hne : endDetails payload ≠ [] := by simp [Ne, endDetails_eq_nil, hends]
          rw [upTo, hstops, if_pos rfl] at hlabels ⊢
          have hheard : (heard opts o [⟨now, .chat payload⟩]).map untimed =
              (endDetails payload).map (label input (if payload.state = some "final" then r else named)) := by
            rw [heard, heard, List.append_nil, hevents]
          rw [if_pos rfl]
          by_cases hfinal : payload.state = some "final"
          · have hforeign : label input r .completed ∈ (heard opts o [⟨now, .chat payload⟩]).map untimed := by
              rw [hheard, if_pos hfinal]
              simp [endDetails, hfinal]
            exact iff_of_false (ne_of_foreign hr hlabels hforeign) fun hmuted => hmuted.2.1 hfinal
          · rw [hheard, if_neg hfinal]
            by_cases hfound : Found c x payload
            · rw [emitted_chat (hfound.at_tick now), hlabelled.untimed_map, chatDetails_eq, hartifact]
              exact iff_of_true rfl ⟨rfl, hfinal, hfound⟩
            · rw [emitted_chat_lost opts now hfound, List.map_nil]
              refine iff_of_false (fun hnil => hne ?_) fun hmuted => hfound hmuted.2.2
              exact List.map_eq_nil_iff.mp hnil.symm
        | false =>
          have hgoes : ends ⟨now, .chat payload⟩ = false := hends
          obtain ⟨hsilent, hregistry⟩ := quiet_chat (c := c) (x := x) opts now hartifact hends
          rw [endDetails_eq_nil.mpr hends, List.map_nil] at hevents
          have hfound : Found (receive opts c ⟨now, .chat payload⟩) x = Found c x := by
            funext other
            rw [Found, hregistry]
            rfl
          have hstill : ((receive opts c ⟨now, .chat payload⟩).registry.tasks x).lastAssistantSnapshot = "" := by
            rw [hregistry]
            exact hsnapshot
          rw [upTo, hgoes, if_neg Bool.false_ne_true, emitted_cons, hsilent, List.nil_append, heard, List.map_append,
            hevents, List.nil_append, ih (labelled_chat opts now hlabelled hends) hstill (hnext hends) hrest, hfound,
            if_neg Bool.false_ne_true]
          exact (and_iff_right hartifact).symm
      · have hsome : messageArtifact opts payload ≠ none := by
          intro hnone
          have hsame := messageArtifact_isNone opts payload
          rw [hnone, Option.isNone_none, eq_comm, Option.isNone_iff_eq_none] at hsame
          exact hartifact hsame
        obtain ⟨other, hother⟩ := Option.ne_none_iff_exists'.mp hsome
        have hforeign : label input r (.resultCreated (.artifact other)) ∈
            (heard opts o (upTo ends (⟨now, .chat payload⟩ :: arrivals))).map untimed := by
          have hfirst : label input r (.resultCreated (.artifact other)) ∈
              ((hear opts o ⟨now, .chat payload⟩).2.filterMap eventOfEffect).map untimed := by
            rw [hevents, chatEvents, hother]
            exact List.mem_append_left _ (List.mem_singleton.mpr rfl)
          rw [upTo]
          split
          · rw [heard, List.map_append]
            exact List.mem_append_left _ hfirst
          · rw [heard, List.map_append]
            exact List.mem_append_left _ hfirst
        exact iff_of_false (ne_of_foreign hr hlabels hforeign) fun hmuted => hartifact hmuted.1
    | _ => exact absurd hcarry id

/-! ## The response and the frames -/

/-- Both clients have sent the request of one task, and wait for the response. -/
structure Begun (c : Client) (x : Nat) (o : OneShot) (input : ExecuteGatewayTaskInput) : Prop where
  nonempty : input.taskId ≠ ""
  active : c.registry.activeByTask.get input.taskId = some x
  activeInput : (c.registry.tasks x).input = input
  activeSnapshot : (c.registry.tasks x).lastAssistantSnapshot = ""
  listening : o.listening = true
  oneShotInput : o.input = input
  oneShotSnapshot : o.lastAssistantSnapshot = ""

/-- The run id that both clients read from the response. -/
def gatewayRunId (input : ExecuteGatewayTaskInput) (r : String) : String := orElse (trim r) input.taskId

/-- The response is taken for the one of the task, and the frames make no difference. -/
def Agreeing (opts : Options) (c : Client) (x : Nat) (input : ExecuteGatewayTaskInput) (r : String)
    (frames : List GatewayFrame) : Prop :=
  input.taskId ≠ GatewayClient.connectRequestId ∧ input.taskId ≠ Client.connectRequestId ∧
    if gatewayRunId input r = r then InStep opts "" "" none frames else Muted opts (Found c x) frames

theorem gatewayRunId_ne_empty (h : input.taskId ≠ "") : gatewayRunId input r ≠ "" := by
  unfold gatewayRunId orElse
  split <;> assumption

/-- The registry after the response. -/
theorem onOk_eq (now r : String) (h : Begun c x o input) : (tick c now).registry.onOk input.taskId (some r) =
    let named := gatewayRunId input r
    let reg := (tick c now).registry.modify x fun a => { a with runId := named }
    ({ reg with taskByRun := reg.taskByRun.set named x }.emit x .accepted).modify x fun a => { a with
      settled := true
      promise := a.promise.resolve ⟨input.taskId, input.sessionId, named, a.sessionKey⟩ } := by
  have hactive : (tick c now).registry.activeByTask.get input.taskId = some x := h.active
  have hinput : ((tick c now).registry.tasks x).input = input := h.activeInput
  unfold Registry.onOk
  rw [hactive]
  dsimp only
  rw [hinput]
  rfl

/-- The persistent client accepts the run. -/
theorem receive_ok (opts : Options) (now r : String) (key : Option String) (h : Begun c x o input)
    (hid : input.taskId ≠ Client.connectRequestId) :
    (emitted opts c x [⟨now, .ok input.taskId (some r) key⟩]).map untimed =
        [label input (gatewayRunId input r) .accepted] ∧
      Running (receive opts c ⟨now, .ok input.taskId (some r) key⟩) x input (gatewayRunId input r) "" := by
  have hne : gatewayRunId input r ≠ "" := gatewayRunId_ne_empty h.nonempty
  have hinput : ((tick c now).registry.tasks x).input = input := h.activeInput
  have hok : (receive opts c ⟨now, .ok input.taskId (some r) key⟩).registry =
      (tick c now).registry.onOk input.taskId (some r) := by
    rw [receive, Client.handleMessage, if_neg hid]
  rw [onOk_eq now r h] at hok
  generalize gatewayRunId input r = named at *
  constructor
  · have hlog : (receive opts c ⟨now, .ok input.taskId (some r) key⟩).registry.log = c.registry.log ++
        [TaskEventDetail.accepted].map (entry ((tick c now).registry.modify x fun a => { a with
          runId := named }) x) := by
      rw [hok]
      rfl
    rw [emitted_of_log hlog, List.map_singleton, List.map_singleton]
    refine congrArg (fun e => [e]) (untimed_event hne ?_ ?_ .accepted)
    · rw [Registry.modify_tasks_same]
      exact hinput
    · rw [Registry.modify_tasks_same]
  · refine ⟨⟨hne, ?_, ?_⟩, ?_, ?_⟩
    · rw [hok]
      simpa using hinput
    · rw [hok]
      simp
    · rw [hok]
      simp
    · rw [hok]
      have hsnapshot : ((tick c now).registry.tasks x).lastAssistantSnapshot = "" := h.activeSnapshot
      simpa using hsnapshot

/-- The one-shot client accepts the run. -/
theorem hear_ok (opts : Options) (now r : String) (key : Option String) (h : Begun c x o input)
    (hid : input.taskId ≠ GatewayClient.connectRequestId) :
    ((hear opts o ⟨now, .ok input.taskId (some r) key⟩).2.filterMap eventOfEffect).map untimed =
        [label input (gatewayRunId input r) .accepted] ∧
      Listening (hear opts o ⟨now, .ok input.taskId (some r) key⟩).1 input (gatewayRunId input r) "" := by
  have hne : gatewayRunId input r ≠ "" := gatewayRunId_ne_empty h.nonempty
  have hinput := h.oneShotInput
  subst hinput
  have hrunId : orElse (asNonEmptyString (some r)) o.input.taskId = gatewayRunId o.input r := rfl
  rw [hear, OneShot.step, if_pos h.listening, Option.getD_some, OneShot.onMessage, if_neg hid, if_pos rfl]
  dsimp only
  rw [hrunId]
  generalize gatewayRunId o.input r = named at *
  unfold OneShot.resolveAccepted
  split
  · exact ⟨congrArg (fun e => [e]) (untimed_oneShot rfl named .accepted), hne, h.listening, rfl, rfl, h.oneShotSnapshot⟩
  · exact ⟨congrArg (fun e => [e]) (untimed_oneShot rfl named .accepted), hne, h.listening, rfl, rfl, h.oneShotSnapshot⟩

/-- The response does not change what the client takes another run id for. -/
theorem found_ok (opts : Options) (now : String) (key : Option String) (h : Begun c x o input)
    (hid : input.taskId ≠ Client.connectRequestId) (hr : gatewayRunId input r ≠ r) (hcarry : payload.runId = some r) :
    Found (receive opts c ⟨now, .ok input.taskId (some r) key⟩) x payload ↔ Found c x payload := by
  have hsame : ((tick c now).registry.onOk input.taskId (some r)).findActive payload.runId payload.sessionKey =
      (tick c now).registry.findActive payload.runId payload.sessionKey := by
    rw [onOk_eq now r h, hcarry]
    generalize gatewayRunId input r = named at hr
    apply findActive_congr
    · by_cases hempty : r = ""
      · simp [Registry.byRun, Option.filter, hempty]
      · simp [Registry.byRun, Option.filter, hempty, Ne.symm hr]
    · rfl
    · intro y
      by_cases hy : y = x
      · subst hy
        simp
      · simp [hy]
  rw [Found, receive, Client.handleMessage, if_neg hid, hsame]
  rfl

theorem muted_congr {found found' : EventPayload → Prop} (hcarries : ∀ a ∈ arrivals, Carries r a.frame)
    (h : ∀ payload, payload.runId = some r → (found payload ↔ found' payload)) :
    Muted opts found (arrivals.map Arrival.frame) ↔ Muted opts found' (arrivals.map Arrival.frame) := by
  induction arrivals with
  | nil => exact Iff.rfl
  | cons arrival arrivals ih =>
    rw [List.forall_mem_cons] at hcarries
    obtain ⟨now, frame⟩ := arrival
    obtain ⟨hcarry, hrest⟩ := hcarries
    cases frame with
    | agent payload => simp only [List.map_cons, Muted, ih hrest]
    | chat payload => simp only [List.map_cons, Muted, ih hrest, h payload hcarry]
    | _ => exact absurd hcarry id

/-- Events that do not accept the run are not all the events of a client that accepts it. -/
theorem ne_of_accepted {es fs : List TaskStreamEvent} {runId : String} (hes : ∀ e ∈ es, e.detail.isAccepted = false) :
    [].map untimed ++ es.map untimed ≠ [label input runId .accepted] ++ fs := by
  intro heq
  have hmem : label input runId .accepted ∈ es.map untimed := by
    rw [List.map_nil, List.nil_append] at heq
    rw [heq]
    exact List.mem_cons_self
  obtain ⟨e, he, hsame⟩ := List.mem_map.mp hmem
  have hdetail : e.detail = .accepted := congrArg TaskStreamEvent.detail hsame
  have hun := hes e he
  rw [hdetail] at hun
  cases hun

/-- The two clients emit the same events for a run, apart from their times, exactly when the response is taken
for the one of the task and the frames make no difference between them. -/
theorem agree_iff (opts : Options) (now r : String) (key : Option String) (h : Begun c x o input)
    (hcarries : ∀ a ∈ arrivals, Carries r a.frame) :
    (emitted opts c x (⟨now, .ok input.taskId (some r) key⟩ :: upTo ends arrivals)).map untimed =
        (heard opts o (⟨now, .ok input.taskId (some r) key⟩ :: upTo ends arrivals)).map untimed ↔
      Agreeing opts c x input r (arrivals.map Arrival.frame) := by
  have htrace : ∀ a ∈ upTo ends arrivals, Carries r a.frame := fun a ha =>
    hcarries a ((isPrefix_upTo ends arrivals).subset ha)
  rw [emitted_cons, heard, List.map_append, List.map_append, Agreeing]
  by_cases hpersistent : input.taskId = Client.connectRequestId
  · -- only the one-shot client accepts the run
    have hshot : input.taskId ≠ GatewayClient.connectRequestId := by
      rw [hpersistent]
      decide
    refine iff_of_false ?_ fun hagree => hagree.2.1 hpersistent
    obtain ⟨haccepted, -⟩ := hear_ok opts now r key h hshot
    have hnone : emitted opts c x [⟨now, .ok input.taskId (some r) key⟩] = [] := by
      apply emitted_of_same
      rw [receive, Client.handleMessage, if_pos hpersistent]
      rfl
    rw [hnone, haccepted]
    exact ne_of_accepted (unaccepted_emitted htrace)
  · by_cases hshot : input.taskId = GatewayClient.connectRequestId
    · -- only the persistent client accepts the run
      refine iff_of_false ?_ fun hagree => hagree.1 hshot
      obtain ⟨haccepted, -⟩ := receive_ok opts now r key h hpersistent
      have hnone : (hear opts o ⟨now, .ok input.taskId (some r) key⟩).2.filterMap eventOfEffect = [] := by
        rw [hear, OneShot.step, if_pos h.listening, Option.getD_some, OneShot.onMessage, if_pos hshot]
        rfl
      rw [hnone, haccepted]
      exact (ne_of_accepted (unaccepted_heard htrace)).symm
    · obtain ⟨haccepted, hrunning⟩ := receive_ok opts now r key h hpersistent
      obtain ⟨hheard, hlistening⟩ := hear_ok opts now r key h hshot
      rw [haccepted, hheard, List.append_right_inj]
      by_cases hr : gatewayRunId input r = r
      · rw [if_pos hr]
        rw [hr] at hrunning hlistening
        rw [emitted_frames hrunning hcarries, heard_frames hlistening hcarries, ← details_eq_iff]
        have hinjective : Function.Injective (label input r) := fun d e hde => congrArg TaskStreamEvent.detail hde
        rw [(List.map_injective_iff.mpr hinjective).eq_iff]
        simp [hpersistent, hshot, deltaDetails]
      · rw [if_neg hr, muted_iff hrunning.toLabelled hrunning.snapshot hlistening (Ne.symm hr) hcarries,
          muted_congr hcarries fun payload hcarry => found_ok opts now key h hpersistent hr hcarry]
        simp [hpersistent, hshot]

/-- So it is after the calls that send the request. -/
theorem begun_insert (opts : Options) (c : Client) (x : Nat) (prepared : PreparedGatewayInput)
    (h : input.taskId ≠ "") : Begun { c with registry := c.registry.insert opts x input prepared } x
      (.start opts input prepared) input where
  nonempty := h
  active := by simp [Registry.insert]
  activeInput := by simp [Registry.insert]
  activeSnapshot := by simp [Registry.insert]
  listening := rfl
  oneShotInput := rfl
  oneShotSnapshot := rfl

def hello : ExecuteGatewayTaskInput := ⟨"t", "s", "hello"⟩

/-- The persistent client when it has sent the request. -/
def sentClient : Client :=
  { Client.init with registry := initialRegistry.insert defaultOptions 0 hello ⟨"hello", []⟩ }

def sentOneShot : OneShot := .start defaultOptions hello ⟨"hello", []⟩

theorem begun_hello : Begun sentClient 0 sentOneShot hello :=
  begun_insert defaultOptions .init 0 ⟨"hello", []⟩ (by decide)

/-- A text of the assistant, then the end of the run. -/
def textRun (data : List (String × Json)) : List Arrival :=
  [⟨"", .agent { runId := some "r", stream := some "assistant", data := some data }⟩,
    ⟨"", .chat { runId := some "r", state := some "final" }⟩]

theorem carries_textRun (data : List (String × Json)) : ∀ a ∈ textRun data, Carries "r" a.frame := by
  intro a ha
  simp only [textRun, List.mem_cons, List.not_mem_nil, or_false] at ha
  rcases ha with rfl | rfl <;> rfl

def plainText : List (String × Json) := [("text", .str "hello")]

/-- The same text with an artifact in the frame. -/
def fileText : List (String × Json) :=
  [("type", .str "artifact"), ("text", .str "hello"),
    ("artifact", .obj [("kind", .str "pdf"), ("fileName", .str "a.pdf"), ("mimeType", .str "application/pdf"),
      ("previewText", .str "")])]

theorem agree_iff_plainText :
    (emitted defaultOptions sentClient 0 (⟨"", .ok "t" (some "r") none⟩ :: upTo ends (textRun plainText))).map untimed =
      (heard defaultOptions sentOneShot
        (⟨"", .ok "t" (some "r") none⟩ :: upTo ends (textRun plainText))).map untimed := by
  refine (agree_iff defaultOptions "" "r" none begun_hello (carries_textRun plainText)).mpr ⟨by decide, by decide, ?_⟩
  rw [if_pos (by decide +kernel)]
  exact ⟨rfl, rfl, by decide +kernel, .inl rfl⟩

/-- The persistent client sends the text of a frame with an artifact, the one-shot client does not. -/
theorem differ_fileText :
    Begun sentClient 0 sentOneShot hello ∧ (∀ a ∈ textRun fileText, Carries "r" a.frame) ∧
      (emitted defaultOptions sentClient 0
        (⟨"", .ok "t" (some "r") none⟩ :: upTo ends (textRun fileText))).map untimed ≠
        (heard defaultOptions sentOneShot
          (⟨"", .ok "t" (some "r") none⟩ :: upTo ends (textRun fileText))).map untimed := by
  refine ⟨begun_hello, carries_textRun fileText, fun heq => ?_⟩
  have hlength := congrArg List.length heq
  revert hlength
  decide +kernel

end ClientAgreement
