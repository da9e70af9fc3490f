import ClawWork.SingleRun
import ClawWork.Snapshots
import ClawWork.TasksService

/-!
# The text of the assistant

The assistant frames of a run carry the whole text so far. Both gateway clients send on what
a frame adds to the one before it, and the API joins what it gets. The stored text is the
text of the last frame that has one, if and only if no frame without a text comes in between.
-/

namespace AssistantDeltas

open JavaScript SharedTypes GatewayProtocol GatewayClient PersistentGatewayClient TasksService SingleRun Snapshots

variable {opts : Options} {c : Client} {o : OneShot} {x : Nat} {r now : String} {payload : EventPayload}

/-- An assistant frame of a run, without an artifact. -/
structure AssistantFrame (opts : Options) (r : String) (payload : EventPayload) : Prop where
  runId : payload.runId = some r
  stream : payload.stream = some "assistant"
  artifact : extractArtifactResult opts.isUrl [payload.data.map Json.obj, payload.message] = none

/-- A frame and the time of its arrival. -/
abbrev Timed := String × EventPayload

def agentFrames (frames : List Timed) : List Arrival := frames.map fun frame => ⟨frame.1, .agent frame.2⟩

/-- The texts of the frames. -/
def texts (opts : Options) (frames : List Timed) : List (List Char) :=
  frames.map fun frame => (assistantSnapshot opts frame.2).toList

theorem agentFrames_cons (frame : Timed) (frames : List Timed) :
    agentFrames (frame :: frames) = ⟨frame.1, .agent frame.2⟩ :: agentFrames frames := rfl

theorem texts_cons (frame : Timed) (frames : List Timed) :
    texts opts (frame :: frames) = (assistantSnapshot opts frame.2).toList :: texts opts frames := rfl

theorem normalizeAssistantDelta_fst (next previous : String) :
    (normalizeAssistantDelta next previous).1.toList = diff previous.toList next.toList := by
  unfold normalizeAssistantDelta
  by_cases hnext : next = ""
  · subst hnext
    rw [if_pos rfl]
    exact (diff_empty previous.toList).symm
  · rw [if_neg hnext]
    unfold diff
    have hiff : (previous ≠ "" ∧ startsWith next previous = true) ↔
        (previous.toList ≠ [] ∧ previous.toList <+: next.toList) := by
      rw [startsWith, List.isPrefixOf_iff_prefix, ne_eq, ne_eq, String.toList_eq_nil_iff]
    by_cases hprefix : previous ≠ "" ∧ startsWith next previous = true
    · rw [if_pos hprefix, if_pos (hiff.mp hprefix), sliceFrom, String.toList_ofList, String.length_toList]
    · rw [if_neg hprefix, if_neg fun h => hprefix (hiff.mpr h)]

theorem outputText_append (es es' : List TaskStreamEvent) :
    outputText (es ++ es') = outputText es ++ outputText es' := by
  simp [outputText, List.filterMap_append]

/-- The text of a delta event, which is left out when there is nothing new. -/
theorem outputText_delta {event : TaskStreamEvent} {delta : String} (h : event.detail = .delta delta) :
    outputText (if delta = "" then [] else [event]) = delta := by
  obtain ⟨detail, taskId, sessionId, runId, timestamp⟩ := event
  subst h
  split
  · rename_i hempty
    rw [hempty]
    rfl
  · simp [outputText, deltaOf]

/-! ## The persistent client -/

/-- The object of call `x` is known under its run id, and this is the text of its last frame. -/
structure Following (c : Client) (x : Nat) (r : String) (text : List Char) : Prop where
  named : r ≠ ""
  run : c.registry.taskByRun.get r = some x
  snapshot : (c.registry.tasks x).lastAssistantSnapshot.toList = text

theorem Following.findActive {text : List Char} (h : Following c x r text) (hr : payload.runId = some r) :
    (tick c now).registry.findActive payload.runId payload.sessionKey = some x := by
  have hrun : (tick c now).registry.taskByRun.get r = some x := h.run
  rw [hr, Registry.findActive_named h.named hrun]

theorem following_receive {text : List Char} (h : Following c x r text) (hframe : AssistantFrame opts r payload) :
    Following (receive opts c ⟨now, .agent payload⟩) x r (assistantSnapshot opts payload).toList := by
  have hartifact : Registry.frameArtifact opts payload = none := hframe.artifact
  rw [receive, Client.handleMessage, h.findActive hframe.runId]
  unfold Registry.onAgent
  simp only [hframe.stream, if_true, normalizeAssistantDelta_snd, hartifact, Registry.emitArtifact]
  split <;> exact ⟨h.named, h.run, by simp⟩

theorem outputText_receive {text : List Char} (h : Following c x r text) (hframe : AssistantFrame opts r payload) :
    (outputText (emitted opts c x [⟨now, .agent payload⟩])).toList =
      diff text (assistantSnapshot opts payload).toList := by
  have hartifact : Registry.frameArtifact opts payload = none := hframe.artifact
  rw [emitted_agent (h.findActive hframe.runId), ← h.snapshot, ← normalizeAssistantDelta_fst]
  simp only [Registry.agentDetails, hframe.stream, hartifact, Option.map_none, Option.toList_none, List.nil_append,
    if_true]
  rw [apply_ite (List.map _), List.map_nil, List.map_singleton, outputText_delta rfl]

theorem outputText_emitted {frames : List Timed} {text : List Char} (h : Following c x r text)
    (hframes : ∀ frame ∈ frames, AssistantFrame opts r frame.2) :
    (outputText (emitted opts c x (agentFrames frames))).toList = (diffs text (texts opts frames)).flatten := by
  induction frames generalizing c text with
  | nil => simp [agentFrames, texts, diffs, outputText]
  | cons frame frames ih =>
    rw [List.forall_mem_cons] at hframes
    rw [agentFrames_cons, emitted_cons, outputText_append, String.toList_append, outputText_receive h hframes.1,
      ih (following_receive h hframes.1) hframes.2, texts_cons, diffs, List.flatten_cons]

/-! ## The one-shot client -/

theorem hear_assistant (hlisten : o.listening = true) (hframe : AssistantFrame opts r payload) :
    hear opts o ⟨now, .agent payload⟩ =
      ({ o with lastAssistantSnapshot := assistantSnapshot opts payload },
        if (normalizeAssistantDelta (assistantSnapshot opts payload) o.lastAssistantSnapshot).1 = "" then []
        else [.event (o.event now r
          (.delta (normalizeAssistantDelta (assistantSnapshot opts payload) o.lastAssistantSnapshot).1))]) := by
  rw [hear, OneShot.step, if_pos hlisten, Option.getD_some, OneShot.onMessage]
  unfold OneShot.onAgent
  simp only [hframe.artifact, hframe.stream, if_true, normalizeAssistantDelta_snd, OneShot.frameRunId, hframe.runId,
    Option.getD_some]
  rfl

theorem outputText_hear (hlisten : o.listening = true) (hframe : AssistantFrame opts r payload) :
    (outputText ((hear opts o ⟨now, .agent payload⟩).2.filterMap eventOfEffect)).toList =
      diff o.lastAssistantSnapshot.toList (assistantSnapshot opts payload).toList := by
  rw [hear_assistant hlisten hframe, ← normalizeAssistantDelta_fst, apply_ite (List.filterMap _)]
  exact congrArg String.toList (outputText_delta rfl)

theorem outputText_heard {frames : List Timed} (hlisten : o.listening = true)
    (hframes : ∀ frame ∈ frames, AssistantFrame opts r frame.2) :
    (outputText (heard opts o (agentFrames frames))).toList =
      (diffs o.lastAssistantSnapshot.toList (texts opts frames)).flatten := by
  induction frames generalizing o with
  | nil => simp [agentFrames, texts, diffs, outputText, heard]
  | cons frame frames ih =>
    rw [List.forall_mem_cons] at hframes
    have hrest := ih (o := { o with lastAssistantSnapshot := assistantSnapshot opts frame.2 }) hlisten hframes.2
    rw [agentFrames_cons, heard, outputText_append, String.toList_append, outputText_hear hlisten hframes.1,
      hear_assistant hlisten hframes.1, hrest, texts_cons, diffs, List.flatten_cons]

/-- The deltas that either client emits for the assistant frames of an accepted run, with texts that extend
one another, make up the last of the texts if and only if no frame without a text stands between two
frames that have one. -/
theorem deltas_eq_latest_iff (frames : List Timed) (hframes : ∀ frame ∈ frames, AssistantFrame opts r frame.2)
    (hgrowing : Growing [] (texts opts frames)) :
    (∀ c x, Following c x r [] →
      ((outputText (emitted opts c x (agentFrames frames))).toList = latest [] (texts opts frames) ↔
        Uninterrupted (texts opts frames))) ∧
    ∀ o : OneShot, o.listening = true → o.lastAssistantSnapshot = "" →
      ((outputText (heard opts o (agentFrames frames))).toList = latest [] (texts opts frames) ↔
        Uninterrupted (texts opts frames)) := by
  constructor
  · intro c x h
    rw [outputText_emitted h hframes]
    exact flatten_diffs_iff hgrowing
  · intro o hlisten hsnapshot
    rw [outputText_heard hlisten hframes, hsnapshot]
    exact flatten_diffs_iff hgrowing

/-- The frame of a text. -/
def textFrame (text : String) : Timed :=
  ("", { runId := some "r", stream := some "assistant", data := some [("text", .str text)] })

theorem textFrame_assistant (text : String) : AssistantFrame defaultOptions "r" (textFrame text).2 := ⟨rfl, rfl, rfl⟩

/-- The persistent client when it has accepted the run. -/
def acceptedClient : Client :=
  (Transition.run (Client.step defaultOptions) .init acceptedRun).get (by decide +kernel)

/-- The one-shot client when it has accepted the run. -/
def acceptedOneShot : OneShot :=
  (hear defaultOptions (.start defaultOptions ⟨"t", "s", "hello"⟩ ⟨"hello", []⟩)
    ⟨"", .ok "t" (some "r") none⟩).1

theorem acceptedClient_following : Following acceptedClient 0 "r" [] :=
  ⟨by decide, by decide +kernel, by decide +kernel⟩

theorem deltas_eq_latest_iff_growing :
    let frames := [textFrame "hello", textFrame "hello there"]
    outputText (emitted defaultOptions acceptedClient 0 (agentFrames frames)) = "hello there" ∧
      outputText (heard defaultOptions acceptedOneShot (agentFrames frames)) = "hello there" := by
  intro frames
  have hgrowing : Growing [] (texts defaultOptions frames) := by decide +kernel
  have huninterrupted : Uninterrupted (texts defaultOptions frames) := by
    intro before after hsplit
    have hmem : [] ∈ texts defaultOptions frames := by rw [hsplit]; simp
    exact absurd hmem (by decide +kernel)
  have hframes : ∀ frame ∈ frames, AssistantFrame defaultOptions "r" frame.2 := by
    intro frame hframe
    simp only [frames, List.mem_cons, List.not_mem_nil, or_false] at hframe
    rcases hframe with rfl | rfl <;> exact textFrame_assistant _
  have hboth := deltas_eq_latest_iff frames hframes hgrowing
  constructor
  · exact String.toList_inj.mp ((hboth.1 _ _ acceptedClient_following).mpr huninterrupted)
  · exact String.toList_inj.mp ((hboth.2 acceptedOneShot rfl rfl).mpr huninterrupted)

/-- An empty text in between: what came before it is in the stored text twice. -/
theorem deltas_repeat_text :
    let frames := [textFrame "hello", textFrame "", textFrame "hello there"]
    Transition.Reachable (Client.step defaultOptions) .init acceptedClient ∧ Following acceptedClient 0 "r" [] ∧
      (∀ frame ∈ frames, AssistantFrame defaultOptions "r" frame.2) ∧ Growing [] (texts defaultOptions frames) ∧
      latest [] (texts defaultOptions frames) = "hello there".toList ∧
      outputText (emitted defaultOptions acceptedClient 0 (agentFrames frames)) = "hellohello there" ∧
      outputText (heard defaultOptions acceptedOneShot (agentFrames frames)) = "hellohello there" := by
  intro frames
  refine ⟨⟨acceptedRun, (Option.some_get _).symm⟩, acceptedClient_following, ?_, by decide +kernel, by decide +kernel,
    by decide +kernel, by decide +kernel⟩
  intro frame hframe
  simp only [frames, List.mem_cons, List.not_mem_nil, or_false] at hframe
  rcases hframe with rfl | rfl | rfl <;> exact textFrame_assistant _

end AssistantDeltas
