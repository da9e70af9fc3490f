import ClawWork.ConversationStore
import ClawWork.TasksService

/-!
# The messages that a stream builds up

`applyStreamEvent` appends to the last message or adds one. Read off from the messages, the
texts of the assistant are the concatenation of the deltas, and the artifacts are those of the
results in their order, where one directly after itself counts once.
-/

namespace StreamedMessages

open JavaScript SharedTypes TaskStore TasksService ConversationStore

def textOf : ConversationMessage → Option String
  | .assistant text _ => some text
  | _ => none

def shownOf : ConversationMessage → Option (ShownArtifact × Option String)
  | .artifact artifact runId => some (artifact, runId)
  | _ => none

def isUser : ConversationMessage → Bool
  | .user _ => true
  | _ => false

/-- What the assistant says in the messages. -/
def assistantText (ms : List ConversationMessage) : String := String.join (ms.filterMap textOf)

/-- The artifacts of the messages with their runs. -/
def shownArtifacts (ms : List ConversationMessage) : List (ShownArtifact × Option String) :=
  ms.filterMap shownOf

/-- The artifact that an event shows, with its run. -/
def artifactOf (event : TaskStreamEvent) : Option (ShownArtifact × Option String) :=
  match event.detail with
  | .resultCreated result =>
    (extractArtifactFromResult result.toJson).map fun artifact => (artifact, some event.runId)
  | _ => none

/-- What an event does to the messages. -/
def applyMessage (ms : List ConversationMessage) (event : TaskStreamEvent) : List ConversationMessage :=
  match event.detail with
  | .resultCreated result =>
    match extractArtifactFromResult result.toJson with
    | some artifact => appendArtifactMessage event.runId artifact ms
    | none => ms
  | .delta delta => appendAssistantDelta event.runId delta ms
  | _ => ms

/-- The messages of a task whose events are applied after the message of the user. -/
def streamed (events : List TaskStreamEvent) : List ConversationMessage := events.foldl applyMessage []

/-- The event adds to the messages: a text that is not empty, or an artifact. -/
def isOutput (event : TaskStreamEvent) : Bool :=
  match event.detail with
  | .delta delta => delta ≠ ""
  | .resultCreated result => (extractArtifactFromResult result.toJson).isSome
  | _ => false

variable {ms : List ConversationMessage} {event : TaskStreamEvent} {events : List TaskStreamEvent}

theorem applyStreamEvent_messages (s : TaskState) (event : TaskStreamEvent) :
    (s.applyStreamEvent event).messages = applyMessage s.messages event := by
  unfold TaskState.applyStreamEvent applyMessage
  dsimp only
  cases event.detail with
  | resultCreated result =>
    dsimp only
    cases extractArtifactFromResult result.toJson <;> rfl
  | _ => rfl

theorem applyMessage_of_quiet (h : isOutput event = false) : applyMessage ms event = ms := by
  unfold isOutput at h
  unfold applyMessage
  cases hdetail : event.detail with
  | delta delta =>
    rw [hdetail] at h
    have hempty : delta = "" := by simpa using h
    dsimp only
    rw [appendAssistantDelta, if_pos hempty]
  | resultCreated result =>
    rw [hdetail] at h
    dsimp only at h ⊢
    rw [Option.isSome_eq_false_iff, Option.isNone_iff_eq_none] at h
    rw [h]
  | _ => rfl

theorem foldl_of_quiet (h : ∀ e ∈ events, isOutput e = false) : events.foldl applyMessage ms = ms := by
  induction events with
  | nil => rfl
  | cons e events ih =>
    rw [List.foldl_cons, applyMessage_of_quiet (h e List.mem_cons_self)]
    exact ih fun e he => h e (List.mem_cons_of_mem _ he)

/-! ## Below the message of the user -/

theorem appendAssistantDelta_append {base : List ConversationMessage} (hbase : base.getLast?.any isUser)
    (runId delta : String) (ms : List ConversationMessage) :
    appendAssistantDelta runId delta (base ++ ms) = base ++ appendAssistantDelta runId delta ms := by
  unfold appendAssistantDelta
  split
  · rfl
  · cases ms with
    | nil =>
      rw [List.append_nil]
      cases hlast : base.getLast? with
      | none => rfl
      | some message =>
        rw [hlast] at hbase
        cases message with
        | user text => rfl
        | assistant text runId => cases hbase
        | artifact artifact runId => cases hbase
    | cons m ms =>
      rw [List.getLast?_append_of_ne_nil _ (by simp), List.dropLast_append_of_ne_nil (by simp)]
      split
      · split
        · rw [List.append_assoc]
        · rw [List.append_assoc]
      · rw [List.append_assoc]

theorem appendArtifactMessage_append {base : List ConversationMessage} (hbase : base.getLast?.any isUser)
    (runId : String) (artifact : ShownArtifact) (ms : List ConversationMessage) :
    appendArtifactMessage runId artifact (base ++ ms) = base ++ appendArtifactMessage runId artifact ms := by
  unfold appendArtifactMessage
  cases ms with
  | nil =>
    rw [List.append_nil]
    cases hlast : base.getLast? with
    | none => rfl
    | some message =>
      rw [hlast] at hbase
      cases message with
      | user text => rfl
      | assistant text runId => cases hbase
      | artifact artifact runId => cases hbase
  | cons m ms =>
    rw [List.getLast?_append_of_ne_nil _ (by simp)]
    split
    · split
      · rfl
      · rw [List.append_assoc]
    · rw [List.append_assoc]

/-- The messages before the last one of the user stay as they are. -/
theorem foldl_append {base : List ConversationMessage} (hbase : base.getLast?.any isUser)
    (events : List TaskStreamEvent) (ms : List ConversationMessage) :
    events.foldl applyMessage (base ++ ms) = base ++ events.foldl applyMessage ms := by
  induction events generalizing ms with
  | nil => rfl
  | cons e events ih =>
    have hstep : applyMessage (base ++ ms) e = base ++ applyMessage ms e := by
      unfold applyMessage
      split
      · split
        · exact appendArtifactMessage_append hbase _ _ ms
        · rfl
      · exact appendAssistantDelta_append hbase _ _ ms
      · rfl
    rw [List.foldl_cons, hstep, ih, List.foldl_cons]

/-! ## Texts -/

theorem assistantText_append (ms ms' : List ConversationMessage) :
    assistantText (ms ++ ms') = assistantText ms ++ assistantText ms' := by
  simp [assistantText]

theorem outputText_append (es es' : List TaskStreamEvent) :
    outputText (es ++ es') = outputText es ++ outputText es' := by
  simp [outputText]

theorem getLast_eq {α : Type*} {xs : List α} {x : α} (h : xs.getLast? = some x) : xs = xs.dropLast ++ [x] :=
  (List.dropLast_append_getLast? x h).symm

/-- A delta adds its text, whether it goes on with a message or starts one. -/
theorem assistantText_appendAssistantDelta (runId delta : String) (ms : List ConversationMessage) :
    assistantText (appendAssistantDelta runId delta ms) = assistantText ms ++ delta := by
  unfold appendAssistantDelta
  split
  · rename_i hempty
    rw [hempty, String.append_empty]
  · have hnew : assistantText (ms ++ [.assistant delta (some runId)]) = assistantText ms ++ delta := by
      simp [assistantText, textOf]
    split
    · rename_i text last hlast
      split
      · have hms : assistantText ms = assistantText ms.dropLast ++ text := by
          conv_lhs => rw [getLast_eq hlast]
          simp [assistantText, textOf]
        rw [hms, String.append_assoc]
        simp [assistantText, textOf]
      · exact hnew
    · exact hnew

theorem assistantText_appendArtifactMessage (runId : String) (artifact : ShownArtifact)
    (ms : List ConversationMessage) :
    assistantText (appendArtifactMessage runId artifact ms) = assistantText ms := by
  unfold appendArtifactMessage
  have hnew : assistantText (ms ++ [.artifact artifact (some runId)]) = assistantText ms := by
    rw [assistantText_append]
    exact String.append_empty
  split
  · split
    · rfl
    · exact hnew
  · exact hnew

theorem assistantText_foldl (events : List TaskStreamEvent) (ms : List ConversationMessage) :
    assistantText (events.foldl applyMessage ms) = assistantText ms ++ outputText events := by
  induction events generalizing ms with
  | nil => simp [outputText]
  | cons e events ih =>
    have hstep : assistantText (applyMessage ms e) = assistantText ms ++ outputText [e] := by
      obtain ⟨detail, taskId, sessionId, runId, timestamp⟩ := e
      cases detail with
      | delta delta =>
        have hdelta : outputText [⟨.delta delta, taskId, sessionId, runId, timestamp⟩] = delta :=
          String.empty_append
        rw [hdelta]
        exact assistantText_appendAssistantDelta runId delta ms
      | resultCreated result =>
        rw [show outputText [⟨.resultCreated result, taskId, sessionId, runId, timestamp⟩] = "" from rfl,
          String.append_empty, applyMessage]
        dsimp only
        split
        · exact assistantText_appendArtifactMessage runId _ ms
        · rfl
      | _ => exact String.append_empty.symm
    rw [List.foldl_cons, ih, hstep, String.append_assoc, ← outputText_append, List.singleton_append]

/-- Whatever comes between the deltas, what the assistant says is their concatenation. -/
theorem assistantText_streamed (events : List TaskStreamEvent) :
    assistantText (streamed events) = outputText events := by
  rw [streamed, assistantText_foldl]
  simp [assistantText]

/-! ## Artifacts -/

theorem shownArtifacts_append (ms ms' : List ConversationMessage) :
    shownArtifacts (ms ++ ms') = shownArtifacts ms ++ shownArtifacts ms' := List.filterMap_append

theorem shownArtifacts_appendAssistantDelta (runId delta : String) (ms : List ConversationMessage) :
    shownArtifacts (appendAssistantDelta runId delta ms) = shownArtifacts ms := by
  unfold appendAssistantDelta
  have hnew : ∀ text last, shownArtifacts (ms ++ [.assistant text last]) = shownArtifacts ms := by
    intro text last
    rw [shownArtifacts_append]
    exact List.append_nil _
  split
  · rfl
  · split
    · rename_i text last hlast
      split
      · conv_rhs => rw [getLast_eq hlast]
        rw [shownArtifacts_append, shownArtifacts_append]
        rfl
      · exact hnew _ _
    · exact hnew _ _

/-- Two artifacts of one run that are downloaded from one place. -/
def SameArtifact (a b : ShownArtifact × Option String) : Prop :=
  a.2 = b.2 ∧ a.1.downloadUrl = b.1.downloadUrl

/-- An artifact is added, unless the last message shows it. -/
theorem shownArtifacts_appendArtifactMessage (runId : String) (artifact : ShownArtifact)
    (ms : List ConversationMessage) :
    shownArtifacts (appendArtifactMessage runId artifact ms) = shownArtifacts ms ++ [(artifact, some runId)] ∨
      shownArtifacts (appendArtifactMessage runId artifact ms) = shownArtifacts ms ∧
        ∃ shown ∈ (shownArtifacts ms).getLast?, SameArtifact shown (artifact, some runId) := by
  unfold appendArtifactMessage
  have hnew : shownArtifacts (ms ++ [.artifact artifact (some runId)]) =
      shownArtifacts ms ++ [(artifact, some runId)] := shownArtifacts_append ms _
  split
  · rename_i shown last hlast
    split
    · rename_i hsame
      refine .inr ⟨rfl, (shown, last), ?_, hsame⟩
      rw [getLast_eq hlast, shownArtifacts_append]
      exact List.getLast?_concat
    · exact .inl hnew
  · exact .inl hnew

/-- What one event does to the artifacts. -/
theorem shownArtifacts_applyMessage (ms : List ConversationMessage) (event : TaskStreamEvent) :
    shownArtifacts (applyMessage ms event) = shownArtifacts ms ++ (artifactOf event).toList ∨
      shownArtifacts (applyMessage ms event) = shownArtifacts ms ∧
        ∃ shown ∈ (shownArtifacts ms).getLast?, ∀ a ∈ artifactOf event, SameArtifact shown a := by
  unfold applyMessage artifactOf
  cases event.detail with
  | delta delta =>
    left
    dsimp only
    rw [shownArtifacts_appendAssistantDelta]
    exact (List.append_nil _).symm
  | resultCreated result =>
    dsimp only
    cases extractArtifactFromResult result.toJson with
    | none => exact .inl (List.append_nil _).symm
    | some artifact =>
      rcases shownArtifacts_appendArtifactMessage event.runId artifact ms with hnew | ⟨hold, shown, hmem, hsame⟩
      · exact .inl hnew
      · refine .inr ⟨hold, shown, hmem, fun a ha => ?_⟩
        rw [Option.map_some, Option.mem_some_iff] at ha
        exact ha ▸ hsame
  | _ => exact .inl (List.append_nil _).symm

theorem shownArtifacts_foldl_sublist (events : List TaskStreamEvent) (ms : List ConversationMessage) :
    (shownArtifacts (events.foldl applyMessage ms)).Sublist
      (shownArtifacts ms ++ events.filterMap artifactOf) := by
  induction events generalizing ms with
  | nil => simp
  | cons e events ih =>
    have hstep : (shownArtifacts (applyMessage ms e)).Sublist (shownArtifacts ms ++ (artifactOf e).toList) := by
      rcases shownArtifacts_applyMessage ms e with hnew | ⟨hold, -⟩
      · rw [hnew]
      · rw [hold]
        exact List.sublist_append_left _ _
    have hlist : (e :: events).filterMap artifactOf = (artifactOf e).toList ++ events.filterMap artifactOf := by
      cases he : artifactOf e <;> simp [he]
    rw [List.foldl_cons, hlist, ← List.append_assoc]
    exact (ih (applyMessage ms e)).trans (hstep.append_right _)

theorem mem_shownArtifacts_foldl {shown : ShownArtifact × Option String} (h : shown ∈ shownArtifacts ms)
    (events : List TaskStreamEvent) : shown ∈ shownArtifacts (events.foldl applyMessage ms) := by
  induction events generalizing ms with
  | nil => exact h
  | cons e events ih =>
    refine ih ?_
    rcases shownArtifacts_applyMessage ms e with hnew | ⟨hold, -⟩
    · rw [hnew]
      exact List.mem_append_left _ h
    · rwa [hold]

/-- No artifact is shown more often than the events have it, and none in another order. -/
theorem shownArtifacts_streamed_sublist (events : List TaskStreamEvent) :
    (shownArtifacts (streamed events)).Sublist (events.filterMap artifactOf) :=
  shownArtifacts_foldl_sublist events []

/-- Every artifact of the events is shown. -/
theorem exists_shown {a : ShownArtifact × Option String} (h : a ∈ events.filterMap artifactOf) :
    ∃ shown ∈ shownArtifacts (streamed events), SameArtifact shown a := by
  obtain ⟨e, he, ha⟩ := List.mem_filterMap.mp h
  obtain ⟨before, after, rfl⟩ := List.append_of_mem he
  rw [streamed, List.foldl_append, List.foldl_cons]
  rcases shownArtifacts_applyMessage (before.foldl applyMessage []) e with hnew | ⟨hold, shown, hmem, hsame⟩
  · refine ⟨a, mem_shownArtifacts_foldl ?_ after, rfl, rfl⟩
    rw [hnew, ha]
    exact List.mem_append_right _ List.mem_cons_self
  · refine ⟨shown, mem_shownArtifacts_foldl ?_ after, hsame a ha⟩
    rw [hold]
    exact List.mem_of_mem_getLast? hmem

/-- The last artifact of the events is the last one that is shown, or the one shown in its place. -/
theorem getLast_shownArtifacts {α : Type*} {f : ShownArtifact × Option String → α}
    (hf : ∀ a ∈ events.filterMap artifactOf, ∀ b ∈ events.filterMap artifactOf, SameArtifact a b → f a = f b) :
    (shownArtifacts (streamed events)).getLast?.map f = (events.filterMap artifactOf).getLast?.map f := by
  induction events using List.reverseRecOn with
  | nil => rfl
  | append_singleton events e ih =>
    have hsub : ∀ a ∈ events.filterMap artifactOf, a ∈ (events ++ [e]).filterMap artifactOf := by
      intro a ha
      rw [List.filterMap_append]
      exact List.mem_append_left _ ha
    have ih := ih fun a ha b hb => hf a (hsub a ha) b (hsub b hb)
    have hstreamed : streamed (events ++ [e]) = applyMessage (streamed events) e := by
      rw [streamed, List.foldl_append]
      rfl
    rw [hstreamed, List.filterMap_append]
    cases he : artifactOf e with
    | none =>
      have hsame : shownArtifacts (applyMessage (streamed events) e) = shownArtifacts (streamed events) := by
        rcases shownArtifacts_applyMessage (streamed events) e with hnew | ⟨hold, -⟩
        · rw [hnew, he]
          exact List.append_nil _
        · exact hold
      rw [hsame, ih]
      simp [he]
    | some a =>
      have hlast : (events.filterMap artifactOf ++ [e].filterMap artifactOf).getLast?.map f = some (f a) := by
        simp [he]
      rw [hlast]
      rcases shownArtifacts_applyMessage (streamed events) e with hnew | ⟨hold, shown, hshown, hsame⟩
      · rw [hnew, he]
        simp
      · rw [hold, Option.mem_def.mp hshown, Option.map_some, Option.some.injEq]
        refine hf shown (hsub _ ?_) a ?_ (hsame a he)
        · exact (shownArtifacts_streamed_sublist events).subset (List.mem_of_mem_getLast? hshown)
        · rw [List.filterMap_append]
          exact List.mem_append_right _ (by simp [he])

end StreamedMessages
