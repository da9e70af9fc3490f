import ClawWork.SharedTypes

/-!
# Events as JSON

An event is stored in a JSON column and read back through the event schema.
What the API stores has a result that is an archived artifact without a
download URL, and such an event is read back as it was written.
-/

namespace SharedTypes

open JavaScript

def ResultPayload.toJson : ResultPayload → Json
  | .artifact value => artifactResultJson value.toJson
  | .record fields => .obj fields

def TaskEventDetail.literal : TaskEventDetail → String
  | .accepted => "task.accepted"
  | .stageChanged _ => "task.stage.changed"
  | .delta _ => "task.delta"
  | .resultCreated _ => "task.result.created"
  | .completed => "task.completed"
  | .cancelled _ => "task.cancelled"
  | .failed _ _ => "task.failed"

/-- The members of an event beside those of the base schema. -/
def TaskEventDetail.fields (d : TaskEventDetail) : List (String × Json) :=
  ("type", .str d.literal) ::
    match d with
    | .stageChanged stage => [("stage", .str stage)]
    | .delta text => [("delta", .str text)]
    | .resultCreated result => [("result", result.toJson)]
    | .cancelled message => [("message", .str message)]
    | .failed code message => [("code", .str code), ("message", .str message)]
    | .accepted | .completed => []

def TaskStreamEvent.toJson (event : TaskStreamEvent) : Json :=
  .obj <| event.detail.fields ++
    [("taskId", .str event.taskId), ("sessionId", .str event.sessionId),
      ("runId", .str event.runId), ("timestamp", .str event.timestamp)]

/-- The union of the artifact schema and the open record. -/
def parseResult (isUrl : String → Bool) (json : Json) : Option ResultPayload :=
  match parseArtifactResult isUrl json, json with
  | some artifact, _ => some (.artifact artifact)
  | none, .obj fields => some (.record fields)
  | none, _ => none

def parseDetail (isUrl : String → Bool) (fields : List (String × Json)) : Option TaskEventDetail := do
  match ← parseString (member fields "type") with
  | "task.accepted" => some .accepted
  | "task.stage.changed" => some (.stageChanged (← parseString (member fields "stage")))
  | "task.delta" => some (.delta (← parseString (member fields "delta")))
  | "task.result.created" => some (.resultCreated (← parseResult isUrl (← member fields "result")))
  | "task.completed" => some .completed
  | "task.cancelled" => some (.cancelled (← parseString (member fields "message")))
  | "task.failed" =>
    some (.failed (← parseString (member fields "code")) (← parseString (member fields "message")))
  | _ => none

/-- `TaskStreamEventSchema.parse`; `none` when it throws. -/
def parseTaskStreamEvent (isUrl : String → Bool) : Json → Option TaskStreamEvent
  | .obj fields => do
    let detail ← parseDetail isUrl fields
    let taskId ← parseString (member fields "taskId")
    let sessionId ← parseString (member fields "sessionId")
    let runId ← parseString (member fields "runId")
    let timestamp ← parseString (member fields "timestamp")
    some ⟨detail, taskId, sessionId, runId, timestamp⟩
  | _ => none

theorem parseKind_literal (kind : ArtifactKind) : parseKind (.str kind.literal) = some kind := by
  cases kind <;> rfl

theorem parseArtifact_toJson {isUrl : String → Bool} {a : Artifact}
    (h : ∀ url, a.downloadUrl = some url → isUrl url = true) :
    parseArtifact isUrl (some a.toJson) = some a := by
  obtain ⟨kind, fileName, mimeType, artifactId, downloadUrl, previewText, sizeBytes⟩ := a
  cases artifactId <;> cases downloadUrl <;> cases sizeBytes <;>
    simp_all [parseArtifact, Artifact.toJson, member, parseKind_literal, parseString,
      parseOptionalString, parseOptionalNat]

theorem parseArtifactResult_toJson {isUrl : String → Bool} {a : Artifact}
    (h : ∀ url, a.downloadUrl = some url → isUrl url = true) :
    parseArtifactResult isUrl (artifactResultJson a.toJson) = some a := by
  simpa [parseArtifactResult, artifactResultJson, isArtifactLiteral, member] using
    parseArtifact_toJson h

/-- The events that the API stores: a result is an artifact without a download URL. -/
def TaskEventDetail.Storable : TaskEventDetail → Prop
  | .resultCreated (.artifact a) => a.downloadUrl = none
  | .resultCreated (.record _) => False
  | _ => True

/-- A result that the union of the schemas gives back as it is. -/
def ResultPayload.Canonical (isUrl : String → Bool) : ResultPayload → Prop
  | .artifact a => ∀ url, a.downloadUrl = some url → isUrl url = true
  | .record fields => parseArtifactResult isUrl (.obj fields) = none

def TaskEventDetail.Canonical (isUrl : String → Bool) : TaskEventDetail → Prop
  | .resultCreated result => result.Canonical isUrl
  | _ => True

theorem TaskEventDetail.Storable.canonical {isUrl : String → Bool} {d : TaskEventDetail} (h : d.Storable) :
    d.Canonical isUrl := by
  cases d with
  | resultCreated result =>
    cases result with
    | record fields => exact h.elim
    | artifact a =>
      intro url hurl
      rw [show a.downloadUrl = none from h] at hurl
      cases hurl
  | _ => trivial

theorem parseResult_toJson {isUrl : String → Bool} {result : ResultPayload} (h : result.Canonical isUrl) :
    parseResult isUrl result.toJson = some result := by
  cases result with
  | artifact a => simp [parseResult, ResultPayload.toJson, parseArtifactResult_toJson h]
  | record fields =>
    have hnone : parseArtifactResult isUrl (.obj fields) = none := h
    simp [parseResult, ResultPayload.toJson, hnone]

theorem parseDetail_fields {isUrl : String → Bool} {d : TaskEventDetail} (h : d.Canonical isUrl)
    (rest : List (String × Json)) : parseDetail isUrl (d.fields ++ rest) = some d := by
  cases d with
  | resultCreated result =>
    have hparse : parseResult isUrl result.toJson = some result := parseResult_toJson h
    simp [parseDetail, TaskEventDetail.fields, TaskEventDetail.literal, member, parseString, hparse]
  | _ => simp [parseDetail, TaskEventDetail.fields, TaskEventDetail.literal, member, parseString]

theorem member_fields_append {d : TaskEventDetail} {key : String} (rest : List (String × Json))
    (h : key ∉ ["type", "stage", "delta", "result", "code", "message"]) :
    member (d.fields ++ rest) key = member rest key := by
  simp only [List.mem_cons, List.not_mem_nil, or_false, not_or] at h
  obtain ⟨h₁, h₂, h₃, h₄, h₅, h₆⟩ := h
  cases d <;> simp [member, TaskEventDetail.fields, Ne.symm h₁, Ne.symm h₂, Ne.symm h₃, Ne.symm h₄,
    Ne.symm h₅, Ne.symm h₆]

theorem parseTaskStreamEvent_canonical {isUrl : String → Bool} {event : TaskStreamEvent}
    (h : event.detail.Canonical isUrl) : parseTaskStreamEvent isUrl event.toJson = some event := by
  have hmember : ∀ key, key ∉ ["type", "stage", "delta", "result", "code", "message"] → ∀ rest,
      member (event.detail.fields ++ rest) key = member rest key := fun key hkey rest =>
    member_fields_append rest hkey
  simp only [parseTaskStreamEvent, TaskStreamEvent.toJson, parseDetail_fields h]
  rw [hmember "taskId" (by decide), hmember "sessionId" (by decide), hmember "runId" (by decide),
    hmember "timestamp" (by decide)]
  simp [member, parseString]

/-- What was stored is read back. -/
theorem parseTaskStreamEvent_toJson {isUrl : String → Bool} {event : TaskStreamEvent}
    (h : event.detail.Storable) : parseTaskStreamEvent isUrl event.toJson = some event :=
  parseTaskStreamEvent_canonical h.canonical

theorem valid_of_parseOptionalString {valid : String → Bool} {value : Option Json} {text : String}
    (h : parseOptionalString valid value = some (some text)) : valid text = true := by
  unfold parseOptionalString at h
  split at h
  · cases h
  · split at h
    · rename_i hvalid
      cases h
      exact hvalid
    · cases h
  · cases h

theorem isUrl_of_parseArtifact {isUrl : String → Bool} {value : Option Json} {a : Artifact}
    (h : parseArtifact isUrl value = some a) : ∀ url, a.downloadUrl = some url → isUrl url = true := by
  unfold parseArtifact at h
  split at h
  · simp only [Option.bind_eq_bind, Option.bind_eq_some_iff] at h
    obtain ⟨kind, -, fileName, -, mimeType, -, artifactId, -, downloadUrl, hdownload, previewText, -, sizeBytes, -,
      h⟩ := h
    cases h
    intro url hurl
    cases hurl
    exact valid_of_parseOptionalString hdownload
  · cases h

theorem canonical_of_parseResult {isUrl : String → Bool} {json : Json} {result : ResultPayload}
    (h : parseResult isUrl json = some result) : result.Canonical isUrl := by
  unfold parseResult at h
  split at h
  · rename_i a hartifact
    cases h
    unfold parseArtifactResult at hartifact
    split at hartifact
    · split at hartifact
      · exact isUrl_of_parseArtifact hartifact
      · cases hartifact
    · cases hartifact
  · rename_i fields hnone
    cases h
    exact hnone
  · cases h

/-- What the schema gives for any value, it gives for that again. -/
theorem canonical_of_parseTaskStreamEvent {isUrl : String → Bool} {json : Json} {event : TaskStreamEvent}
    (h : parseTaskStreamEvent isUrl json = some event) : event.detail.Canonical isUrl := by
  unfold parseTaskStreamEvent at h
  split at h
  · simp only [Option.bind_eq_bind, Option.bind_eq_some_iff] at h
    obtain ⟨detail, hdetail, taskId, -, sessionId, -, runId, -, timestamp, -, h⟩ := h
    cases h
    cases detail with
    | resultCreated result =>
      simp only [parseDetail, Option.bind_eq_bind, Option.bind_eq_some_iff] at hdetail
      obtain ⟨literal, -, hdetail⟩ := hdetail
      -- only the branch of the type literal of a result can have given it
      split at hdetail <;> simp [Option.bind_eq_some_iff] at hdetail
      obtain ⟨value, -, hresult⟩ := hdetail
      exact canonical_of_parseResult hresult
    | _ => trivial
  · cases h

end SharedTypes
