import ClawWork.KeptResult
import ClawWork.ReadRuns
import ClawWork.StreamedMessages
import ClawWork.TenantIsolation

/-!
# A conversation that is reopened

The events of a completed task, folded into the messages one after another, and the messages
that `hydrateServerConversation` builds from the history. The texts are the same; of the
artifacts the history has the last one, which is the result of the task.
-/

namespace ReopenedConversation

open JavaScript SharedTypes TaskStore TasksService ServiceStore ConversationStore StreamedMessages KeptResult
open Isolation (Returns Program)
open ConversationStore.TaskState (historyMessages)
open PersistCalls (PersistedTaskEvent)
open TenantIsolation (exampleSettings)
open ServiceCalls (ServiceSettings Request Reply Call Included SessionHistory toArtifact)

/-! ## What the app shows -/

/-- A task of the history as the app reads it. -/
def receivedTask (task : ServiceCalls.HistoryTask) : HistoryTask where
  taskId := task.taskId
  inputText := task.inputText
  status := task.status
  errorMessage := task.errorMessage
  result := task.result.map ResultRow.toTaskResult

/-- The answer of `getHistoryTask` as the app reads it. -/
def received (answer : SessionHistory) : HistoryTaskDetail where
  sessionId := answer.sessionId
  status := answer.status
  currentTaskId := answer.currentTaskId
  tasks := answer.tasks.map receivedTask
  versions := answer.versions.map ResultRow.toTaskResult

def unsigned (artifact : ShownArtifact) : ShownArtifact := { artifact with downloadUrl := "" }

/-- The artifacts of the messages, their download URLs aside. -/
def artifacts (ms : List ConversationMessage) : List ShownArtifact :=
  (shownArtifacts ms).map fun shown => unsigned shown.1

/-- A message that was built from a task of the history. -/
def isOfTask (t : String) : ConversationMessage → Bool
  | .user _ => false
  | .assistant _ runId | .artifact _ runId => runId = some t

/-- The messages of a task in the conversation that is built from the history. -/
def reopened (t : String) (c : TaskState) (answer : SessionHistory) : List ConversationMessage :=
  (c.hydrateServerConversation (received answer)).messages.filter (isOfTask t)

/-- Download URLs can be signed, and a URL is that of one object. -/
def Signs (env : Nat → (r : Request) → Reply r) (keyOf : String → String) : Prop :=
  ∀ n key, ∃ url, env n (.createDownloadUrl key) = .ok url ∧ keyOf url = key

/-- An artifact as the app shows it. -/
def shownArtifact (a : Artifact) (downloadUrl : String) : ShownArtifact where
  artifactId := a.artifactId.map Json.str
  kind := a.kind
  fileName := a.fileName
  mimeType := a.mimeType
  sizeBytes := a.sizeBytes.map fun size => Json.num size
  previewText := a.previewText
  downloadUrl := downloadUrl

theorem extract_artifactResultJson (a : Artifact) :
    extractArtifactFromResult (artifactResultJson a.toJson) = a.downloadUrl.map (shownArtifact a) := by
  obtain ⟨kind, fileName, mimeType, artifactId, downloadUrl, previewText, sizeBytes⟩ := a
  cases artifactId <;> cases downloadUrl <;> cases sizeBytes <;>
    simp [extractArtifactFromResult, artifactResultJson, isArtifactLiteral, Artifact.toJson, memberOf, member,
      parseString, parseKind_literal, shownArtifact]

variable {settings : ServiceSettings} {env : Nat → (r : Request) → Reply r} {keyOf : String → String} {s : Store}
  {t userId : String} {result : ResultRow} {log es : List TaskStreamEvent}

/-! ## The replay of the events -/

/-- An event as it is sent: an artifact has the data of its row, and a URL. -/
def Delivered (keyOf : String → String) (rows : List ResultArtifact) (event sent : TaskStreamEvent) : Prop :=
  (resultOf event = none ∧ sent = event) ∨ ∃ row ∈ rows, ∃ url, keyOf url = row.storageKey ∧
    event.detail = .resultCreated (.artifact (recordOf row)) ∧
    sent = { event with detail := .resultCreated (.artifact (toArtifact row url)) }

theorem resultOf_eq_none {event : TaskStreamEvent} (h : ∀ result, event.detail ≠ .resultCreated result) :
    resultOf event = none := by
  obtain ⟨detail, taskId, sessionId, runId, timestamp⟩ := event
  cases detail with
  | resultCreated result => exact (h result rfl).elim
  | _ => rfl

theorem findArtifact_eq (hs : WellFormed s) {row : ResultArtifact} (hrow : row ∈ artifactsOfTask s t) :
    s.findArtifact row.id t = some row := by
  obtain ⟨hmem, htask⟩ := mem_artifactsOfTask.mp hrow
  cases hfind : s.findArtifact row.id t with
  | none =>
    have hnot := List.find?_eq_none.mp hfind row hmem
    simp [htask] at hnot
  | some other =>
    have hid : other.id = row.id := by
      have hboth := List.find?_some hfind
      simp only [Bool.and_eq_true, decide_eq_true_eq] at hboth
      exact hboth.1
    rw [List.inj_on_of_nodup_map hs.artifacts (List.mem_of_find?_eq_some hfind) hmem hid]

theorem returns_createDownloadUrl (hsigns : Signs env keyOf) (key : String) :
    Returns env s (ServiceCalls.createDownloadUrl key) fun url => keyOf url = key := by
  have hsigned : Returns (ε := Failure) env s (Program.request (Request.createDownloadUrl key))
      fun reply => ∃ url, reply = .ok url ∧ keyOf url = key := Returns.request fun n => hsigns n key
  refine hsigned.bind fun reply hreply => ?_
  obtain ⟨url, rfl, hkey⟩ := hreply
  exact Returns.pure hkey

/-- The artifact of an event is read from its row. -/
theorem returns_hydrateStoredEvent (hs : WellFormed s) (hsigns : Signs env keyOf) {event : TaskStreamEvent}
    (hrefers : Refers t (artifactsOfTask s t) event) :
    Returns env s (ServiceCalls.hydrateStoredEvent event) (Delivered keyOf (artifactsOfTask s t) event) := by
  obtain ⟨hown, hresult⟩ := hrefers
  unfold ServiceCalls.hydrateStoredEvent
  cases hdetail : event.detail with
  | resultCreated result =>
    obtain ⟨row, hrow, hid, rfl⟩ := hresult result hdetail
    have htruthy : truthy (recordOf row).artifactId = some row.id := by
      simp [truthy, recordOf, toArtifact, hid]
    dsimp only
    have hfind : s.findArtifact row.id event.taskId = some row := by
      rw [hown]
      exact findArtifact_eq hs hrow
    rw [htruthy]
    refine Returns.bind (Returns.read _) fun found hfound => ?_
    subst hfound
    rw [hfind]
    exact Returns.bind (returns_createDownloadUrl hsigns row.storageKey) fun url hkey =>
      Returns.pure (.inr ⟨row, hrow, url, hkey, hdetail, rfl⟩)
  | _ => exact Returns.pure (.inl ⟨resultOf_eq_none fun result h => by simp [hdetail] at h, rfl⟩)

/-- Every event of the log is sent, in its place. -/
theorem returns_listTaskEvents (hs : WellFormed s) (hsigns : Signs env keyOf)
    (hkept : Kept settings s t result log) {task : TaskRow} (htask : s.findTask userId t = some task) :
    Returns env s (ServiceCalls.listTaskEvents settings userId t 0) fun replay =>
      List.Forall₂ (Delivered keyOf (artifactsOfTask s t)) log (replay.map PersistedTaskEvent.event) := by
  have howner : Returns env s (ServiceCalls.assertTaskOwnership userId t) fun _ => True := by
    refine Returns.bind (Returns.read _) fun found hfound => ?_
    subst hfound
    exact Returns.require (by rw [htask]; rfl)
  have hrows : ((s.eventsOf t).filter fun row => decide (0 < row.id)) = s.eventsOf t := by
    refine List.filter_eq_self.mpr fun row hrow => ?_
    simpa using hs.numbered row (mem_eventsOf.mp hrow).1
  have hparsed := forall₂_of_mapM hkept.reads
  have hread : ∀ row ∈ s.eventsOf t, Returns env s (ServiceCalls.readEvent settings row) fun sent =>
      ∀ event, parsePersistedEvent settings.toSettings row.payload = some event →
        Delivered keyOf (artifactsOfTask s t) event sent.event := by
    intro row hrow
    obtain ⟨event, hevent, hparse⟩ := exists_of_mem_left hparsed hrow
    refine Returns.bind (Returns.orThrow hparse) fun read hread => ?_
    subst hread
    refine Returns.bind (returns_hydrateStoredEvent hs hsigns (hkept.refers read hevent)) fun sent hsent => ?_
    refine Returns.pure fun other hother => ?_
    cases hparse.symm.trans hother
    exact hsent
  refine howner.bind fun _ _ => Returns.bind (Returns.read _) fun rows hfound => ?_
  subst hfound
  rw [hrows]
  refine (Returns.traverse hread).mono fun replay hreplay => ?_
  rw [List.forall₂_map_right_iff]
  exact forall₂_join hparsed hreplay fun row event sent hparse hsent => hsent event hparse

/-! ## The fold of the events -/

theorem deltaOf_delivered {rows : List ResultArtifact} {event sent : TaskStreamEvent}
    (h : Delivered keyOf rows event sent) : deltaOf sent = deltaOf event := by
  rcases h with ⟨-, rfl⟩ | ⟨row, -, url, -, hdetail, rfl⟩
  · rfl
  · obtain ⟨detail, taskId, sessionId, runId, timestamp⟩ := event
    cases hdetail
    rfl

/-- The artifact that a stored event records. -/
def recorded (event : TaskStreamEvent) : Option ShownArtifact :=
  match resultOf event with
  | some (.artifact value) => some (shownArtifact value "")
  | _ => none

/-- What a sent event shows: the artifact of a row, and the place of its object. -/
theorem artifactOf_delivered {rows : List ResultArtifact} {event sent : TaskStreamEvent}
    (h : Delivered keyOf rows event sent) :
    (artifactOf sent = none ∧ recorded event = none) ∨ ∃ row ∈ rows, ∃ url, keyOf url = row.storageKey ∧
      artifactOf sent = some (shownArtifact (toArtifact row url) url, some sent.runId) ∧
      recorded event = some (shownArtifact (recordOf row) "") := by
  rcases h with ⟨hnone, rfl⟩ | ⟨row, hrow, url, hkey, hdetail, rfl⟩
  · refine .inl ⟨?_, by rw [recorded, hnone]⟩
    obtain ⟨detail, taskId, sessionId, runId, timestamp⟩ := sent
    cases detail with
    | resultCreated result => cases hnone
    | _ => rfl
  · refine .inr ⟨row, hrow, url, hkey, ?_, ?_⟩
    · simp only [artifactOf, ResultPayload.toJson]
      rw [extract_artifactResultJson]
      rfl
    · obtain ⟨detail, taskId, sessionId, runId, timestamp⟩ := event
      cases hdetail
      rfl

theorem outputText_delivered {rows : List ResultArtifact} (h : List.Forall₂ (Delivered keyOf rows) log es) :
    outputText es = outputText log := by
  have hdeltas : es.filterMap deltaOf = log.filterMap deltaOf := by
    induction h with
    | nil => rfl
    | cons hhead htail ih => simp only [List.filterMap_cons, deltaOf_delivered hhead, ih]
  rw [outputText, outputText, hdeltas]

/-- The sent events show what the stored ones record. -/
theorem shown_delivered {rows : List ResultArtifact} (h : List.Forall₂ (Delivered keyOf rows) log es) :
    (es.filterMap artifactOf).map (fun shown => unsigned shown.1) = log.filterMap recorded := by
  induction h with
  | nil => rfl
  | cons hhead htail ih =>
    rcases artifactOf_delivered hhead with ⟨hsent, hnone⟩ | ⟨row, -, url, -, hsent, hsome⟩
    · simp only [List.filterMap_cons, hsent, hnone, ih]
    · simp only [List.filterMap_cons, hsent, hsome, List.map_cons, ih]
      rfl

/-- The last artifact that is shown is the last one of the log. -/
theorem getLast_artifacts (hs : WellFormed s)
    (h : List.Forall₂ (Delivered keyOf (artifactsOfTask s t)) log es) :
    (artifacts (streamed es)).getLast? = (log.filterMap recorded).getLast? := by
  have hsame : ∀ a ∈ es.filterMap artifactOf, ∃ row ∈ s.resultArtifacts, keyOf a.1.downloadUrl = row.storageKey ∧
      unsigned a.1 = shownArtifact (recordOf row) "" := by
    intro a ha
    obtain ⟨sent, hsent, hshown⟩ := List.mem_filterMap.mp ha
    obtain ⟨event, -, hevent⟩ := exists_of_mem_right h hsent
    rcases artifactOf_delivered hevent with ⟨hnone, -⟩ | ⟨row, hrow, url, hkey, hsome, -⟩
    · rw [hnone] at hshown
      cases hshown
    · rw [hsome] at hshown
      cases hshown
      exact ⟨row, (mem_artifactsOfTask.mp hrow).1, hkey, rfl⟩
  rw [artifacts, List.getLast?_map, ← shown_delivered h, List.getLast?_map]
  refine getLast_shownArtifacts fun a ha b hb hurl => ?_
  obtain ⟨row, hrow, hkey, hshown⟩ := hsame a ha
  obtain ⟨row', hrow', hkey', hshown'⟩ := hsame b hb
  have hkeys : row.storageKey = row'.storageKey := by
    rw [← hkey, ← hkey', hurl.2]
  rw [hshown, hshown', List.inj_on_of_nodup_map hs.storageKeys hrow hrow' hkeys]

/-! ## The history -/

theorem artifactsOf_eq (hs : WellFormed s) (hkept : Kept settings s t result log) :
    s.artifactsOf result.id = artifactsOfTask s t := by
  have hresult : result ∈ s.taskResults ∧ result.taskId = t := by
    have hmem : result ∈ s.resultsOf t := hkept.results ▸ List.mem_cons_self
    simpa [Store.resultsOf] using hmem
  refine List.filter_congr fun row hrow => ?_
  rw [decide_eq_decide]
  constructor
  · intro hid
    obtain ⟨other, hother, heq, hof⟩ := hs.linked row hrow result.id hid
    rw [List.inj_on_of_nodup_map hs.results hother hresult.1 heq] at hof
    rw [← hof, hresult.2]
  · intro htask
    exact hkept.linked row (mem_artifactsOfTask.mpr ⟨hrow, htask⟩)

/-- The first result of a list, and what is recorded of it. -/
theorem findSome_recorded {rows : List ResultArtifact} (h : ∀ event ∈ es, Refers t rows event) :
    (es.findSome? resultOf = none ∧ es.findSome? recorded = none) ∨ ∃ row ∈ rows,
      es.findSome? resultOf = some (.artifact (recordOf row)) ∧
      es.findSome? recorded = some (shownArtifact (recordOf row) "") := by
  induction es with
  | nil => exact .inl ⟨rfl, rfl⟩
  | cons event es ih =>
    obtain ⟨hevent, hes⟩ := List.forall_mem_cons.mp h
    cases hresult : resultOf event with
    | none =>
      have hrecorded : recorded event = none := by rw [recorded, hresult]
      simpa only [List.findSome?_cons, hresult, hrecorded] using ih hes
    | some result =>
      obtain ⟨row, hrow, -, heq⟩ := hevent.2 result (by
        obtain ⟨detail, taskId, sessionId, runId, timestamp⟩ := event
        cases detail <;> cases hresult
        rfl)
      have hrecorded : recorded event = some (shownArtifact (recordOf row) "") := by rw [recorded, hresult, heq]
      refine .inr ⟨row, hrow, ?_, ?_⟩
      · simp only [List.findSome?_cons, hresult, heq]
      · simp only [List.findSome?_cons, hrecorded]

/-- A result for a client has the text of the log, and its last artifact. -/
structure ShowsLog (log : List TaskStreamEvent) (result : TaskResult) : Prop where
  text : result.outputText = outputText log
  artifact : (extractArtifactFromResult result.outputJson).map unsigned = (log.filterMap recorded).getLast?

theorem returns_toClientResult (hs : WellFormed s) (hsigns : Signs env keyOf)
    (hkept : Kept settings s t result log) :
    Returns env s (ServiceCalls.toClientResult settings (result, s.artifactsOf result.id))
      fun answer => ShowsLog log answer.toTaskResult := by
  have hrefers : ∀ event ∈ log.reverse, Refers t (artifactsOfTask s t) event := fun event hevent =>
    hkept.refers event (List.mem_reverse.mp hevent)
  unfold ServiceCalls.toClientResult
  dsimp only
  rw [artifactsOf_eq hs hkept, hkept.outputJson]
  rcases findSome_recorded hrefers with ⟨hnone, hshown⟩ | ⟨row, hrow, hsome, hshown⟩
  · have hnil : artifactsOfTask s t = [] := by
      by_contra hne
      obtain ⟨event, hevent, hresult⟩ := hkept.reported hne
      rw [List.findSome?_eq_none_iff.mp hnone event (List.mem_reverse.mpr hevent)] at hresult
      cases hresult
    rw [hnil]
    refine Returns.pure ⟨hkept.outputText, ?_⟩
    rw [List.getLast?_filterMap, hshown, hkept.outputJson, outputJson, hnone]
    simp [extractArtifactFromResult, isArtifactLiteral, memberOf, member]
  · have hparse : parseArtifactResult settings.isUrl (outputJson log) = some (recordOf row) := by
      rw [outputJson, hsome]
      exact parseArtifactResult_toJson fun url hurl => by cases hurl
    have hfind : (artifactsOfTask s t).find? (fun other => some other.id = some row.id) = some row := by
      cases hfind : (artifactsOfTask s t).find? (fun other => some other.id = some row.id) with
      | none =>
        have hnot := List.find?_eq_none.mp hfind row hrow
        simp at hnot
      | some other =>
        have hid : other.id = row.id := by simpa using List.find?_some hfind
        have hother := (mem_artifactsOfTask.mp (List.mem_of_find?_eq_some hfind)).1
        rw [List.inj_on_of_nodup_map hs.artifacts hother (mem_artifactsOfTask.mp hrow).1 hid]
    have hid : (some (recordOf row)).bind Artifact.artifactId = some row.id := rfl
    rw [hparse, hid, hfind]
    refine (returns_createDownloadUrl hsigns row.storageKey).bind fun url hkey => ?_
    refine Returns.pure ⟨hkept.outputText, ?_⟩
    rw [List.getLast?_filterMap, hshown]
    dsimp only
    rw [extract_artifactResultJson]
    rfl

/-- Any result is given to a client. -/
theorem returns_toClientResult_of_signs (hsigns : Signs env keyOf) (found : ResultRow × List ResultArtifact) :
    Returns env s (ServiceCalls.toClientResult settings found) fun _ => True := by
  unfold ServiceCalls.toClientResult
  dsimp only
  split
  · exact (returns_createDownloadUrl hsigns _).bind fun url _ => Returns.pure trivial
  · exact Returns.pure trivial

/-- What is read of a task for the history. -/
def includedTask (s : Store) (task : TaskRow) : Included :=
  ⟨task, s.withArtifacts (ServiceCalls.byVersionDesc (s.resultsOf task.id)), s.filesOf task.id⟩

/-- A task of the history; the one with the kept result has it. -/
structure Answers (t : String) (log : List TaskStreamEvent) (task : TaskRow) (answer : ServiceCalls.HistoryTask) :
    Prop where
  taskId : answer.taskId = task.id
  result : task.id = t → ∃ result, answer.result.map ResultRow.toTaskResult = some result ∧ ShowsLog log result

theorem returns_historyTask (hs : WellFormed s) (hsigns : Signs env keyOf) (hkept : Kept settings s t result log)
    (task : TaskRow) :
    Returns env s (ServiceCalls.historyTask settings (includedTask s task)) (Answers t log task) := by
  by_cases htask : task.id = t
  · have hfirst : Returns env s (ServiceCalls.firstResult settings (includedTask s task).results) fun answer =>
        ∃ row, answer = some row ∧ ShowsLog log row.toTaskResult := by
      have hresults : (includedTask s task).results = [(result, s.artifactsOf result.id)] := by
        rw [includedTask, htask, hkept.results]
        rfl
      rw [hresults]
      exact (returns_toClientResult hs hsigns hkept).bind fun row hrow => Returns.pure ⟨row, rfl, hrow⟩
    refine hfirst.bind fun answer hanswer => ?_
    obtain ⟨row, rfl, hshows⟩ := hanswer
    exact Returns.pure ⟨rfl, fun _ => ⟨row.toTaskResult, rfl, hshows⟩⟩
  · have hfirst : Returns env s (ServiceCalls.firstResult settings (includedTask s task).results) fun _ => True := by
      cases (includedTask s task).results with
      | nil => exact Returns.pure trivial
      | cons found rest =>
        exact (returns_toClientResult_of_signs hsigns found).bind fun _ _ => Returns.pure trivial
    exact hfirst.bind fun answer _ => Returns.pure ⟨rfl, fun heq => (htask heq).elim⟩

/-- The history has the tasks of the session. -/
theorem returns_getHistoryTask (hs : WellFormed s) (hsigns : Signs env keyOf) (hkept : Kept settings s t result log)
    {task : TaskRow} (htask : s.findTask userId t = some task) :
    Returns env s (ServiceCalls.getHistoryTask settings userId t) fun answer =>
      List.Forall₂ (Answers t log) (ServiceCalls.byCreation (s.sessionTasks task.sessionId)) answer.tasks := by
  obtain ⟨hget, huser⟩ := Option.filter_eq_some_iff.mp htask
  have huser : task.userId = userId := by simpa using huser
  obtain ⟨session, hsession⟩ := Option.isSome_iff_exists.mp (hs.session t task hget)
  rw [huser] at hsession
  have hid : session.id = task.sessionId := hs.sessions _ _ (Option.filter_eq_some_iff.mp hsession).1
  refine Returns.bind (Returns.read _) fun found hfound => ?_
  subst hfound
  refine Returns.bind (Returns.orThrow htask) fun found hfound => ?_
  subst hfound
  refine Returns.bind (Returns.read _) fun included hincluded => ?_
  subst hincluded
  rw [hsession]
  refine Returns.bind (Returns.orThrow rfl) fun included hincluded => ?_
  subst hincluded
  rw [← hid]
  have htasks : Returns env s (Program.traverse (ServiceCalls.historyTask settings)
      ((ServiceCalls.byCreation (s.sessionTasks session.id)).map (includedTask s))) fun answers =>
      List.Forall₂ (Answers t log) (ServiceCalls.byCreation (s.sessionTasks session.id)) answers := by
    have heach : ∀ found ∈ (ServiceCalls.byCreation (s.sessionTasks session.id)).map (includedTask s),
        Returns env s (ServiceCalls.historyTask settings found) (Answers t log found.task) := by
      intro found hfound
      obtain ⟨task, -, rfl⟩ := List.mem_map.mp hfound
      exact returns_historyTask hs hsigns hkept task
    exact (Returns.traverse heach).mono fun answers hanswers =>
      (List.forall₂_map_left_iff (f := includedTask s)).mp hanswers
  refine htasks.bind fun answers hanswers => ?_
  exact (Returns.traverse fun found _ => returns_toClientResult_of_signs hsigns found).bind fun _ _ =>
    Returns.pure hanswers

/-! ## The messages of the history -/

theorem filter_historyMessages_of_ne {task : HistoryTask} (h : task.taskId ≠ t) :
    (historyMessages task).filter (isOfTask t) = [] := by
  refine List.filter_eq_nil_iff.mpr fun message hmessage => ?_
  simp only [historyMessages, List.mem_append, Option.mem_toList, Option.map_eq_some_iff,
    List.mem_singleton] at hmessage
  rcases hmessage with (rfl | ⟨text, -, rfl⟩) | ⟨artifact, -, rfl⟩ <;> simp [isOfTask, h]

/-- The messages of a task are found by its id. -/
theorem filter_flatMap_historyMessages {tasks : List HistoryTask} (hnodup : (tasks.map HistoryTask.taskId).Nodup)
    {task : HistoryTask} (hmem : task ∈ tasks) (htask : task.taskId = t) :
    (tasks.flatMap historyMessages).filter (isOfTask t) = (historyMessages task).filter (isOfTask t) := by
  have hnone : ∀ others : List HistoryTask, (∀ other ∈ others, other.taskId ≠ t) →
      (others.flatMap historyMessages).filter (isOfTask t) = [] := by
    intro others hothers
    rw [List.filter_flatMap, List.flatMap_eq_nil_iff]
    exact fun other hother => filter_historyMessages_of_ne (hothers other hother)
  obtain ⟨before, after, rfl⟩ := List.append_of_mem hmem
  rw [List.map_append, List.map_cons, List.nodup_append'] at hnodup
  obtain ⟨-, hafter, hdisjoint⟩ := hnodup
  rw [List.flatMap_append, List.flatMap_cons, List.filter_append, List.filter_append, hnone before, hnone after,
    List.nil_append, List.append_nil]
  · intro other hother heq
    refine (List.nodup_cons.mp hafter).1 ?_
    rw [htask, ← heq]
    exact List.mem_map_of_mem hother
  · intro other hother heq
    refine hdisjoint (List.mem_map_of_mem hother) ?_
    rw [heq, htask]
    exact List.mem_cons_self

/-- What a task of the history shows: its text and its artifact. -/
theorem historyMessages_shows (task : HistoryTask) {row : TaskResult} (htask : task.taskId = t)
    (hresult : task.result = some row) (hshows : ShowsLog log row) :
    assistantText ((historyMessages task).filter (isOfTask t)) = outputText log ∧
      artifacts ((historyMessages task).filter (isOfTask t)) = (log.filterMap recorded).getLast?.toList := by
  rw [← hshows.text, ← hshows.artifact]
  have htext : (historyMessages task).filter (isOfTask t) =
      (if row.outputText = "" then [] else [.assistant row.outputText (some t)]) ++
        ((extractArtifactFromResult row.outputJson).map fun artifact => .artifact artifact (some t)).toList := by
    simp only [historyMessages, hresult, htask, Option.map_some, Option.bind_some, Option.filter_some]
    cases extractArtifactFromResult row.outputJson <;> split <;> simp_all [isOfTask]
  rw [htext]
  by_cases hempty : row.outputText = "" <;> cases extractArtifactFromResult row.outputJson <;>
    simp [hempty, assistantText, artifacts, shownArtifacts, List.filterMap_cons, textOf, shownOf]

theorem foldl_applyStreamEvent_messages (c : TaskState) (es : List TaskStreamEvent) :
    (es.foldl TaskState.applyStreamEvent c).messages = es.foldl applyMessage c.messages := by
  induction es generalizing c with
  | nil => rfl
  | cons e es ih => rw [List.foldl_cons, List.foldl_cons, ih, applyStreamEvent_messages]

/-- The tasks of the history have the ids of the tasks of the session, each once. -/
theorem nodup_answers (hs : WellFormed s) {sessionId : String} {answers : List ServiceCalls.HistoryTask}
    (h : List.Forall₂ (Answers t log) (ServiceCalls.byCreation (s.sessionTasks sessionId)) answers) :
    ((answers.map receivedTask).map HistoryTask.taskId).Nodup := by
  have hids : (answers.map receivedTask).map HistoryTask.taskId =
      (ServiceCalls.byCreation (s.sessionTasks sessionId)).map fun task => task.id := by
    generalize ServiceCalls.byCreation (s.sessionTasks sessionId) = tasks at h
    induction h with
    | nil => rfl
    | cons hhead htail ih =>
      simp only [List.map_cons, ih, receivedTask, hhead.taskId]
  rw [hids]
  have hvalues : (s.tasks.values.map fun task => task.id).Nodup := s.tasks.nodup_map_values hs.tasks
  have hperm : (ServiceCalls.byCreation (s.sessionTasks sessionId)).Perm (s.sessionTasks sessionId) :=
    List.perm_insertionSort _ _
  rw [(hperm.map _).nodup_iff]
  exact hvalues.sublist (List.filter_sublist.map _)

theorem toList_getLast_eq {α : Type*} (as : List α) : as.getLast?.toList = as ↔ as.length ≤ 1 := by
  cases as using List.reverseRecOn with
  | nil => simp
  | append_singleton as a => simp

/-- Reopening a conversation shows what was streamed, and of the artifacts the last one. -/
theorem reopened_shows_streamed (settings : ServiceSettings) (env : Nat → (r : Request) → Reply r)
    (keyOf : String → String) (hsigns : Signs env keyOf) (s s₁ s' : Store) (hs : WellFormed s) (hs' : WellFormed s')
    (stored : TaskStreamEvent) (source : Option String) (now eventId id : Nat) (resultId : String)
    (hrecorded : Recorded settings s stored.taskId) (hdetail : stored.detail = .completed)
    (hpersist : ServiceCalls.persistTransaction settings now resultId eventId stored source s = .ok (some id, s₁))
    (hsame : SameTask stored.taskId s₁ s') (userId : String) (hfind : (s'.findTask userId stored.taskId).isSome)
    (c c' : TaskState) (huser : c.messages.getLast?.any isUser) (n m : Nat) :
    ∃ replay answer,
      (ServiceCalls.listTaskEvents settings userId stored.taskId 0).run env n s' = (.ok replay, s') ∧
      (ServiceCalls.getHistoryTask settings userId stored.taskId).run env m s' = (.ok answer, s') ∧
      ∃ shown, ((replay.map PersistedTaskEvent.event).foldl TaskState.applyStreamEvent c).messages =
          c.messages ++ shown ∧
        assistantText (reopened stored.taskId c' answer) = assistantText shown ∧
        artifacts (reopened stored.taskId c' answer) = (artifacts shown).getLast?.toList ∧
        (artifacts (reopened stored.taskId c' answer) = artifacts shown ↔ (artifacts shown).length ≤ 1) := by
  obtain ⟨task, htask⟩ := Option.isSome_iff_exists.mp hfind
  obtain ⟨result, log, hkept⟩ := kept_of_persist hs hrecorded hdetail hpersist
  have hkept := hkept.later hsame
  obtain ⟨replay, hreplay, hdelivered⟩ := returns_listTaskEvents hs' hsigns hkept htask n
  obtain ⟨answer, hanswer, htasks⟩ := returns_getHistoryTask hs' hsigns hkept htask m
  refine ⟨replay, answer, hreplay, hanswer, streamed (replay.map PersistedTaskEvent.event), ?_, ?_⟩
  · rw [foldl_applyStreamEvent_messages, streamed, ← foldl_append huser, List.append_nil]
  · obtain ⟨hget, -⟩ := Option.filter_eq_some_iff.mp htask
    have hid : task.id = stored.taskId := hs'.tasks _ _ hget
    have hmem : task ∈ ServiceCalls.byCreation (s'.sessionTasks task.sessionId) := by
      rw [ServiceCalls.byCreation, List.mem_insertionSort, Store.sessionTasks, List.mem_filter]
      exact ⟨(s'.tasks.mem_values_iff task).mpr ⟨_, hget⟩, by simp⟩
    obtain ⟨found, hfound, hanswers⟩ := exists_of_mem_left htasks hmem
    obtain ⟨row, hrow, hshows⟩ := hanswers.result hid
    have hmessages : reopened stored.taskId c' answer =
        (historyMessages (receivedTask found)).filter (isOfTask stored.taskId) :=
      filter_flatMap_historyMessages (nodup_answers hs' htasks) (List.mem_map_of_mem hfound) (hanswers.taskId.trans hid)
    obtain ⟨htext, hartifacts⟩ := historyMessages_shows (receivedTask found) (hanswers.taskId.trans hid) hrow hshows
    rw [hmessages, htext, hartifacts, assistantText_streamed, outputText_delivered hdelivered,
      getLast_artifacts hs' hdelivered]
    exact ⟨rfl, rfl, getLast_artifacts hs' hdelivered ▸ toList_getLast_eq _⟩

/-! ## A task with two artifacts -/

/-- The URL of an object is its key at the address of the storage; all else fails. -/
def signing (_ : Nat) : (r : Request) → Reply r
  | .createDownloadUrl key => .ok ("https://s/" ++ key)
  | .createUploadUrl _ _ _ | .enqueueJob _ | .inspectObject _ | .cancelJob _ | .deleteObject _ =>
    .error (.error "not available")
  | .cancelExecution _ => .failed (.error "not available")
  | .evalScript _ => .failed (.error "not available")
  | .newId => "id"
  | .now | .newEventId => (0 : Nat)

theorem signs_signing : Signs signing fun url => .ofList (url.toList.drop 10) := by
  intro n key
  refine ⟨_, rfl, ?_⟩
  dsimp only
  rw [String.toList_append, List.drop_left' (by decide), String.ofList_toList]

def artifactRow (id : String) : ResultArtifact where
  id := id
  userId := "u"
  taskId := "t"
  resultId := none
  kind := .pdf
  fileName := id ++ ".pdf"
  mimeType := "application/pdf"
  sizeBytes := 3
  storageKey := "users/u/results/t/" ++ id
  previewText := ""

def demoEvent (detail : TaskEventDetail) : TaskStreamEvent := ⟨detail, "t", "s", "run", "2026-01-01"⟩

def eventRow (id : Nat) (detail : TaskEventDetail) : TaskEvent :=
  ⟨id, "t", some (toString id), detail.literal, (demoEvent detail).toJson⟩

def demoTask : TaskRow where
  id := "t"
  sessionId := "s"
  userId := "u"
  parentTaskId := none
  status := .running
  inputText := "hello"
  runId := some "run"
  adapterStreamUrl := none
  errorCode := none
  errorMessage := none
  startedAt := none
  completedAt := none
  queueJobId := none
  attemptCount := 1
  taskType := "document_summary"
  preferredTone := "balanced"
  preferredLength := "standard"
  createdAt := 0
  updatedAt := 0

/-- The task has said something, and two files were archived. -/
def twoArtifacts : Store := { Store.empty with
  users := ["u"]
  sessions := OrderedMap.empty.set "s" ⟨⟨"s", "u", "hello", .running, some "t"⟩, 0⟩
  tasks := OrderedMap.empty.set "t" demoTask
  resultArtifacts := [artifactRow "a", artifactRow "b"]
  taskEvents := [eventRow 1 .accepted, eventRow 2 (.delta "two files"),
    eventRow 3 (.resultCreated (.artifact (recordOf (artifactRow "a")))),
    eventRow 4 (.resultCreated (.artifact (recordOf (artifactRow "b"))))] }

/-- The transaction of the last event. -/
def completing : ServiceStore.Statement (Option Nat) :=
  ServiceCalls.persistTransaction exampleSettings 0 "r" 5 (demoEvent .completed) (some "5")

def completedStore : Store :=
  match completing twoArtifacts with
  | .ok (_, s) => s
  | .error _ => .empty

theorem completing_twoArtifacts : completing twoArtifacts = .ok (some 5, completedStore) := by
  have hid : (completing twoArtifacts).toOption.map Prod.fst = some (some 5) := by decide +kernel
  unfold completedStore
  split
  · rename_i id s hresult
    rw [hresult] at hid
    cases hid
    exact hresult
  · rename_i failure hresult
    rw [hresult] at hid
    cases hid

/-- The message of the user. -/
def started : TaskState := initialState.startConversation "hello"

/-- Both ways of the conversation, with the names of the artifacts that each shows. -/
def bothWays (s : Store) : Option (List String × List String) :=
  match (ServiceCalls.listTaskEvents exampleSettings "u" "t" 0).run signing 0 s,
    (ServiceCalls.getHistoryTask exampleSettings "u" "t").run signing 0 s with
  | (.ok replay, _), (.ok answer, _) =>
    some ((artifacts ((replay.map PersistedTaskEvent.event).foldl TaskState.applyStreamEvent started).messages).map
      ShownArtifact.fileName, (artifacts (reopened "t" initialState answer)).map ShownArtifact.fileName)
  | _, _ => none

/-- The first of two streamed artifacts is not shown again. -/
theorem reopened_lacks_artifact : ∃ s₁, completing twoArtifacts = .ok (some 5, s₁) ∧ ∃ replay answer,
    ((ServiceCalls.listTaskEvents exampleSettings "u" "t" 0).run signing 0 s₁).1 = .ok replay ∧
    ((ServiceCalls.getHistoryTask exampleSettings "u" "t").run signing 0 s₁).1 = .ok answer ∧
    artifacts (reopened "t" initialState answer) ≠
      artifacts ((replay.map PersistedTaskEvent.event).foldl TaskState.applyStreamEvent started).messages := by
  have hways : bothWays completedStore = some (["a.pdf", "b.pdf"], ["b.pdf"]) := by decide +kernel
  unfold bothWays at hways
  split at hways
  · rename_i replay _ answer _ hreplay hanswer
    obtain ⟨hstreamed, hreopened⟩ := Prod.mk.inj (Option.some.inj hways)
    refine ⟨completedStore, completing_twoArtifacts, replay, answer, by rw [hreplay], by rw [hanswer], fun heq => ?_⟩
    rw [heq, hstreamed] at hreopened
    exact absurd hreopened (by decide)
  · cases hways

/-- The text and the last artifact are shown again. -/
theorem reopened_shows_twoArtifacts : ∃ replay answer,
    (ServiceCalls.listTaskEvents exampleSettings "u" "t" 0).run signing 0 completedStore =
      (.ok replay, completedStore) ∧
    (ServiceCalls.getHistoryTask exampleSettings "u" "t").run signing 0 completedStore =
      (.ok answer, completedStore) ∧
    ∃ shown, ((replay.map PersistedTaskEvent.event).foldl TaskState.applyStreamEvent started).messages =
        started.messages ++ shown ∧
      assistantText (reopened "t" initialState answer) = assistantText shown ∧
      artifacts (reopened "t" initialState answer) = (artifacts shown).getLast?.toList ∧
      (artifacts (reopened "t" initialState answer) = artifacts shown ↔ (artifacts shown).length ≤ 1) :=
  reopened_shows_streamed exampleSettings signing _ signs_signing twoArtifacts completedStore completedStore
    (by decide +kernel) (by decide +kernel) (demoEvent .completed) (some "5") 0 5 5 "r" (by decide +kernel) rfl
    completing_twoArtifacts ⟨rfl, rfl, rfl⟩ "u" (by decide +kernel) started initialState (by decide +kernel) 0 0

end ReopenedConversation
