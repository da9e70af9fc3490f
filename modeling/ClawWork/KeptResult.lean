import ClawWork.ServiceCalls
import Mathlib.Data.List.Forall2

/-!
# What the server keeps of a completed task

The transaction of `task.completed` reads the events of the task, writes its one result and
links the artifacts that wait for it. From then on the events, the result and the artifacts of
the task stay as they are.
-/

namespace KeptResult

open JavaScript SharedTypes TaskStore TasksService ServiceStore
open Isolation (Action)
open ServiceCalls (ServiceSettings toArtifact)

/-- The primary, unique and foreign keys of the tables. -/
structure WellFormed (s : Store) : Prop where
  tasks : ∀ id row, s.tasks.get id = some row → row.id = id
  sessions : ∀ id row, s.sessions.get id = some row → row.id = id
  session : ∀ id row, s.tasks.get id = some row → (s.findSession row.userId row.sessionId).isSome
  numbered : ∀ row ∈ s.taskEvents, 0 < row.id
  results : (s.taskResults.map fun row => row.id).Nodup
  artifacts : (s.resultArtifacts.map ResultArtifact.id).Nodup
  storageKeys : (s.resultArtifacts.map ResultArtifact.storageKey).Nodup
  linked : ∀ row ∈ s.resultArtifacts, ∀ id, row.resultId = some id →
    ∃ result ∈ s.taskResults, result.id = id ∧ result.taskId = row.taskId

/-- The artifact that an event of a result records: the row without a URL. -/
def recordOf (row : ResultArtifact) : Artifact := { toArtifact row "" with downloadUrl := none }

variable (settings : ServiceSettings)

/-- The events of a task as they are read back. -/
def logOf (s : Store) (t : String) : Option (List TaskStreamEvent) :=
  (s.eventsOf t).mapM fun row => parsePersistedEvent settings.toSettings row.payload

/-- The event is about the task, and a result in it is one of the artifacts. -/
def Refers (t : String) (artifacts : List ResultArtifact) (event : TaskStreamEvent) : Prop :=
  event.taskId = t ∧ ∀ result, event.detail = .resultCreated result →
    ∃ row ∈ artifacts, row.id ≠ "" ∧ result = .artifact (recordOf row)

def artifactsOfTask (s : Store) (t : String) : List ResultArtifact :=
  s.resultArtifacts.filter fun row => row.taskId = t

/-- A task whose results so far are artifacts that were archived; none was archived without one. -/
structure Recorded (s : Store) (t : String) : Prop where
  results : s.resultsOf t = []
  refers : ∀ row ∈ s.eventsOf t, ∀ event, parsePersistedEvent settings.toSettings row.payload = some event →
    Refers t (artifactsOfTask s t) event
  reported : artifactsOfTask s t ≠ [] → ∃ row ∈ s.eventsOf t, ∃ event,
    parsePersistedEvent settings.toSettings row.payload = some event ∧ (resultOf event).isSome

/-- The result of a completed task is what its log says, and the artifacts of the log belong to it. -/
structure Kept (s : Store) (t : String) (result : ResultRow) (log : List TaskStreamEvent) : Prop where
  reads : logOf settings s t = some log
  results : s.resultsOf t = [result]
  outputText : result.outputText = outputText log
  outputJson : result.outputJson = outputJson log
  linked : ∀ row ∈ artifactsOfTask s t, row.resultId = some result.id
  refers : ∀ event ∈ log, Refers t (artifactsOfTask s t) event
  reported : artifactsOfTask s t ≠ [] → ∃ event ∈ log, (resultOf event).isSome

/-- The rows of the task are the same in both states. -/
structure SameTask (t : String) (s s' : Store) : Prop where
  events : s'.eventsOf t = s.eventsOf t
  results : s'.resultsOf t = s.resultsOf t
  artifacts : artifactsOfTask s' t = artifactsOfTask s t

variable {settings} {s s' : Store} {t : String} {result : ResultRow} {log : List TaskStreamEvent}

theorem Kept.later (h : Kept settings s t result log) (hsame : SameTask t s s') :
    Kept settings s' t result log where
  reads := by
    rw [logOf, hsame.events]
    exact h.reads
  results := hsame.results.trans h.results
  outputText := h.outputText
  outputJson := h.outputJson
  linked := by
    rw [hsame.artifacts]
    exact h.linked
  refers := by
    rw [hsame.artifacts]
    exact h.refers
  reported := by
    rw [hsame.artifacts]
    exact h.reported

instance (t : String) (rows : List ResultArtifact) (event : TaskStreamEvent) : Decidable (Refers t rows event) :=
  match h : event.detail with
  | .resultCreated (.artifact value) =>
    decidable_of_iff (event.taskId = t ∧ ∃ row ∈ rows, row.id ≠ "" ∧ value = recordOf row) (by
      simp [Refers, h])
  | .resultCreated (.record fields) => .isFalse fun hrefers => by
      obtain ⟨row, -, -, heq⟩ := hrefers.2 _ h
      cases heq
  | .accepted | .stageChanged _ | .delta _ | .completed | .cancelled _ | .failed _ _ =>
    decidable_of_iff (event.taskId = t) (by simp [Refers, h])

theorem recorded_iff : Recorded settings s t ↔ s.resultsOf t = [] ∧
    (∀ row ∈ s.eventsOf t, (parsePersistedEvent settings.toSettings row.payload).all
      fun event => Refers t (artifactsOfTask s t) event) ∧
    (artifactsOfTask s t = [] ∨ ∃ row ∈ s.eventsOf t,
      ((parsePersistedEvent settings.toSettings row.payload).bind resultOf).isSome) := by
  simp only [Option.all_eq_true, decide_eq_true_eq, Option.isSome_bind, Option.any_eq_true]
  constructor
  · intro h
    refine ⟨h.results, h.refers, ?_⟩
    by_cases hnil : artifactsOfTask s t = []
    · exact .inl hnil
    · exact .inr (h.reported hnil)
  · rintro ⟨hresults, hrefers, hreported⟩
    exact ⟨hresults, hrefers, hreported.resolve_left⟩

instance : Decidable (Recorded settings s t) := decidable_of_iff _ recorded_iff.symm

theorem wellFormed_iff : WellFormed s ↔
    (∀ e ∈ s.tasks.entries, e.2.id = e.1 ∧ (s.findSession e.2.userId e.2.sessionId).isSome) ∧
    (∀ e ∈ s.sessions.entries, e.2.id = e.1) ∧ (∀ row ∈ s.taskEvents, 0 < row.id) ∧
    (s.taskResults.map fun row => row.id).Nodup ∧ (s.resultArtifacts.map ResultArtifact.id).Nodup ∧
    (s.resultArtifacts.map ResultArtifact.storageKey).Nodup ∧
    ∀ row ∈ s.resultArtifacts, row.resultId.all fun id =>
      s.taskResults.any fun result => result.id = id && result.taskId = row.taskId := by
  simp only [Option.all_eq_true, List.any_eq_true, Bool.and_eq_true, decide_eq_true_eq]
  constructor
  · intro h
    refine ⟨fun e he => ?_, fun e he => ?_, h.numbered, h.results, h.artifacts, h.storageKeys, h.linked⟩
    · have hget := (s.tasks.get_eq_some_iff e.1 e.2).mpr he
      exact ⟨h.tasks _ _ hget, h.session _ _ hget⟩
    · exact h.sessions _ _ ((s.sessions.get_eq_some_iff e.1 e.2).mpr he)
  · rintro ⟨htasks, hsessions, hnumbered, hresults, hartifacts, hkeys, hlinked⟩
    exact ⟨fun id row hget => (htasks _ ((s.tasks.get_eq_some_iff id row).mp hget)).1,
      fun id row hget => hsessions _ ((s.sessions.get_eq_some_iff id row).mp hget),
      fun id row hget => (htasks _ ((s.tasks.get_eq_some_iff id row).mp hget)).2,
      hnumbered, hresults, hartifacts, hkeys, hlinked⟩

instance : Decidable (WellFormed s) := decidable_of_iff _ wellFormed_iff.symm

/-! ## Lists that are read back -/

section Lists

variable {α β : Type*} {R : α → β → Prop} {as : List α} {bs : List β}

theorem forall₂_of_mapM {f : α → Option β} (h : as.mapM f = some bs) :
    List.Forall₂ (fun a b => f a = some b) as bs := by
  induction as generalizing bs with
  | nil =>
    cases h
    exact .nil
  | cons a as ih =>
    rw [List.mapM_cons] at h
    obtain ⟨b, hb, h⟩ := Option.bind_eq_some_iff.mp h
    obtain ⟨rest, hrest, h⟩ := Option.bind_eq_some_iff.mp h
    cases h
    exact .cons hb (ih hrest)

theorem exists_of_mem_right (h : List.Forall₂ R as bs) {b : β} (hb : b ∈ bs) : ∃ a ∈ as, R a b := by
  induction h with
  | nil => cases hb
  | cons hhead htail ih =>
    rcases List.mem_cons.mp hb with rfl | hb
    · exact ⟨_, List.mem_cons_self, hhead⟩
    · obtain ⟨a, ha, hr⟩ := ih hb
      exact ⟨a, List.mem_cons_of_mem _ ha, hr⟩

theorem exists_of_mem_left (h : List.Forall₂ R as bs) {a : α} (ha : a ∈ as) : ∃ b ∈ bs, R a b :=
  exists_of_mem_right (List.Forall₂.flip h) ha

theorem forall₂_join {γ : Type*} {S : α → γ → Prop} {T : β → γ → Prop} {cs : List γ} (h : List.Forall₂ R as bs)
    (h' : List.Forall₂ S as cs) (hjoin : ∀ a b c, R a b → S a c → T b c) : List.Forall₂ T bs cs := by
  induction h generalizing cs with
  | nil =>
    cases h'
    exact .nil
  | cons hhead htail ih =>
    cases h' with
    | cons hhead' htail' => exact .cons (hjoin _ _ _ hhead hhead') (ih htail')

end Lists

/-! ## The transaction of `task.completed` -/

theorem mem_eventsOf {row : TaskEvent} : row ∈ s.eventsOf t ↔ row ∈ s.taskEvents ∧ row.taskId = t := by
  simp [Store.eventsOf]

theorem mem_artifactsOfTask {row : ResultArtifact} :
    row ∈ artifactsOfTask s t ↔ row ∈ s.resultArtifacts ∧ row.taskId = t := by
  simp [artifactsOfTask]

/-- The artifacts of a task without a result are linked to none. -/
theorem WellFormed.waiting (h : WellFormed s) (hresults : s.resultsOf t = []) {row : ResultArtifact}
    (hrow : row ∈ artifactsOfTask s t) : row.resultId = none := by
  obtain ⟨hmem, htask⟩ := mem_artifactsOfTask.mp hrow
  cases hid : row.resultId with
  | none => rfl
  | some id =>
    obtain ⟨result, hresult, -, hof⟩ := h.linked row hmem id hid
    have hmem' : result ∈ s.resultsOf t := List.mem_filter.mpr ⟨hresult, by simpa using hof.trans htask⟩
    rw [hresults] at hmem'
    cases hmem'

/-- The link of an artifact to its result. -/
def link (t resultId : String) (row : ResultArtifact) : ResultArtifact :=
  if row.taskId = t ∧ row.resultId = none then { row with resultId := some resultId } else row

theorem link_taskId (t resultId : String) (row : ResultArtifact) : (link t resultId row).taskId = row.taskId := by
  unfold link
  split <;> rfl

theorem link_id (t resultId : String) (row : ResultArtifact) : (link t resultId row).id = row.id := by
  unfold link
  split <;> rfl

theorem recordOf_link (t resultId : String) (row : ResultArtifact) :
    recordOf (link t resultId row) = recordOf row := by
  unfold link
  split <;> rfl

/-- What a transaction of `task.completed` has written. -/
structure Completes (settings : ServiceSettings) (s s' : Store) (t : String) (row : TaskEvent)
    (result : ResultRow) (log : List TaskStreamEvent) : Prop where
  events : s'.taskEvents = s.taskEvents ++ [row]
  reads : logOf settings s' t = some log
  results : s'.taskResults = s.taskResults ++ [result]
  taskId : result.taskId = t
  outputText : result.outputText = outputText log
  outputJson : result.outputJson = outputJson log
  artifacts : s'.resultArtifacts = s.resultArtifacts.map (link t result.id)

theorem insertion_ok {unique foreignKeys : Store → Bool} {f : Store → Store} {u : Unit}
    (h : insertion unique foreignKeys f s = .ok (u, s')) : s' = f s := by
  unfold insertion at h
  split at h
  · split at h
    · cases h
      rfl
    · cases h
  · cases h

theorem attempt_ok {f : Store → Option Store} {u : Unit} (h : attempt f s = .ok (u, s')) : f s = some s' := by
  unfold attempt at h
  split at h
  · rename_i hf
    cases h
    exact hf
  · cases h

theorem orThrow_ok {α : Type} {value : Option α} {failure : Failure} {a : α}
    (h : Action.orThrow value failure s = .ok (a, s')) : value = some a ∧ s' = s := by
  cases value with
  | none => cases h
  | some b =>
    cases h
    exact ⟨rfl, rfl⟩

theorem updateTask_ok {id : String} {now : Nat} {data : Task → Task} {u : Unit}
    (h : updateTask id now data s = .ok (u, s')) : s'.taskEvents = s.taskEvents ∧
      s'.taskResults = s.taskResults ∧ s'.resultArtifacts = s.resultArtifacts := by
  obtain ⟨row, -, rfl⟩ := Option.map_eq_some_iff.mp (attempt_ok h)
  exact ⟨rfl, rfl, rfl⟩

theorem updateSession_ok {id : String} {now : Nat} {data : AppSession → AppSession} {u : Unit}
    (h : updateSession id now data s = .ok (u, s')) : s'.taskEvents = s.taskEvents ∧
      s'.taskResults = s.taskResults ∧ s'.resultArtifacts = s.resultArtifacts := by
  obtain ⟨row, -, rfl⟩ := Option.map_eq_some_iff.mp (attempt_ok h)
  exact ⟨rfl, rfl, rfl⟩

theorem completeTask_ok {now : Nat} {resultId : String} {task : TaskRow} {stored : TaskStreamEvent} {u : Unit}
    (h : ServiceCalls.completeTask settings now resultId task stored s = .ok (u, s')) :
    ∃ log result, logOf settings s task.id = some log ∧ s'.taskEvents = s.taskEvents ∧
      s'.taskResults = s.taskResults ++ [result] ∧ result.taskId = task.id ∧
      result.outputText = outputText log ∧ result.outputJson = outputJson log ∧
      s'.resultArtifacts = s.resultArtifacts.map (link task.id result.id) := by
  unfold ServiceCalls.completeTask at h
  obtain ⟨rows, s₁, hrows, h⟩ := Action.bind_eq_ok h
  cases hrows
  obtain ⟨events, s₂, hevents, h⟩ := Action.bind_eq_ok h
  obtain ⟨hlog, hsame⟩ := orThrow_ok hevents
  subst s₂
  obtain ⟨version, s₃, hversion, h⟩ := Action.bind_eq_ok h
  cases hversion
  obtain ⟨_, s₄, hcreate, h⟩ := Action.bind_eq_ok h
  obtain ⟨_, s₅, hlink, h⟩ := Action.bind_eq_ok h
  obtain ⟨_, s₆, htask, hsession⟩ := Action.bind_eq_ok h
  have hcreated := insertion_ok hcreate
  obtain ⟨htaskEvents, htaskResults, htaskArtifacts⟩ := updateTask_ok htask
  obtain ⟨hsessionEvents, hsessionResults, hsessionArtifacts⟩ := updateSession_ok hsession
  cases hlink
  subst s₄
  refine ⟨events, _, hlog, hsessionEvents.trans htaskEvents, hsessionResults.trans htaskResults, rfl, rfl, rfl, ?_⟩
  rw [hsessionArtifacts, htaskArtifacts]
  rfl

/-- A transaction that commits has inserted its event, and then done what goes with the event. -/
theorem persistTransaction_commits {now eventId id : Nat} {resultId : String} {stored : TaskStreamEvent}
    {source : Option String}
    (h : ServiceCalls.persistTransaction settings now resultId eventId stored source s = .ok (some id, s')) :
    id = eventId ∧ ∃ task, s.tasks.get stored.taskId = some task ∧
      ServiceCalls.projectEvent settings now resultId task stored { s with taskEvents := s.taskEvents ++
        [⟨eventId, stored.taskId, source, stored.detail.literal, stored.toJson⟩] } = .ok ((), s') := by
  unfold ServiceCalls.persistTransaction at h
  obtain ⟨found, s₁, hfound, h⟩ := Action.bind_eq_ok h
  cases hfound
  dsimp only at h
  cases hget : s.tasks.get stored.taskId with
  | none =>
    rw [hget] at h
    cases h
  | some task =>
    rw [hget] at h
    dsimp only at h
    split at h
    · cases h
    · obtain ⟨duplicate, s₂, hduplicate, h⟩ := Action.bind_eq_ok h
      cases hduplicate
      split at h
      · cases h
      · obtain ⟨_, s₃, hcreate, h⟩ := Action.bind_eq_ok h
        obtain ⟨_, s₄, hproject, hdone⟩ := Action.bind_eq_ok h
        have hcreated := insertion_ok hcreate
        subst s₃
        cases hdone
        exact ⟨rfl, task, rfl, hproject⟩

theorem persistTransaction_ok {now eventId id : Nat} {resultId : String} {stored : TaskStreamEvent}
    {source : Option String} (hs : WellFormed s) (hdetail : stored.detail = .completed)
    (h : ServiceCalls.persistTransaction settings now resultId eventId stored source s = .ok (some id, s')) :
    ∃ result log, Completes settings s s' stored.taskId
      ⟨eventId, stored.taskId, source, stored.detail.literal, stored.toJson⟩ result log := by
  obtain ⟨-, task, hget, hproject⟩ := persistTransaction_commits h
  have hcompletes : ServiceCalls.projectEvent settings now resultId task stored =
      ServiceCalls.completeTask settings now resultId task stored := by
    simp only [ServiceCalls.projectEvent, hdetail]
  rw [hcompletes] at hproject
  obtain ⟨log, result, hlog, hevents, hresults, hof, htext, hjson, hartifacts⟩ := completeTask_ok hproject
  have hid : task.id = stored.taskId := hs.tasks _ _ hget
  rw [hid] at hlog hof hartifacts
  refine ⟨result, log, hevents, ?_, hresults, hof, htext, hjson, hartifacts⟩
  rw [← hlog]
  simp only [logOf, Store.eventsOf, hevents]

/-- The completing event is one of the events; it has no result. -/
theorem Completes.kept {row : TaskEvent} (hs : WellFormed s) (hrecorded : Recorded settings s t)
    (h : Completes settings s s' t row result log) (hrow : ∀ event,
      parsePersistedEvent settings.toSettings row.payload = some event → event.taskId = t ∧ event.detail = .completed) :
    Kept settings s' t result log := by
  have hartifacts : artifactsOfTask s' t = (artifactsOfTask s t).map (link t result.id) := by
    simp only [artifactsOfTask, h.artifacts, List.filter_map, Function.comp_def, link_taskId]
  have hparsed := forall₂_of_mapM h.reads
  have hrefers : ∀ old ∈ s'.eventsOf t, ∀ event,
      parsePersistedEvent settings.toSettings old.payload = some event → Refers t (artifactsOfTask s t) event := by
    intro old hold event hparse
    obtain ⟨hmem, htask⟩ := mem_eventsOf.mp hold
    rw [h.events] at hmem
    rcases List.mem_append.mp hmem with hmem | hnew
    · exact hrecorded.refers old (mem_eventsOf.mpr ⟨hmem, htask⟩) event hparse
    · rw [List.mem_singleton.mp hnew] at hparse
      obtain ⟨hown, hcompleted⟩ := hrow event hparse
      refine ⟨hown, fun result hresult => ?_⟩
      rw [hcompleted] at hresult
      cases hresult
  refine ⟨h.reads, ?_, h.outputText, h.outputJson, fun artifact hartifact => ?_, fun event hevent => ?_, fun hne => ?_⟩
  · have hresults := hrecorded.results
    simp only [Store.resultsOf] at hresults ⊢
    rw [h.results, List.filter_append, hresults]
    simp [h.taskId]
  · rw [hartifacts] at hartifact
    obtain ⟨old, hold, rfl⟩ := List.mem_map.mp hartifact
    rw [link, if_pos ⟨(mem_artifactsOfTask.mp hold).2, hs.waiting hrecorded.results hold⟩]
  · obtain ⟨old, hold, hparse⟩ := exists_of_mem_right hparsed hevent
    obtain ⟨hown, hresult⟩ := hrefers old hold event hparse
    refine ⟨hown, fun payload hpayload => ?_⟩
    obtain ⟨artifact, hartifact, hid, heq⟩ := hresult payload hpayload
    rw [hartifacts]
    refine ⟨_, List.mem_map_of_mem hartifact, ?_, ?_⟩
    · rwa [link_id]
    · rwa [recordOf_link]
  · have hsome : artifactsOfTask s t ≠ [] := by
      intro hnil
      rw [hartifacts, hnil] at hne
      exact hne rfl
    obtain ⟨old, hold, event, hparse, hresult⟩ := hrecorded.reported hsome
    obtain ⟨hmem, htask⟩ := mem_eventsOf.mp hold
    have hold' : old ∈ s'.eventsOf t := by
      rw [mem_eventsOf, h.events]
      exact ⟨List.mem_append_left _ hmem, htask⟩
    obtain ⟨event', hevent', hparse'⟩ := exists_of_mem_left hparsed hold'
    cases hparse.symm.trans hparse'
    exact ⟨event, hevent', hresult⟩

/-- After its transaction, a task whose results were archived has a result that is kept. -/
theorem kept_of_persist {now eventId id : Nat} {resultId : String} {stored : TaskStreamEvent} {source : Option String}
    (hs : WellFormed s) (hrecorded : Recorded settings s stored.taskId) (hdetail : stored.detail = .completed)
    (h : ServiceCalls.persistTransaction settings now resultId eventId stored source s = .ok (some id, s')) :
    ∃ result log, Kept settings s' stored.taskId result log := by
  obtain ⟨result, log, hcompletes⟩ := persistTransaction_ok hs hdetail h
  refine ⟨result, log, hcompletes.kept hs hrecorded fun event hparse => ?_⟩
  have hstorable : stored.detail.Storable := by
    rw [hdetail]
    trivial
  have hback : parsePersistedEvent settings.toSettings stored.toJson = some stored :=
    parseTaskStreamEvent_toJson hstorable
  cases hback.symm.trans hparse
  exact ⟨rfl, hdetail⟩

end KeptResult
