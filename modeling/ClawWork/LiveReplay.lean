import ClawWork.ArtifactEvents
import ClawWork.InterleavedReads
import ClawWork.KeptResult
import ClawWork.TenantIsolation

/-!
# Events live and in the replay

The calls of `persistTaskEvent` archive, commit and publish their events one after the other,
beside the statements of all other calls and the readers of `listTaskEvents`. A reader gets each
committed event as it is published; the download URL of an artifact is signed for the reader, and
is missing when the row of the artifact is gone.
-/

namespace LiveReplay

open JavaScript SharedTypes TaskStore TasksService ServiceTables ServiceStore KeptResult Transition
open Isolation (Program Action Yields)
open PersistCalls (PersistedTaskEvent)
open ServiceCalls (ServiceSettings Request Reply Call toArtifact)
open TenantIsolation (WorkerWrite exampleSettings)
open ArtifactEvents (archivedRow)

/-! ## The calls -/

/-- The `await` that a call of `persistTaskEvent` has come to. -/
inductive PersistPhase where
  | checking
  | preparing
  | committing (prepared : Prepared)
  | publishing (published : PersistedTaskEvent)
  | returned

structure Persist where
  event : TaskStreamEvent
  sourceEventId : Option String
  phase : PersistPhase

structure System where
  store : Store
  /-- The sequence of the event ids. -/
  nextEventId : Nat
  /-- The ids that were drawn for artifacts, with their storage keys. -/
  archives : List (String × String)
  persists : Nat → Option Persist
  /-- The calls of `listTaskEvents` that have not returned, or their answers. -/
  readers : Nat → Option (Call (List PersistedTaskEvent))
  /-- Every commit with the event that its call publishes, and the publications to the hub. -/
  committed : List PersistedTaskEvent
  published : List PersistedTaskEvent

def System.init : System := ⟨.empty, 1, [], fun _ => none, fun _ => none, [], []⟩

/-- The other statements of the service. -/
inductive Change where
  | register (user : String)
  | createSession (row : SessionRow)
  | createTask (row : TaskRow) (fileIds : List String)
  | updateTask (taskId : String) (now : Nat) (write : WorkerWrite)
  | updateSession (sessionId : String) (now : Nat) (data : AppSession → AppSession)
  | createFile (row : File)
  | updateFile (fileId : String) (data : File → File)
  | deleteFile (fileId : String)
  | deleteArtifact (artifactId : String)
  | deleteSession (sessionId : String)

def Change.statement : Change → Statement Unit
  | .register user => .write fun s => { s with users := s.users ++ [user] }
  | .createSession row => ServiceStore.createSession row
  | .createTask row fileIds => ServiceStore.createTask row fileIds
  | .updateTask taskId now write => ServiceStore.updateTask taskId now write.data
  | .updateSession sessionId now data => ServiceStore.updateSession sessionId now data
  | .createFile row => ServiceStore.createFile row
  | .updateFile fileId data => do
    let _ ← ServiceStore.updateFile fileId data
  | .deleteFile fileId => ServiceStore.deleteFile fileId
  | .deleteArtifact artifactId => ServiceStore.deleteArtifact artifactId
  | .deleteSession sessionId => ServiceStore.deleteSession sessionId

/-- How a call of `persistTaskEvent` goes on. -/
inductive Move where
  | check
  /-- `prepareTaskEvent`; `archived` is what became of the object of an artifact, if it was stored. -/
  | prepare (archived : Option Archived)
  | commit (now : Nat) (resultId : String)
  | publish
  /-- The call throws. -/
  | abort

inductive Label where
  | persist (c : Nat) (event : TaskStreamEvent) (sourceEventId : Option String)
  | move (c : Nat) (m : Move)
  | change (change : Change)
  | read (k : Nat) (userId taskId : String) (afterId : Nat)
  | advance (k : Nat)
  | answer (k : Nat) (request : Request) (reply : Reply request)

def System.goto (s : System) (c : Nat) (call : Persist) (phase : PersistPhase) : System :=
  { s with persists := Function.update s.persists c (some { call with phase }) }

def System.setReader (s : System) (k : Nat) (rest : Call (List PersistedTaskEvent)) : System :=
  { s with readers := Function.update s.readers k (some rest) }

/-- The artifact of the event of a call. -/
def artifactIn (event : TaskStreamEvent) : Option Artifact :=
  match event.detail with
  | .resultCreated (.artifact value) => some value
  | _ => none

/-- An artifact gets its row, and the call goes on to the transaction of the event. -/
def System.archive (s : System) (c : Nat) (call : Persist) (prepared : Prepared) (a : Artifact)
    (archived : Archived) : Option System :=
  if archived.artifactId = "" ∨ archived.artifactId ∈ s.archives.map Prod.fst then none
  else
    match s.store.tasks.get call.event.taskId with
    | none => some (s.goto c call .returned)
    | some task =>
      match createArtifact (archivedRow task.toTask a archived) s.store with
      | .ok (_, store) =>
        some ({ s with store, archives := (archived.artifactId, archived.storageKey) :: s.archives }.goto c call
          (.committing prepared))
      | .error _ => some (s.goto c call .returned)

def System.prepare (s : System) (c : Nat) (call : Persist) (archived : Option Archived) : Option System :=
  match prepareTaskEvent archived call.event with
  | none => some (s.goto c call .returned)
  | some prepared =>
    match artifactIn call.event, archived with
    | some a, some archived => s.archive c call prepared a archived
    | _, _ => some (s.goto c call (.committing prepared))

variable (settings : ServiceSettings)

def System.commit (s : System) (c : Nat) (call : Persist) (prepared : Prepared) (now : Nat)
    (resultId : String) : System :=
  match ServiceCalls.persistTransaction settings now resultId s.nextEventId prepared.stored call.sourceEventId
    s.store with
  | .ok (some id, store) =>
    let published := ⟨id, prepared.published⟩
    { s with store, nextEventId := s.nextEventId + 1, committed := s.committed ++ [published] }.goto c call
      (.publishing published)
  | .ok (none, _) => s.goto c call .returned
  | .error _ => { s with nextEventId := s.nextEventId + 1 }.goto c call .returned

/-- A call goes on until its next `await`. -/
def System.move (s : System) (c : Nat) (call : Persist) : Move → Option System
  | .check =>
    match call.phase with
    | .checking =>
      if (truthy call.sourceEventId).any fun source => s.store.hasSourceEvent call.event.taskId source then
        some (s.goto c call .returned)
      else some (s.goto c call .preparing)
    | _ => none
  | .prepare archived =>
    match call.phase with
    | .preparing => s.prepare c call archived
    | _ => none
  | .commit now resultId =>
    match call.phase with
    | .committing prepared => some (s.commit settings c call prepared now resultId)
    | _ => none
  | .publish =>
    match call.phase with
    | .publishing published => some ({ s with published := s.published ++ [published] }.goto c call .returned)
    | _ => none
  | .abort => some (s.goto c call .returned)

/-- A reader takes its next action. -/
def System.advance (s : System) (k : Nat) : Option System :=
  match s.readers k with
  | some (.act action next) =>
    match action s.store with
    | .ok (b, store) => some ({ s with store }.setReader k (next (.ok b)))
    | .error failure => some (s.setReader k (next (.error failure)))
  | _ => none

def System.answer (s : System) (k : Nat) (r : Request) (reply : Reply r) : Option System :=
  match s.readers k with
  | some (.ask r' next) => if h : r = r' then some (s.setReader k (next (h ▸ reply))) else none
  | _ => none

def step (s : System) : Label → Option System
  | .persist c event sourceEventId =>
    match s.persists c with
    | none => some { s with persists := Function.update s.persists c (some ⟨event, sourceEventId, .checking⟩) }
    | some _ => none
  | .move c m =>
    match s.persists c with
    | some call => s.move settings c call m
    | none => none
  | .change change =>
    match change.statement s.store with
    | .ok (_, store) => some { s with store }
    | .error _ => some s
  | .read k userId taskId afterId =>
    match s.readers k with
    | none => some (s.setReader k (ServiceCalls.listTaskEvents settings userId taskId afterId))
    | some _ => none
  | .advance k => s.advance k
  | .answer k r reply => s.answer k r reply

/-! ## What a reader is sent -/

/-- The event with another download URL of its artifact, or with none. -/
def withUrl (url : Option String) (event : TaskStreamEvent) : TaskStreamEvent :=
  match event.detail with
  | .resultCreated (.artifact value) =>
    { event with detail := .resultCreated (.artifact { value with downloadUrl := url }) }
  | _ => event

/-- The artifact of an event has a row of the same data, as long as it has a row. -/
def Archives (store : Store) (archives : List (String × String)) (event : TaskStreamEvent) : Prop :=
  ∀ a, artifactIn event = some a → ∃ id key, a.artifactId = some id ∧ id ≠ "" ∧ (id, key) ∈ archives ∧
    ∀ row ∈ store.resultArtifacts, row.id = id →
      row.storageKey = key ∧ row.taskId = event.taskId ∧ recordOf row = { a with downloadUrl := none }

/-- What the tables say of the events that were committed, and of the artifacts that were archived. -/
structure Sound (store : Store) (committed : List PersistedTaskEvent) (archives : List (String × String)) :
    Prop where
  rows : ∀ row ∈ store.taskEvents, ∃ live ∈ committed, live.id = row.id ∧ live.event.taskId = row.taskId ∧
    row.payload = (withUrl none live.event).toJson
  storable : ∀ live ∈ committed, (withUrl none live.event).detail.Storable
  archived : ∀ live ∈ committed, Archives store archives live.event
  artifacts : (store.resultArtifacts.map ResultArtifact.id).Nodup
  drawn : ∀ row ∈ store.resultArtifacts, row.id ∈ archives.map Prod.fst
  keys : (archives.map Prod.fst).Nodup

/-- The tables at a time, with the history that led to them. -/
structure World where
  store : Store
  committed : List PersistedTaskEvent
  archives : List (String × String)
  sound : Sound store committed archives

/-- Events and ids are kept, and a row that is gone does not come back. -/
structure World.Later (w w' : World) : Prop where
  committed : w.committed ⊆ w'.committed
  archives : w.archives ⊆ w'.archives
  artifacts : ∀ row' ∈ w'.store.resultArtifacts, row'.id ∈ w.archives.map Prod.fst →
    ∃ row ∈ w.store.resultArtifacts, row.id = row'.id

instance : Preorder World where
  le := World.Later
  le_refl w := ⟨fun _ h => h, fun _ h => h, fun row h _ => ⟨row, h, rfl⟩⟩
  le_trans u v w huv hvw := by
    refine ⟨fun _ h => hvw.committed (huv.committed h), fun _ h => hvw.archives (huv.archives h), ?_⟩
    intro row hrow hid
    obtain ⟨row', hrow', hid'⟩ := hvw.artifacts row hrow (List.map_subset _ huv.archives hid)
    obtain ⟨row'', hrow'', hid''⟩ := huv.artifacts row' hrow' (hid' ▸ hid)
    exact ⟨row'', hrow'', hid''.trans hid'⟩

/-- An event as it is sent for one that is published live: only the URL of an artifact is another one. It
is signed for the object of the artifact, or it is missing and the row is gone. -/
def SentFor (keyOf : String → String) (store : Store) (archives : List (String × String))
    (live sent : TaskStreamEvent) : Prop :=
  ∃ url, sent = withUrl url live ∧ ∀ a, artifactIn live = some a → ∃ id key, a.artifactId = some id ∧
    (id, key) ∈ archives ∧ ((url = none ∧ ∀ row ∈ store.resultArtifacts, row.id ≠ id) ∨
      ∃ signed, url = some signed ∧ keyOf signed = key)

/-- The event is sent for the committed one that has its id. -/
def Replays (keyOf : String → String) (w : World) (sent : PersistedTaskEvent) : Prop :=
  ∃ live ∈ w.committed, live.id = sent.id ∧ SentFor keyOf w.store w.archives live.event sent.event

def Replayed (keyOf : String → String) (w : World) (answer : List PersistedTaskEvent) : Prop :=
  ∀ sent ∈ answer, Replays keyOf w sent

/-- A download URL is that of one object; the storage fails with errors of its own. -/
def Admits (keyOf : String → String) : (r : Request) → Reply r → Prop
  | .createDownloadUrl key, .ok url => keyOf url = key
  | .createDownloadUrl _, .error failure => failure ≠ .zod
  | _, _ => True

variable {settings : ServiceSettings} {keyOf : String → String} {w w' : World} {live sent event : TaskStreamEvent}

theorem withUrl_of_none {url : Option String} (h : artifactIn event = none) : withUrl url event = event := by
  unfold artifactIn at h
  unfold withUrl
  split
  · rename_i value hdetail
    rw [hdetail] at h
    cases h
  · rfl

theorem artifactIn_eq_some {a : Artifact} : artifactIn event = some a ↔
    event.detail = .resultCreated (.artifact a) := by
  unfold artifactIn
  constructor
  · intro h
    split at h
    · rename_i value hdetail
      cases h
      exact hdetail
    · cases h
  · intro h
    rw [h]

theorem withUrl_of_some {url : Option String} {a : Artifact} (h : artifactIn event = some a) :
    withUrl url event = { event with detail := .resultCreated (.artifact { a with downloadUrl := url }) } := by
  rw [artifactIn_eq_some] at h
  rw [withUrl, h]

theorem SentFor.later (h : SentFor keyOf w.store w.archives live sent) (hlater : w ≤ w') :
    SentFor keyOf w'.store w'.archives live sent := by
  obtain ⟨url, hsent, hurl⟩ := h
  refine ⟨url, hsent, fun a ha => ?_⟩
  obtain ⟨id, key, hid, hkey, hcase⟩ := hurl a ha
  refine ⟨id, key, hid, hlater.archives hkey, hcase.imp_left fun ⟨hnone, hgone⟩ => ⟨hnone, ?_⟩⟩
  rintro row hrow rfl
  obtain ⟨old, hold, heq⟩ := hlater.artifacts row hrow (List.mem_map_of_mem hkey)
  exact hgone old hold heq

theorem Replays.later {sent : PersistedTaskEvent} (h : Replays keyOf w sent) (hlater : w ≤ w') :
    Replays keyOf w' sent := by
  obtain ⟨live, hlive, hid, hfor⟩ := h
  exact ⟨live, hlater.committed hlive, hid, hfor.later hlater⟩

theorem toArtifact_eq {row : ResultArtifact} {a : Artifact} (h : recordOf row = { a with downloadUrl := none })
    (url : String) : toArtifact row url = { a with downloadUrl := some url } :=
  congrArg (fun artifact : Artifact => { artifact with downloadUrl := some url }) h

theorem yields_createDownloadUrl (key : String) :
    Yields World.store (Admits keyOf) (fun failure => failure ≠ Failure.zod) (fun _ url => keyOf url = key) w
      (ServiceCalls.createDownloadUrl key) := by
  refine (Yields.request _).bind fun w' _ reply hreply => ?_
  cases reply with
  | ok url => exact Yields.pure (fun _ url => keyOf url = key) hreply
  | error failure => exact Yields.throw hreply

/-- An artifact is read from its row, if it is there. -/
theorem yields_hydrateStoredEvent {entry : PersistedTaskEvent} (hentry : entry ∈ w.committed) :
    Yields World.store (Admits keyOf) (fun failure => failure ≠ Failure.zod)
      (fun (w' : World) sent => SentFor keyOf w'.store w'.archives entry.event sent) w
      (ServiceCalls.hydrateStoredEvent (withUrl none entry.event)) := by
  cases hartifact : artifactIn entry.event with
  | none =>
    have hsent : SentFor keyOf w.store w.archives entry.event entry.event :=
      ⟨none, (withUrl_of_none hartifact).symm, fun a ha => by rw [hartifact] at ha; cases ha⟩
    rw [withUrl_of_none hartifact]
    unfold ServiceCalls.hydrateStoredEvent
    split
    · rename_i value hdetail
      rw [artifactIn_eq_some.mpr hdetail] at hartifact
      cases hartifact
    · exact Yields.pure (fun (w' : World) sent => SentFor keyOf w'.store w'.archives entry.event sent) hsent
  | some a =>
    obtain ⟨id, -, hid, hne, -⟩ := w.sound.archived entry hentry a hartifact
    have htruthy : truthy a.artifactId = some id := by simp [truthy, hid, hne]
    rw [withUrl_of_some hartifact]
    unfold ServiceCalls.hydrateStoredEvent
    dsimp only
    rw [htruthy]
    dsimp only
    have hquery : Yields World.store (Admits keyOf) (fun failure => failure ≠ Failure.zod)
        (fun w' found => found = w'.store.findArtifact id entry.event.taskId) w
        (ServiceCalls.query fun s => s.findArtifact id entry.event.taskId) := Yields.read fun w' _ => rfl
    refine hquery.bind fun w' hw found hfound => ?_
    subst hfound
    obtain ⟨id', key, hid', -, hkey, hrows⟩ := w'.sound.archived entry (hw.committed hentry) a hartifact
    cases hid.symm.trans hid'
    cases hfind : w'.store.findArtifact id entry.event.taskId with
    | none =>
      refine Yields.pure (fun (w' : World) sent => SentFor keyOf w'.store w'.archives entry.event sent)
        ⟨none, (withUrl_of_some hartifact).symm, fun b hb => ?_⟩
      cases hartifact.symm.trans hb
      refine ⟨id, key, hid, hkey, .inl ⟨rfl, fun row hrow heq => ?_⟩⟩
      have hnot := List.find?_eq_none.mp hfind row hrow
      simp [heq, (hrows row hrow heq).2.1] at hnot
    | some row =>
      have hrow := List.mem_of_find?_eq_some hfind
      have hfound : row.id = id := by
        have hboth := List.find?_some hfind
        simp only [Bool.and_eq_true, decide_eq_true_eq] at hboth
        exact hboth.1
      obtain ⟨hstorage, -, hrecord⟩ := hrows row hrow hfound
      refine (yields_createDownloadUrl row.storageKey).bind fun w'' hw' url hurl => ?_
      refine Yields.pure (fun (w' : World) sent => SentFor keyOf w'.store w'.archives entry.event sent)
        ⟨some url, ?_, fun b hb => ?_⟩
      · rw [withUrl_of_some hartifact, toArtifact_eq hrecord]
      · cases hartifact.symm.trans hb
        exact ⟨id, key, hid, hw'.archives hkey, .inr ⟨url, rfl, hurl.trans hstorage⟩⟩

theorem yields_readEvent {row : TaskEvent} {entry : PersistedTaskEvent} (hentry : entry ∈ w.committed)
    (hid : entry.id = row.id) (hpayload : row.payload = (withUrl none entry.event).toJson) :
    Yields World.store (Admits keyOf) (fun failure => failure ≠ Failure.zod) (Replays keyOf) w
      (ServiceCalls.readEvent settings row) := by
  have hparse : parsePersistedEvent settings.toSettings row.payload = some (withUrl none entry.event) := by
    rw [hpayload]
    exact parseTaskStreamEvent_toJson (w.sound.storable entry hentry)
  refine (Yields.orThrow fun hnone => by rw [hparse] at hnone; cases hnone).bind fun w' hw event hevent => ?_
  cases hparse.symm.trans hevent
  refine (yields_hydrateStoredEvent (hw.committed hentry)).bind fun w'' hw' sent hsent => ?_
  exact Yields.pure (Replays keyOf) ⟨entry, hw'.committed (hw.committed hentry), hid, hsent⟩

/-- Each event of an answer is sent for one that was committed, and all of them can be read. -/
theorem yields_listTaskEvents (userId taskId : String) (afterId : Nat) :
    Yields World.store (Admits keyOf) (fun failure => failure ≠ Failure.zod) (Replayed keyOf) w
      (ServiceCalls.listTaskEvents settings userId taskId afterId) := by
  have howner : Yields World.store (Admits keyOf) (fun failure => failure ≠ Failure.zod) (fun _ _ => True) w
      (ServiceCalls.assertTaskOwnership userId taskId) := by
    have hquery : Yields World.store (Admits keyOf) (fun failure => failure ≠ Failure.zod) (fun _ _ => True) w
        (ServiceCalls.query fun s => s.findTask userId taskId) := Yields.read fun _ _ => trivial
    refine hquery.bind fun w' _ task _ => ?_
    exact (Yields.require fun _ h => by cases h).mono fun _ _ _ => trivial
  refine howner.bind fun w' _ _ _ => ?_
  have hquery : Yields World.store (Admits keyOf) (fun failure => failure ≠ Failure.zod)
      (fun w' rows => ∀ row ∈ rows, row ∈ w'.store.taskEvents) w'
      (ServiceCalls.query fun s => (s.eventsOf taskId).filter fun row => afterId < row.id) :=
    Yields.read fun w'' _ row hrow => (mem_eventsOf.mp (List.mem_of_mem_filter hrow)).1
  refine hquery.bind fun w'' _ rows hrows => ?_
  refine Yields.traverse (fun w₃ hw₃ row hrow => ?_) fun _ _ _ huv hsent => hsent.later huv
  obtain ⟨entry, hentry, hid, -, hpayload⟩ := w''.sound.rows row (hrows row hrow)
  exact yields_readEvent (hw₃.committed hentry) hid hpayload

/-! ## What the statements keep -/

/-- The rows of tasks are found by their ids. -/
def Keyed (s : Store) : Prop := ∀ id row, s.tasks.get id = some row → row.id = id

/-- Artifacts are deleted, or linked to a result. -/
structure KeepsArtifacts (s s' : Store) : Prop where
  ids : (s'.resultArtifacts.map ResultArtifact.id).Sublist (s.resultArtifacts.map ResultArtifact.id)
  rows : ∀ row' ∈ s'.resultArtifacts, ∃ row ∈ s.resultArtifacts, ∃ resultId, row' = { row with resultId }
  keyed : Keyed s → Keyed s'

/-- The events are as they were, besides. -/
structure Quiet (s s' : Store) : Prop extends KeepsArtifacts s s' where
  events : s'.taskEvents = s.taskEvents

instance : Std.Refl KeepsArtifacts where
  refl _ := ⟨List.Sublist.refl _, fun row hrow => ⟨row, hrow, row.resultId, rfl⟩, id⟩

instance : IsTrans Store KeepsArtifacts where
  trans s s' s'' h h' := by
    refine ⟨h'.ids.trans h.ids, fun row hrow => ?_, fun hkeyed => h'.keyed (h.keyed hkeyed)⟩
    obtain ⟨row', hrow', resultId, rfl⟩ := h'.rows row hrow
    obtain ⟨row'', hrow'', resultId', rfl⟩ := h.rows row' hrow'
    exact ⟨row'', hrow'', resultId, rfl⟩

instance : Std.Refl Quiet where
  refl s := ⟨Std.Refl.refl s, rfl⟩

instance : IsTrans Store Quiet where
  trans s s' s'' h h' := ⟨IsTrans.trans s s' s'' h.toKeepsArtifacts h'.toKeepsArtifacts, h'.events.trans h.events⟩

theorem keyed_of_tasks {s s' : Store} (h : s'.tasks = s.tasks) (hkeyed : Keyed s) : Keyed s' := by
  intro id row hrow
  rw [h] at hrow
  exact hkeyed id row hrow

theorem keyed_set {s : Store} {row : TaskRow} {id : String} (hkeyed : Keyed s) (hid : row.id = id) :
    Keyed { s with tasks := s.tasks.set id row } := by
  intro id' row' hrow
  rw [OrderedMap.get_set] at hrow
  split at hrow
  · rename_i heq
    cases hrow
    rw [hid, heq]
  · exact hkeyed id' row' hrow

/-- Statements on other tables. -/
theorem quiet_of_same {s s' : Store} (hartifacts : s'.resultArtifacts = s.resultArtifacts)
    (hevents : s'.taskEvents = s.taskEvents) (hkeyed : Keyed s → Keyed s') : Quiet s s' :=
  ⟨⟨by rw [hartifacts], fun row hrow => ⟨row, hartifacts ▸ hrow, row.resultId, rfl⟩, hkeyed⟩, hevents⟩

theorem quiet_attempt {f : Store → Option Store} (h : ∀ s s', f s = some s' → Quiet s s') :
    Action.Respects Quiet (attempt f) :=
  fun s _ s' hs => h s s' (attempt_ok hs)

theorem quiet_insertion {unique foreignKeys : Store → Bool} {f : Store → Store} (h : ∀ s, Quiet s (f s)) :
    Action.Respects Quiet (insertion unique foreignKeys f) :=
  fun s _ _ hs => insertion_ok hs ▸ h s

theorem quiet_updateTask {id : String} {now : Nat} {data : Task → Task} (hdata : ∀ row, (data row).id = row.id) :
    Action.Respects Quiet (updateTask id now data) := by
  refine quiet_attempt fun s s' hs => ?_
  obtain ⟨row, hrow, rfl⟩ := Option.map_eq_some_iff.mp hs
  exact quiet_of_same rfl rfl fun hkeyed => keyed_set hkeyed ((hdata row.toTask).trans (hkeyed id row hrow))

theorem quiet_updateSession {id : String} {now : Nat} {data : AppSession → AppSession} :
    Action.Respects Quiet (updateSession id now data) := by
  refine quiet_attempt fun s s' hs => ?_
  obtain ⟨row, -, rfl⟩ := Option.map_eq_some_iff.mp hs
  exact quiet_of_same rfl rfl (keyed_of_tasks rfl)

theorem quiet_linkArtifacts {taskId resultId : String} : Action.Respects Quiet
    (linkArtifacts taskId resultId) := by
  refine Action.Respects.write fun s => ⟨⟨?_, fun row hrow => ?_, keyed_of_tasks rfl⟩, rfl⟩
  · change List.Sublist ((s.resultArtifacts.map (link taskId resultId)).map ResultArtifact.id) _
    have hids : ResultArtifact.id ∘ link taskId resultId = ResultArtifact.id := funext (link_id taskId resultId)
    rw [List.map_map, hids]
  · obtain ⟨old, hold, rfl⟩ := List.mem_map.mp hrow
    split
    · exact ⟨old, hold, some resultId, rfl⟩
    · exact ⟨old, hold, old.resultId, rfl⟩

theorem quiet_projectEvent {now : Nat} {resultId : String} {task : TaskRow} {stored : TaskStreamEvent} :
    Action.Respects Quiet (ServiceCalls.projectEvent settings now resultId task stored) := by
  have htask : Action.Respects Quiet (updateTask task.id now (taskUpdate (toISOString now) task.toTask stored)) :=
    quiet_updateTask fun row => taskUpdate_id (toISOString now) task.toTask stored row
  have hboth : Action.Respects Quiet (do
      updateTask task.id now (taskUpdate (toISOString now) task.toTask stored)
      updateSession task.sessionId now (sessionUpdate task.toTask stored)) :=
    htask.bind fun _ => quiet_updateSession
  unfold ServiceCalls.projectEvent
  split
  · exact htask
  · exact hboth
  · exact hboth
  · unfold ServiceCalls.completeTask
    refine (Action.Respects.read _).bind fun _ => (Action.Respects.orThrow _ _).bind fun _ =>
      (Action.Respects.read _).bind fun _ => ?_
    refine Action.Respects.bind (quiet_insertion fun s => quiet_of_same rfl rfl (keyed_of_tasks rfl)) fun _ => ?_
    exact quiet_linkArtifacts.bind fun _ => hboth
  all_goals exact Action.Respects.pure _

/-- A transaction that commits adds its event. -/
theorem keepsArtifacts_of_commit {s s' : Store} {now eventId id : Nat} {resultId : String}
    {stored : TaskStreamEvent} {source : Option String}
    (h : ServiceCalls.persistTransaction settings now resultId eventId stored source s = .ok (some id, s')) :
    id = eventId ∧ KeepsArtifacts s s' ∧ s'.taskEvents = s.taskEvents ++
      [⟨eventId, stored.taskId, source, stored.detail.literal, stored.toJson⟩] := by
  obtain ⟨rfl, task, -, hproject⟩ := persistTransaction_commits h
  have hquiet := quiet_projectEvent _ _ _ hproject
  exact ⟨rfl, ⟨hquiet.ids, hquiet.rows, fun hkeyed => hquiet.keyed (keyed_of_tasks rfl hkeyed)⟩, hquiet.events⟩

/-- What a session takes with it are rows of its own. -/
theorem keepsArtifacts_withoutSession (sessionId : String) (s : Store) :
    KeepsArtifacts s (withoutSession sessionId s) where
  ids := by
    rw [withoutSession, List.map_map]
    have hids : ∀ f : ResultArtifact → ResultArtifact, (∀ row, (f row).id = row.id) → ResultArtifact.id ∘ f =
        ResultArtifact.id := fun f hf => funext hf
    rw [hids _ fun row => by split <;> rfl]
    exact List.filter_sublist.map _
  rows := by
    intro row hrow
    obtain ⟨old, hold, rfl⟩ := List.mem_map.mp hrow
    refine ⟨old, List.mem_of_mem_filter hold, ?_⟩
    split
    · exact ⟨none, rfl⟩
    · exact ⟨old.resultId, rfl⟩
  keyed := by
    intro hkeyed id row hrow
    rw [withoutSession, OrderedMap.get_mapValues] at hrow
    obtain ⟨old, hold, rfl⟩ := Option.map_eq_some_iff.mp hrow
    rw [OrderedMap.get_filter] at hold
    have hid := hkeyed id old (Option.filter_eq_some_iff.mp hold).1
    split
    · exact hid
    · exact hid

theorem WorkerWrite.data_id (write : WorkerWrite) (row : Task) : (write.data row).id = row.id := by
  cases write with
  | dispatch runId streamUrl startedAt =>
    rw [WorkerWrite.data]
    split <;> rfl
  | _ => rfl

theorem keepsArtifacts_change {change : Change} {s s' : Store} {u : Unit}
    (h : change.statement s = .ok (u, s')) : KeepsArtifacts s s' ∧ s'.taskEvents ⊆ s.taskEvents := by
  have of_quiet : Quiet s s' → KeepsArtifacts s s' ∧ s'.taskEvents ⊆ s.taskEvents := fun hquiet =>
    ⟨hquiet.toKeepsArtifacts, hquiet.events ▸ List.Subset.refl _⟩
  cases change with
  | register user =>
    cases h
    exact of_quiet (quiet_of_same rfl rfl (keyed_of_tasks rfl))
  | createSession row =>
    unfold Change.statement ServiceStore.createSession at h
    cases insertion_ok h
    exact of_quiet (quiet_of_same rfl rfl (keyed_of_tasks rfl))
  | createTask row fileIds =>
    unfold Change.statement ServiceStore.createTask at h
    cases insertion_ok h
    exact of_quiet (quiet_of_same rfl rfl fun hkeyed => keyed_set hkeyed rfl)
  | updateTask taskId now write => exact of_quiet (quiet_updateTask (WorkerWrite.data_id write) s u s' h)
  | updateSession sessionId now data => exact of_quiet (quiet_updateSession s u s' h)
  | createFile row =>
    unfold Change.statement ServiceStore.createFile at h
    cases insertion_ok h
    exact of_quiet (quiet_of_same rfl rfl (keyed_of_tasks rfl))
  | updateFile fileId data =>
    obtain ⟨row, s₁, hupdate, hdone⟩ := Action.bind_eq_ok h
    cases hdone
    unfold ServiceStore.updateFile at hupdate
    split at hupdate
    · cases hupdate
      exact of_quiet (quiet_of_same rfl rfl (keyed_of_tasks rfl))
    · cases hupdate
  | deleteFile fileId =>
    unfold Change.statement ServiceStore.deleteFile at h
    have hsome := attempt_ok h
    split at hsome
    · cases hsome
      exact of_quiet (quiet_of_same rfl rfl (keyed_of_tasks rfl))
    · cases hsome
  | deleteArtifact artifactId =>
    cases h
    refine ⟨⟨List.filter_sublist.map _, fun row hrow => ?_, keyed_of_tasks rfl⟩, List.Subset.refl _⟩
    exact ⟨row, List.mem_of_mem_filter hrow, row.resultId, rfl⟩
  | deleteSession sessionId =>
    unfold Change.statement ServiceStore.deleteSession at h
    have hsome := attempt_ok h
    split at hsome
    · cases hsome
      exact ⟨keepsArtifacts_withoutSession sessionId s, List.filter_sublist.subset⟩
    · cases hsome

/-! ## Every state of a run -/

/-- What a call of `persistTaskEvent` relies on at its `await`. -/
def PhaseOk (s : System) : PersistPhase → Prop
  | .committing prepared => prepared.stored = withUrl none prepared.published ∧
    prepared.stored.detail.Storable ∧ Archives s.store s.archives prepared.published
  | .publishing published => published ∈ s.committed
  | .checking | .preparing | .returned => True

structure Inv (keyOf : String → String) (s : System) : Prop where
  sound : Sound s.store s.committed s.archives
  keyed : Keyed s.store
  calls : ∀ c call, s.persists c = some call → PhaseOk s call.phase
  ids : ∀ live ∈ s.committed, live.id < s.nextEventId
  nodup : (s.committed.map PersistedTaskEvent.id).Nodup
  published : s.published ⊆ s.committed
  readers : ∀ k rest, s.readers k = some rest → Yields World.store (Admits keyOf)
    (fun failure => failure ≠ Failure.zod) (Replayed keyOf) ⟨s.store, s.committed, s.archives, sound⟩ rest

variable {s s' : System}

theorem Archives.keep {store store' : Store} {archives : List (String × String)}
    (h : Archives store archives event)
    (hkeeps : KeepsArtifacts store store') : Archives store' archives event := by
  intro a ha
  obtain ⟨id, key, hid, hne, hkey, hrows⟩ := h a ha
  refine ⟨id, key, hid, hne, hkey, fun row hrow hrowId => ?_⟩
  obtain ⟨old, hold, resultId, rfl⟩ := hkeeps.rows row hrow
  exact hrows old hold hrowId

/-- A new artifact has an id of its own. -/
theorem Archives.archive {store : Store} {archives : List (String × String)} (h : Archives store archives event)
    {row : ResultArtifact} (hfresh : row.id ∉ archives.map Prod.fst) :
    Archives { store with resultArtifacts := store.resultArtifacts ++ [row] } ((row.id, row.storageKey) ::
    archives)
      event := by
  intro a ha
  obtain ⟨id, key, hid, hne, hkey, hrows⟩ := h a ha
  refine ⟨id, key, hid, hne, List.mem_cons_of_mem _ hkey, fun other hother hotherId => ?_⟩
  rcases List.mem_append.mp hother with hold | hnew
  · exact hrows other hold hotherId
  · rw [List.mem_singleton.mp hnew] at hotherId
    rw [hotherId] at hfresh
    exact (hfresh (List.mem_map_of_mem hkey)).elim

theorem Sound.keep {store store' : Store} {committed : List PersistedTaskEvent} {archives : List (String × String)}
    (h : Sound store committed archives) (hkeeps : KeepsArtifacts store store')
    (hevents : store'.taskEvents ⊆ store.taskEvents) : Sound store' committed archives where
  rows row hrow := h.rows row (hevents hrow)
  storable := h.storable
  archived live hlive := (h.archived live hlive).keep hkeeps
  artifacts := h.artifacts.sublist hkeeps.ids
  drawn row hrow := by
    obtain ⟨old, hold, resultId, rfl⟩ := hkeeps.rows row hrow
    exact h.drawn old hold
  keys := h.keys

theorem Sound.archive {store : Store} {committed : List PersistedTaskEvent} {archives : List (String × String)}
    (h : Sound store committed archives) {row : ResultArtifact} (hfresh : row.id ∉ archives.map Prod.fst) :
    Sound { store with resultArtifacts := store.resultArtifacts ++ [row] } committed
      ((row.id, row.storageKey) :: archives) where
  rows := h.rows
  storable := h.storable
  archived live hlive := (h.archived live hlive).archive hfresh
  artifacts := by
    rw [List.map_append, List.nodup_append]
    refine ⟨h.artifacts, List.nodup_singleton _, fun a ha b hb => ?_⟩
    obtain ⟨old, hold, rfl⟩ := List.mem_map.mp ha
    rw [List.map_singleton, List.mem_singleton] at hb
    rintro rfl
    exact hfresh (hb ▸ h.drawn old hold)
  drawn other hother := by
    rcases List.mem_append.mp hother with hold | hnew
    · exact List.mem_cons_of_mem _ (h.drawn other hold)
    · rw [List.mem_singleton.mp hnew]
      exact List.mem_cons_self
  keys := List.nodup_cons.mpr ⟨hfresh, h.keys⟩

theorem Sound.commit {store store' : Store} {committed : List PersistedTaskEvent}
    {archives : List (String × String)} (h : Sound store committed archives) (hkeeps : KeepsArtifacts store store')
    {row : TaskEvent} {published : PersistedTaskEvent} (hevents : store'.taskEvents = store.taskEvents ++ [row])
    (hid : published.id = row.id) (htask : published.event.taskId = row.taskId)
    (hpayload : row.payload = (withUrl none published.event).toJson)
    (hstorable : (withUrl none published.event).detail.Storable)
    (harchived : Archives store archives published.event) : Sound store' (committed ++ [published]) archives where
  rows other hother := by
    rw [hevents] at hother
    rcases List.mem_append.mp hother with hold | hnew
    · obtain ⟨live, hlive, hrow⟩ := h.rows other hold
      exact ⟨live, List.mem_append_left _ hlive, hrow⟩
    · rw [List.mem_singleton.mp hnew]
      exact ⟨published, List.mem_append_right _ List.mem_cons_self, hid, htask, hpayload⟩
  storable live hlive := by
    rcases List.mem_append.mp hlive with hold | hnew
    · exact h.storable live hold
    · rw [List.mem_singleton.mp hnew]
      exact hstorable
  archived live hlive := by
    rcases List.mem_append.mp hlive with hold | hnew
    · exact (h.archived live hold).keep hkeeps
    · rw [List.mem_singleton.mp hnew]
      exact harchived.keep hkeeps
  artifacts := h.artifacts.sublist hkeeps.ids
  drawn other hother := by
    obtain ⟨old, hold, resultId, rfl⟩ := hkeeps.rows other hother
    exact h.drawn old hold
  keys := h.keys

/-- What a step does to the tables and to the history. -/
structure Advances (s s' : System) : Prop where
  sound : Sound s'.store s'.committed s'.archives
  keyed : Keyed s'.store
  committed : s.committed ⊆ s'.committed
  archives : s.archives ⊆ s'.archives
  artifacts : ∀ row' ∈ s'.store.resultArtifacts, row'.id ∈ s.archives.map Prod.fst →
    ∃ row ∈ s.store.resultArtifacts, row.id = row'.id
  archived : ∀ event, Archives s.store s.archives event → Archives s'.store s'.archives event

theorem PhaseOk.advance {phase : PersistPhase} (h : PhaseOk s phase) (ha : Advances s s') : PhaseOk s' phase := by
  cases phase with
  | committing prepared => exact ⟨h.1, h.2.1, ha.archived _ h.2.2⟩
  | publishing published => exact ha.committed h
  | _ => trivial

/-- A step that leaves the tables alone. -/
theorem Inv.same (h : Inv keyOf s) (hstore : s'.store = s.store) (hcommitted : s'.committed = s.committed)
    (harchives : s'.archives = s.archives) : Advances s s' where
  sound := by
    rw [hstore, hcommitted, harchives]
    exact h.sound
  keyed := hstore ▸ h.keyed
  committed := hcommitted ▸ List.Subset.refl _
  archives := harchives ▸ List.Subset.refl _
  artifacts row hrow _ := ⟨row, hstore ▸ hrow, rfl⟩
  archived event hevent := by
    rw [hstore, harchives]
    exact hevent

theorem Inv.advance (h : Inv keyOf s) (ha : Advances s s')
    (hcalls : ∀ c call, s'.persists c = some call → s.persists c = some call ∨ PhaseOk s' call.phase)
    (hids : ∀ live ∈ s'.committed, live.id < s'.nextEventId)
    (hnodup : (s'.committed.map PersistedTaskEvent.id).Nodup) (hpublished : s'.published ⊆ s'.committed)
    (hreaders : ∀ k rest, s'.readers k = some rest → s.readers k = some rest ∨ Yields World.store (Admits keyOf)
      (fun failure => failure ≠ Failure.zod) (Replayed keyOf) ⟨s'.store, s'.committed, s'.archives,
      ha.sound⟩ rest) :
    Inv keyOf s' where
  sound := ha.sound
  keyed := ha.keyed
  calls c call hcall := (hcalls c call hcall).elim (fun hold => (h.calls c call hold).advance ha) id
  ids := hids
  nodup := hnodup
  published := hpublished
  readers k rest hrest := by
    refine (hreaders k rest hrest).elim (fun hold => ?_) id
    refine (h.readers k rest hold).later ⟨ha.committed, ha.archives, ha.artifacts⟩ ?_
    exact fun u v answer huv hanswer sent hsent => (hanswer sent hsent).later huv

theorem Inv.goto (h : Inv keyOf s) {s₁ : System} {c : Nat} {call : Persist} {phase : PersistPhase}
    (ha : Advances s s₁) (hpersists : s₁.persists = s.persists) (hreaders : s₁.readers = s.readers)
    (hphase : PhaseOk s₁ phase) (hids : ∀ live ∈ s₁.committed, live.id < s₁.nextEventId)
    (hnodup : (s₁.committed.map PersistedTaskEvent.id).Nodup) (hpublished : s₁.published ⊆ s₁.committed) :
    Inv keyOf (s₁.goto c call phase) := by
  have hgoto : Advances s (s₁.goto c call phase) :=
    ⟨ha.sound, ha.keyed, ha.committed, ha.archives, ha.artifacts, ha.archived⟩
  refine h.advance hgoto (fun d call' hd => ?_) hids hnodup hpublished fun k rest hrest => ?_
  · rw [System.goto, hpersists] at hd
    dsimp only at hd
    rw [Function.update_apply] at hd
    split at hd
    · cases hd
      exact .inr (by cases phase <;> exact hphase)
    · exact .inl hd
  · rw [System.goto, hreaders] at hrest
    exact .inl hrest

/-- A call that goes on without a statement. -/
theorem Inv.stays (h : Inv keyOf s) {c : Nat} {call : Persist} {phase : PersistPhase} (hphase : PhaseOk s phase) :
    Inv keyOf (s.goto c call phase) :=
  h.goto (h.same rfl rfl rfl) rfl rfl hphase h.ids h.nodup h.published

theorem published_eq {archived : Option Archived} {prepared : Prepared} {a : Artifact}
    (h : prepareTaskEvent archived event = some prepared) (ha : artifactIn event = some a) :
    ∃ r, archived = some r ∧ prepared.stored = withUrl none prepared.published ∧
      prepared.published.taskId = event.taskId ∧
      artifactIn prepared.published =
        some { a with
          artifactId := some r.artifactId, fileName := r.fileName, sizeBytes := some r.sizeBytes,
          downloadUrl := some r.signedUrl } := by
  rw [artifactIn_eq_some] at ha
  obtain ⟨b, r, hdetail, -, hr, rfl⟩ | ⟨hplain, -⟩ := prepareTaskEvent_eq_some h
  · rw [ha] at hdetail
    cases hdetail
    exact ⟨r, hr, rfl, rfl, rfl⟩
  · exact absurd ha (hplain _)

theorem published_eq_of_none {archived : Option Archived} {prepared : Prepared}
    (h : prepareTaskEvent archived event = some prepared) (ha : artifactIn event = none) :
    prepared.stored = withUrl none prepared.published ∧ artifactIn prepared.published = none := by
  obtain ⟨a, r, hdetail, -, -, rfl⟩ | ⟨-, rfl⟩ := prepareTaskEvent_eq_some h
  · rw [artifactIn_eq_some.mpr hdetail] at ha
    cases ha
  · exact ⟨(withUrl_of_none ha).symm, ha⟩

theorem archives_of_none {store : Store} {archives : List (String × String)} (h : artifactIn event = none) :
    Archives store archives event := by
  intro a ha
  rw [h] at ha
  cases ha

theorem inv_archive {c : Nat} {call : Persist} {prepared : Prepared} {a : Artifact} {archived : Archived}
    (h : Inv keyOf s) (hprepared : prepareTaskEvent (some archived) call.event = some prepared)
    (hartifact : artifactIn call.event = some a) (hstep : s.archive c call prepared a archived = some s') :
    Inv keyOf s' := by
  obtain ⟨r, hr, hstored, htaskId, hpublished⟩ := published_eq hprepared hartifact
  cases hr
  unfold System.archive at hstep
  split at hstep
  · cases hstep
  · rename_i hfresh
    obtain ⟨hne, hfresh⟩ := not_or.mp hfresh
    cases htask : s.store.tasks.get call.event.taskId with
    | none =>
      rw [htask] at hstep
      cases hstep
      exact h.stays trivial
    | some task =>
      rw [htask] at hstep
      dsimp only at hstep
      split at hstep
      · rename_i u store hcreate
        cases hstep
        have hstore := insertion_ok hcreate
        subst hstore
        have hnew : (archivedRow task.toTask a archived).id ∉ s.archives.map Prod.fst := hfresh
        have hadvances : Advances s { s with
            store := { s.store with resultArtifacts := s.store.resultArtifacts ++
            [archivedRow task.toTask a archived] }
            archives := (archived.artifactId, archived.storageKey) :: s.archives } := by
          refine ⟨h.sound.archive hnew, keyed_of_tasks rfl h.keyed, List.Subset.refl _, List.subset_cons_self _ _,
            fun row hrow hid => ?_, fun event hevent => hevent.archive hnew⟩
          rcases List.mem_append.mp hrow with hold | hrow
          · exact ⟨row, hold, rfl⟩
          · rw [List.mem_singleton.mp hrow] at hid
            exact (hnew hid).elim
        refine h.goto hadvances rfl rfl ⟨hstored, prepareTaskEvent_storable hprepared, fun b hb => ?_⟩
          h.ids h.nodup h.published
        cases hpublished.symm.trans hb
        refine ⟨archived.artifactId, archived.storageKey, rfl, hne, List.mem_cons_self, fun row hrow hid => ?_⟩
        rcases List.mem_append.mp hrow with hold | hrow
        · exact (hfresh (hid ▸ h.sound.drawn row hold)).elim
        · rw [List.mem_singleton.mp hrow]
          exact ⟨rfl, (h.keyed _ _ htask).trans htaskId.symm, rfl⟩
      · cases hstep
        exact h.stays trivial

theorem inv_prepare {c : Nat} {call : Persist} {archived : Option Archived} (h : Inv keyOf s)
    (hstep : s.prepare c call archived = some s') : Inv keyOf s' := by
  unfold System.prepare at hstep
  cases hprepared : prepareTaskEvent archived call.event with
  | none =>
    rw [hprepared] at hstep
    cases hstep
    exact h.stays trivial
  | some prepared =>
    rw [hprepared] at hstep
    cases hartifact : artifactIn call.event with
    | none =>
      rw [hartifact] at hstep
      cases hstep
      obtain ⟨hstored, hnone⟩ := published_eq_of_none hprepared hartifact
      exact h.stays ⟨hstored, prepareTaskEvent_storable hprepared, archives_of_none hnone⟩
    | some a =>
      rw [hartifact] at hstep
      obtain ⟨r, rfl, -⟩ := published_eq hprepared hartifact
      exact inv_archive h hprepared hartifact hstep

theorem inv_commit {c now : Nat} {call : Persist} {prepared : Prepared} {resultId : String} (h : Inv keyOf s)
    (hcall : s.persists c = some call) (hphase : call.phase = .committing prepared) :
    Inv keyOf (s.commit settings c call prepared now resultId) := by
  have hok := h.calls c call hcall
  rw [hphase] at hok
  obtain ⟨hstored, hstorable, harchives⟩ := hok
  have hlater : ∀ live ∈ s.committed, live.id < s.nextEventId + 1 := fun live hlive =>
    Nat.lt_succ_of_lt (h.ids live hlive)
  unfold System.commit
  split
  · rename_i id store hpersist
    obtain ⟨rfl, hkeeps, hevents⟩ := keepsArtifacts_of_commit hpersist
    have htask : prepared.published.taskId = prepared.stored.taskId := by
      rw [hstored]
      unfold withUrl
      split <;> rfl
    have hsound : Sound store (s.committed ++ [⟨s.nextEventId, prepared.published⟩]) s.archives :=
      h.sound.commit hkeeps hevents rfl htask (by rw [hstored]) (hstored ▸ hstorable) harchives
    refine h.goto ⟨hsound, hkeeps.keyed h.keyed, List.subset_append_left _ _, List.Subset.refl _,
      fun row hrow _ => ?_, fun event hevent => hevent.keep hkeeps⟩ rfl rfl
      (List.mem_append_right _ List.mem_cons_self) (fun live hlive => ?_) ?_
      fun _ hlive => List.mem_append_left _ (h.published hlive)
    · obtain ⟨old, hold, resultId, rfl⟩ := hkeeps.rows row hrow
      exact ⟨old, hold, rfl⟩
    · rcases List.mem_append.mp hlive with hold | hnew
      · exact hlater live hold
      · rw [List.mem_singleton.mp hnew]
        exact Nat.lt_succ_self _
    · rw [List.map_append, List.nodup_append]
      refine ⟨h.nodup, List.nodup_singleton _, fun a ha b hb => ?_⟩
      obtain ⟨live, hlive, rfl⟩ := List.mem_map.mp ha
      rw [List.map_singleton, List.mem_singleton] at hb
      rw [hb]
      exact Nat.ne_of_lt (h.ids live hlive)
  · exact h.stays trivial
  · exact h.goto (h.same rfl rfl rfl) rfl rfl trivial hlater h.nodup h.published

theorem inv_move {c : Nat} {call : Persist} {m : Move} (h : Inv keyOf s) (hcall : s.persists c = some call)
    (hstep : s.move settings c call m = some s') : Inv keyOf s' := by
  cases m with
  | check =>
    simp only [System.move] at hstep
    split at hstep
    · split at hstep
      · cases hstep
        exact h.stays trivial
      · cases hstep
        exact h.stays trivial
    · cases hstep
  | prepare archived =>
    simp only [System.move] at hstep
    split at hstep
    · exact inv_prepare h hstep
    · cases hstep
  | commit now resultId =>
    simp only [System.move] at hstep
    split at hstep
    · rename_i prepared hphase
      cases hstep
      exact inv_commit h hcall hphase
    · cases hstep
  | publish =>
    simp only [System.move] at hstep
    split at hstep
    · rename_i published hphase
      cases hstep
      have hok := h.calls c call hcall
      rw [hphase] at hok
      exact h.goto (h.same rfl rfl rfl) rfl rfl trivial h.ids h.nodup
        (List.append_subset.mpr ⟨h.published, fun live hlive => List.mem_singleton.mp hlive ▸ hok⟩)
    · cases hstep
  | abort =>
    cases hstep
    exact h.stays trivial

/-- The replies that the environment may give. -/
def Admitted (keyOf : String → String) (_ : System) : Label → Prop
  | .answer _ r reply => Admits keyOf r reply
  | _ => True

theorem inv_init (keyOf : String → String) : Inv keyOf .init where
  sound := ⟨fun row hrow => (List.not_mem_nil hrow).elim, fun live hlive => (List.not_mem_nil hlive).elim,
    fun live hlive => (List.not_mem_nil hlive).elim, List.nodup_nil, fun row hrow => (List.not_mem_nil hrow).elim,
    List.nodup_nil⟩
  keyed id row hrow := by cases hrow
  calls c call hcall := by cases hcall
  ids live hlive := (List.not_mem_nil hlive).elim
  nodup := List.nodup_nil
  published := List.Subset.refl _
  readers k rest hrest := by cases hrest

/-- One reader goes on, and the tables stay as they are. -/
theorem Inv.setReader (h : Inv keyOf s) {k : Nat} {rest : Call (List PersistedTaskEvent)}
    (hrest : Yields World.store (Admits keyOf) (fun failure => failure ≠ Failure.zod) (Replayed keyOf)
      ⟨s.store, s.committed, s.archives, h.sound⟩ rest) : Inv keyOf (s.setReader k rest) := by
  refine h.advance (h.same rfl rfl rfl) (fun c call hcall => .inl hcall) h.ids h.nodup h.published
    fun k' rest' hrest' => ?_
  rw [System.setReader] at hrest'
  dsimp only at hrest'
  rw [Function.update_apply] at hrest'
  split at hrest'
  · cases hrest'
    exact .inr hrest
  · exact .inl hrest'

theorem inv_advance {k : Nat} (h : Inv keyOf s) (hstep : s.advance k = some s') : Inv keyOf s' := by
  unfold System.advance at hstep
  split at hstep
  · rename_i β action next hreader
    obtain ⟨hok, herror⟩ := h.readers k _ hreader ⟨s.store, s.committed, s.archives, h.sound⟩ le_rfl
    split at hstep
    · rename_i b store haction
      cases hstep
      obtain ⟨rfl, hrest⟩ := hok b store haction
      exact h.setReader hrest
    · rename_i failure haction
      cases hstep
      exact h.setReader (herror failure haction)
  · cases hstep

theorem inv_answer {k : Nat} {r : Request} {reply : Reply r} (h : Inv keyOf s) (hadmits : Admits keyOf r reply)
    (hstep : s.answer k r reply = some s') : Inv keyOf s' := by
  unfold System.answer at hstep
  split at hstep
  · rename_i r' next hreader
    split at hstep
    · rename_i heq
      subst heq
      cases hstep
      exact h.setReader (h.readers k _ hreader reply hadmits)
    · cases hstep
  · cases hstep

theorem inv_step (s : System) (l : Label) (s' : System) (h : Inv keyOf s) (hok : Admitted keyOf s l)
    (hstep : step settings s l = some s') : Inv keyOf s' := by
  cases l with
  | persist c event sourceEventId =>
    simp only [step] at hstep
    split at hstep
    · cases hstep
      refine h.advance (h.same rfl rfl rfl) (fun d call hd => ?_) h.ids h.nodup h.published fun _ _ hrest =>
        .inl hrest
      dsimp only at hd
      rw [Function.update_apply] at hd
      split at hd
      · cases hd
        exact .inr trivial
      · exact .inl hd
    · cases hstep
  | move c m =>
    simp only [step] at hstep
    split at hstep
    · rename_i call hcall
      exact inv_move h hcall hstep
    · cases hstep
  | change change =>
    simp only [step] at hstep
    split at hstep
    · rename_i u store hchange
      cases hstep
      obtain ⟨hkeeps, hevents⟩ := keepsArtifacts_change hchange
      refine h.advance ⟨h.sound.keep hkeeps hevents, hkeeps.keyed h.keyed, List.Subset.refl _, List.Subset.refl _,
        fun row hrow _ => ?_, fun event hevent => hevent.keep hkeeps⟩ (fun _ _ hcall => .inl hcall) h.ids h.nodup
        h.published fun _ _ hrest => .inl hrest
      obtain ⟨old, hold, resultId, rfl⟩ := hkeeps.rows row hrow
      exact ⟨old, hold, rfl⟩
    · cases hstep
      exact h
  | read k userId taskId afterId =>
    simp only [step] at hstep
    split at hstep
    · cases hstep
      exact h.setReader (yields_listTaskEvents userId taskId afterId)
    · cases hstep
  | advance k => exact inv_advance h hstep
  | answer k r reply => exact inv_answer h hok hstep

def report : Artifact := ⟨.pdf, "weekly.pdf", "application/pdf", none, some "https://worker/weekly.pdf", "", none⟩

end LiveReplay
