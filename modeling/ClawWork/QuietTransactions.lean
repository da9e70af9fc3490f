import ClawWork.Acknowledgements
import ClawWork.DispatchTask
import ClawWork.ExactlyOnce

/-!
# Transactions beside the course of a task

Which transactions neither start a task nor log an acceptance or a delta of it: those of
`cancelTask` and `failTask`, and every one that touches no event apart from the update of
`dispatchTask`.
-/

namespace QuietTransactions

open SharedTypes TaskStore TasksService StatusFrames DispatchTask
open Acknowledgements (isDelta)

variable {settings : DispatchSettings} {t : String} {db db' : Database}

/-- The task was started. -/
def Started (status : Option TaskStatus) : Prop := status = some .running ∨ status = some .completed

theorem literal_accepted {d : TaskEventDetail} (h : d.literal = "task.accepted") : d.isAccepted = true := by
  cases d <;> simp_all [TaskEventDetail.literal, TaskEventDetail.isAccepted]

theorem literal_delta {d : TaskEventDetail} (h : d.literal = "task.delta") : isDelta d = true := by
  cases d <;> simp_all [TaskEventDetail.literal, isDelta]

/-- A transaction that logs no acceptance and no delta of the task. -/
structure Unspoken (t : String) (db db' : Database) : Prop where
  keyed : Keyed db'
  isSome : (db.status t).isSome = true → (db'.status t).isSome = true
  rows : ∃ rows, db'.eventsOf t = db.eventsOf t ++ rows ∧
    ∀ row ∈ rows, row.type ≠ "task.accepted" ∧ row.type ≠ "task.delta"

/-- One that does not start the task either. -/
structure Aside (t : String) (db db' : Database) : Prop extends Unspoken t db db' where
  status : Started (db'.status t) → Started (db.status t)

theorem unspoken_of_events (hkeyed : Keyed db')
    (hsome : (db.status t).isSome = true → (db'.status t).isSome = true)
    (hevents : db'.eventsOf t = db.eventsOf t) : Unspoken t db db' :=
  ⟨hkeyed, hsome, [], by rw [hevents, List.append_nil], fun _ h => by cases h⟩

theorem aside_of_same (hkeyed : Keyed db') (hstatus : db'.status t = db.status t)
    (hevents : db'.eventsOf t = db.eventsOf t) : Aside t db db' where
  toUnspoken := unspoken_of_events hkeyed (fun h => by rwa [hstatus]) hevents
  status h := by rwa [← hstatus]

theorem aside_refl (h : Keyed db) : Aside t db db := aside_of_same h rfl rfl

/-- What the transaction of `persistTaskEvent` does for the task. -/
theorem persist_task (settings : Settings) (now resultId : String) (stored : TaskStreamEvent)
    (source : Option String) (hk : Keyed db) (t : String) :
    ((persistTransaction settings now resultId stored source db).2.status t = db.status t ∧
      (persistTransaction settings now resultId stored source db).2.eventsOf t = db.eventsOf t) ∨
    stored.taskId = t ∧ db.violatesSource t source = false ∧
      (persistTransaction settings now resultId stored source db).2.eventsOf t =
        db.eventsOf t ++ [⟨db.nextEventId, t, source, stored.detail.literal, stored.toJson⟩] ∧
      ∃ old, db.status t = some old ∧
        (persistTransaction settings now resultId stored source db).2.status t =
          some ((newStatus stored.detail).getD old) := by
  rcases persistTransaction_cases settings now resultId stored source db with
    ⟨heq, -⟩ | heq | ⟨task, db', htask, -, hfresh, hproject, heq⟩
  · rw [heq]
    exact .inl ⟨rfl, rfl⟩
  · rw [heq]
    exact .inl ⟨rfl, rfl⟩
  · rw [heq]
    have hproject := projectEvent_projects hproject
    rw [hk.get htask] at hproject
    have hevents := ExactlyOnce.eventsOf_append (t := t) hproject.events
    by_cases ht : stored.taskId = t
    · subst ht
      have hold : db.status stored.taskId = some task.status := by rw [Database.status, htask, Option.map_some]
      refine .inr ⟨rfl, hfresh, ?_, task.status, hold, ?_⟩
      · rw [hevents, if_pos rfl]
      · have hcreated : (db.createEvent stored.taskId source stored).status stored.taskId = some task.status :=
          hold
        rw [hproject.status, if_pos rfl, hcreated, Option.map_some]
    · refine .inl ⟨(hproject.status t).trans (if_neg fun heq => ht heq.symm), ?_⟩
      rw [hevents, if_neg ht, List.append_nil]

/-- An event that starts nothing. -/
theorem aside_persist (settings : Settings) (now resultId : String) {stored : TaskStreamEvent}
    (source : Option String)
    (hk : Keyed db) (hplain : stored.taskId = t → (∃ code message, stored.detail = .failed code message) ∨
      ∃ message, stored.detail = .cancelled message) :
    Aside t db (persistTransaction settings now resultId stored source db).2 := by
  have hkeyed : Keyed (persistTransaction settings now resultId stored source db).2 := persist_keyed hk
  rcases persist_task settings now resultId stored source hk t with
    ⟨hstatus, hevents⟩ | ⟨htask, -, hevents, old, hold, hstatus⟩
  · exact aside_of_same hkeyed hstatus hevents
  · refine ⟨⟨hkeyed, fun _ => by rw [hstatus]; rfl, _, hevents, fun row hrow => ?_⟩, fun hstarted => ?_⟩
    · rw [List.mem_singleton.mp hrow]
      rcases hplain htask with ⟨code, message, hdetail⟩ | ⟨message, hdetail⟩ <;> rw [hdetail] <;>
        simp [TaskEventDetail.literal]
    · rw [hstatus] at hstarted
      rcases hplain htask with ⟨code, message, hdetail⟩ | ⟨message, hdetail⟩ <;> rw [hdetail] at hstarted <;>
        rcases hstarted with h | h <;> cases h

theorem enqueue_status {new : NewTask} {settings : Settings} (h : enqueueTransaction settings new db = some db')
    (v : String) : db'.status v = if v = new.taskId then some .queued else db.status v := by
  obtain ⟨-, db₁, sessionId, hsession, rfl⟩ := enqueueTransaction_eq_some h
  rw [Database.status, Database.updateSession_tasks, (sessionForTask_tasks hsession).1, OrderedMap.get_set]
  split <;> rfl

theorem aside_single {settings : Settings} {tx : Single} (hk : Keyed db) (h : tx.apply settings db = some db')
    (hdispatch : ∀ runId streamUrl now, tx ≠ .dispatch t runId streamUrl now) : Aside t db db' := by
  have hunlogged := unlogged_single h
  have hevents : db'.eventsOf t = db.eventsOf t := by rw [Database.eventsOf, hunlogged.events, Database.eventsOf]
  have hkeyed := hunlogged.keyed hk
  cases tx with
  | enqueue new =>
    refine ⟨unspoken_of_events hkeyed (hunlogged.status t).isSome hevents, fun hstarted => ?_⟩
    rw [enqueue_status h] at hstarted
    split at hstarted
    · rcases hstarted with h | h <;> cases h
    · exact hstarted
  | setQueueJobId taskId jobId =>
    cases h
    exact aside_of_same hkeyed (status_updateTask (by intro row; rfl) t) hevents
  | incrementAttempt taskId =>
    cases h
    exact aside_of_same hkeyed (status_updateTask (by intro row; rfl) t) hevents
  | dispatch taskId runId streamUrl now =>
    have hne : t ≠ taskId := fun heq => hdispatch runId streamUrl now (by rw [heq])
    cases h
    refine aside_of_same hkeyed ?_ hevents
    rw [dispatchUpdate, Database.status, Database.updateTask_get, if_neg hne, Database.status]
  | setSessionRunning sessionId =>
    cases h
    refine aside_of_same hkeyed ?_ hevents
    rw [Database.status, Database.updateSession_tasks, Database.status]
  | archive row =>
    cases h
    exact aside_of_same hkeyed rfl hevents

/-- A call of `cancelTask` changes the database only by persisting its event. -/
theorem aside_cancelCall {call next : CancelCall} {answer : CancelAnswer} {job job' : Option JobState}
    {outputs : List Output} (hk : Keyed db)
    (h : call.next settings db job answer = some (db', job', next, outputs)) : Aside t db db' := by
  obtain ⟨-, hmoves⟩ := cancelMoves_next h
  generalize call.phase = phase at hmoves
  generalize next.phase = phase' at hmoves
  cases hmoves with
  | thrown | persisted => exact aside_persist settings.toSettings _ _ none hk fun _ => .inr ⟨_, rfl⟩
  | _ => exact aside_refl hk

/-- What is stored of an event is an acceptance, or a delta, exactly if the event is. -/
theorem prepareTaskEvent_told {archived : Option Archived} {event : TaskStreamEvent} {prepared : Prepared}
    (h : prepareTaskEvent archived event = some prepared) :
    prepared.stored.detail.isAccepted = event.detail.isAccepted ∧
      isDelta prepared.stored.detail = isDelta event.detail := by
  obtain ⟨a, r, hdetail, -, -, rfl⟩ | ⟨-, rfl⟩ := prepareTaskEvent_eq_some h
  · rw [hdetail]
    exact ⟨rfl, rfl⟩
  · exact ⟨rfl, rfl⟩

theorem violatesSource_of_row {db : Database} {row : TaskEvent} {source : String} (hrow : row ∈ db.eventsOf t)
    (hsource : row.sourceEventId = some source) : db.violatesSource t (some source) = true := by
  obtain ⟨hmem, htask⟩ := List.mem_filter.mp hrow
  rw [Database.violatesSource, Option.any_some, Database.hasSourceEvent]
  exact List.any_eq_true.mpr ⟨row, hmem, by simp [of_decide_eq_true htask, hsource]⟩

end QuietTransactions
