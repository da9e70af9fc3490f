import ClawWork.AdapterRelay
import ClawWork.EventProjection
import ClawWork.LogCommits
import ClawWork.RelayExit

/-!
# What a single relay makes of the event sequence of its task

A relay persists the events of the stream one after the other until one of them
ends the task, or reports a failure of its own. `Relayed` lists the logs that come
of it, with the status that each of them leads to.
-/

namespace SingleRelay

open SharedTypes TaskStore TasksService AdapterRelay LogCommits

/-- The row of an event of the stream, as `prepareTaskEvent` has made it. -/
structure Holds (parsed : Parsed) (row : TaskEvent) : Prop where
  source : row.sourceEventId = parsed.sourceEventId
  stored : ∃ archived prepared, prepareTaskEvent archived parsed.event = some prepared ∧
    row.type = prepared.stored.detail.literal ∧ row.payload = prepared.stored.toJson

/-- The row of a failure that `failTask` reports. -/
structure Reports (row : TaskEvent) : Prop where
  source : row.sourceEventId = none
  stored : ∃ (event : TaskStreamEvent) (code message : String), event.detail = .failed code message ∧
    row.type = event.detail.literal ∧ row.payload = event.toJson

/-- The logs of a task with a single relay: the number of events that it has persisted, the rows, the
status that they lead to, and whether the relay has reported a failure. -/
inductive Relayed (entries : List Parsed) : Nat → List TaskEvent → Option TaskStatus → Bool → Prop
  | start : Relayed entries 0 [] none false
  | persist {n : Nat} {log : List TaskEvent} {status : Option TaskStatus} {parsed : Parsed} {row : TaskEvent}
      (h : Relayed entries n log status false) (hopen : status.any TaskStatus.isTerminal = false)
      (hnext : entries[n]? = some parsed) (hrow : Holds parsed row) :
      Relayed entries (n + 1) (log ++ [row]) ((rowStatus row).or status) false
  | fail {n : Nat} {log : List TaskEvent} {status : Option TaskStatus} {row : TaskEvent}
      (h : Relayed entries n log status false) (hopen : status.any TaskStatus.isTerminal = false)
      (hrow : Reports row) : Relayed entries n (log ++ [row]) (some .failed) true

variable {settings : Settings} {entries : List Parsed} {n : Nat} {log : List TaskEvent}
  {status : Option TaskStatus} {failed : Bool} {parsed : Parsed} {row : TaskEvent}

theorem rowStatus_of_literal {detail : TaskEventDetail} (h : row.type = detail.literal) :
    rowStatus row = newStatus detail := by
  cases detail <;> simp [rowStatus, h, newStatus, TaskEventDetail.literal]

theorem Reports.rowStatus (h : Reports row) : LogCommits.rowStatus row = some .failed := by
  obtain ⟨event, code, message, hdetail, htype, -⟩ := h.stored
  rw [rowStatus_of_literal htype, hdetail]
  rfl

theorem isTerminal_newStatus (detail : TaskEventDetail) :
    (newStatus detail).any TaskStatus.isTerminal = detail.isTerminal := by
  cases detail <;> rfl

/-- The row of a terminal event ends the task, and no other row does. -/
theorem Holds.isTerminal (h : Holds parsed row) :
    (LogCommits.rowStatus row).any TaskStatus.isTerminal = parsed.event.isTerminal := by
  obtain ⟨archived, prepared, hprepared, htype, -⟩ := h.stored
  rw [rowStatus_of_literal htype, isTerminal_newStatus, ← (RelayExit.prepareTaskEvent_same hprepared).2]
  rfl

theorem Holds.parses (h : Holds parsed row) : (parsePersistedEvent settings row.payload).isSome = true := by
  obtain ⟨archived, prepared, hprepared, -, hpayload⟩ := h.stored
  rw [hpayload, parsePersistedEvent, parseTaskStreamEvent_toJson (prepareTaskEvent_storable hprepared)]
  rfl

theorem Reports.parses (h : Reports row) : (parsePersistedEvent settings row.payload).isSome = true := by
  obtain ⟨event, code, message, hdetail, -, hpayload⟩ := h.stored
  have hstorable : event.detail.Storable := by
    rw [hdetail]
    trivial
  rw [hpayload, parsePersistedEvent, parseTaskStreamEvent_toJson hstorable]
  rfl

theorem Relayed.parses (h : Relayed entries n log status failed) :
    ∀ row ∈ log, (parsePersistedEvent settings row.payload).isSome = true := by
  induction h with
  | start =>
    intro row hrow
    cases hrow
  | persist h hopen hnext hheld ih =>
    intro row hrow
    rcases List.mem_append.mp hrow with hrow | hrow
    · exact ih row hrow
    · rw [List.mem_singleton.mp hrow]
      exact hheld.parses
  | fail h hopen hreports ih =>
    intro row hrow
    rcases List.mem_append.mp hrow with hrow | hrow
    · exact ih row hrow
    · rw [List.mem_singleton.mp hrow]
      exact hreports.parses

/-- The source event ids of the log are those of the events that were persisted. -/
theorem Relayed.sources (h : Relayed entries n log status failed) :
    log.map TaskEvent.sourceEventId = (entries.take n).map Parsed.sourceEventId ++
      if failed then [none] else [] := by
  induction h with
  | start => simp
  | persist h hopen hnext hheld ih =>
    rw [List.take_add_one, hnext]
    simp [ih, hheld.source]
  | fail h hopen hreports ih => simp [ih, hreports.source]

theorem Relayed.le (h : Relayed entries n log status failed) : n ≤ entries.length := by
  induction h with
  | start => exact Nat.zero_le _
  | persist h hopen hnext hheld ih =>
    obtain ⟨hlt, -⟩ := List.getElem?_eq_some_iff.mp hnext
    exact hlt
  | fail h hopen hreports ih => exact ih

/-- A terminal event that was persisted has ended the task. -/
theorem Relayed.ended (h : Relayed entries n log status failed) :
    ∀ parsed ∈ entries.take n, parsed.event.isTerminal = true → status.any TaskStatus.isTerminal = true := by
  induction h with
  | start =>
    intro parsed hparsed
    simp at hparsed
  | persist h hopen hnext hheld ih =>
    intro parsed hparsed hterminal
    rw [List.take_add_one, hnext, List.mem_append] at hparsed
    rcases hparsed with hparsed | hparsed
    · rw [ih parsed hparsed hterminal] at hopen
      cases hopen
    · rw [Option.toList_some, List.mem_singleton] at hparsed
      rw [hparsed, ← hheld.isTerminal] at hterminal
      obtain ⟨value, hvalue, hends⟩ := (Option.any_eq_true _ _).mp hterminal
      rw [hvalue]
      exact hends
  | fail h hopen hreports ih => exact fun _ _ _ => rfl

/-- A task fails by an event of the stream or by a report. -/
theorem Relayed.failed_cause (h : Relayed entries n log status failed) (hstatus : status = some .failed) :
    failed = true ∨ ∃ parsed ∈ entries, parsed.event.detail.literal = "task.failed" := by
  cases h with
  | start => cases hstatus
  | persist h hopen hnext hheld =>
    rename_i status parsed row
    right
    refine ⟨parsed, List.mem_of_getElem? hnext, ?_⟩
    obtain ⟨archived, prepared, hprepared, htype, -⟩ := hheld.stored
    have hnew : newStatus prepared.stored.detail = some .failed := by
      rw [← rowStatus_of_literal htype]
      cases hrow : rowStatus row with
      | some value =>
        rw [hrow] at hstatus
        exact hstatus
      | none =>
        rw [hrow, Option.none_or] at hstatus
        rw [hstatus] at hopen
        cases hopen
    have hsame : parsed.event.detail = prepared.stored.detail := by
      obtain ⟨a, r, -, -, -, rfl⟩ | ⟨-, rfl⟩ := prepareTaskEvent_eq_some hprepared
      · cases hnew
      · rfl
    rw [hsame]
    cases hdetail : prepared.stored.detail with
    | failed code message => rfl
    | _ =>
      rw [hdetail] at hnew
      cases hnew
  | fail h hopen hreports => exact .inl rfl

/-- A report ends the log. -/
theorem Relayed.unfailed (h : Relayed entries n log status failed)
    (hopen : status.any TaskStatus.isTerminal = false) : failed = false := by
  cases h with
  | start => rfl
  | persist => rfl
  | fail => cases hopen

theorem Relayed.status_ne_queued (h : Relayed entries n log status failed) : status ≠ some .queued := by
  induction h with
  | start => exact fun h => by cases h
  | persist h hopen hnext hheld ih =>
    rename_i status parsed row
    obtain ⟨archived, prepared, hprepared, htype, -⟩ := hheld.stored
    rw [rowStatus_of_literal htype]
    cases prepared.stored.detail with
    | stageChanged | delta | resultCreated => exact ih
    | accepted | failed | cancelled | completed => exact fun h => by cases h
  | fail h hopen hreports ih => exact fun h => by cases h

/-- The status of a task, against the one that the log leads to. -/
def Shows (actual status : Option TaskStatus) : Prop :=
  match status with
  | some value => actual = some value
  | none => actual.any TaskStatus.isTerminal = false

theorem Shows.ended {actual : Option TaskStatus} (h : Shows actual status) :
    actual.any TaskStatus.isTerminal = status.any TaskStatus.isTerminal := by
  cases status with
  | some value => rw [show actual = some value from h]
  | none => exact h

/-- The other transactions keep to what the log says. -/
theorem Shows.moves {actual actual' : Option TaskStatus} (h : Shows actual status)
    (hqueued : status ≠ some .queued) (hmoves : StatusFrames.StatusMoves actual actual') :
    Shows actual' status := by
  rcases hmoves with rfl | ⟨rfl, rfl⟩ | ⟨rfl, rfl⟩
  · exact h
  · cases status with
    | some value => cases h
    | none => rfl
  · cases status with
    | some value =>
      cases h
      exact absurd rfl hqueued
    | none => rfl

/-- The commit of a row. -/
theorem Shows.commit {actual : Option TaskStatus} (h : Shows actual status) (hsome : actual.isSome = true)
    (new : Option TaskStatus) : Shows (actual.map new.getD) (new.or status) := by
  obtain ⟨value, rfl⟩ := Option.isSome_iff_exists.mp hsome
  cases new with
  | some value => rfl
  | none => exact h

end SingleRelay
