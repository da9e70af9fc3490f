import ClawWork.RowOwnership

/-!
# Statements that stay with their owner

Every statement of the calls, on ids that were issued for a user, is an action for
that user: it does on the rows of the user alone what it does on the database, keeps
the ownership of the rows, and leaves the rows of the others as they are.
-/

namespace RowStatements

open JavaScript SharedTypes TaskStore TasksService ServiceTables DailyQuota Isolation ServiceStore RowOwnership
open PersistCalls (PersistedTaskEvent)

variable {owner : Issuance} {u v id : String} {s : Store}

/-- Statements for a user. -/
abbrev For {α : Type} (owner : Issuance) (v : String) (statement : Statement α) (post : α → Prop) : Prop :=
  Local (division owner) v statement post

theorem for_attempt {f : Store → Option Store}
    (hview : ∀ s, Owned owner s → f (rowsOf owner v s) = (f s).map (rowsOf owner v))
    (hkept : ∀ s s', Owned owner s → f s = some s' → Kept (division owner) v s s') :
    For owner v (attempt f) fun _ => True where
  view s hs := by
    unfold attempt
    have heq : f ((division owner).view v s) = _ := hview s hs
    rw [heq]
    cases f s <;> rfl
  sound s a s' hs ha := by
    unfold attempt at ha
    cases hf : f s with
    | none =>
      rw [hf] at ha
      cases ha
    | some s'' =>
      rw [hf] at ha
      cases ha
      exact ⟨hkept s s' hs hf, trivial⟩

theorem for_insertion {unique foreignKeys : Store → Bool} {f : Store → Store}
    (hunique : ∀ s, Owned owner s → unique (rowsOf owner v s) = unique s)
    (hforeign : ∀ s, Owned owner s → foreignKeys (rowsOf owner v s) = foreignKeys s)
    (hview : ∀ s, f (rowsOf owner v s) = rowsOf owner v (f s))
    (hkept : ∀ s, Owned owner s → unique s = true → foreignKeys s = true → Kept (division owner) v s (f s)) :
    For owner v (insertion unique foreignKeys f) fun _ => True where
  view s hs := by
    unfold insertion
    have hu : unique ((division owner).view v s) = unique s := hunique s hs
    have hk : foreignKeys ((division owner).view v s) = foreignKeys s := hforeign s hs
    rw [hu, hk]
    split
    · split
      · exact congrArg (fun s' => Except.ok ((), s')) (hview s)
      · rfl
    · rfl
  sound s a s' hs ha := by
    unfold insertion at ha
    split at ha
    · rename_i hu
      split at ha
      · rename_i hk
        cases ha
        exact ⟨hkept s hs hu hk, trivial⟩
      · cases ha
    · cases ha

/-! ## Settings and counters -/

theorem upsertSettings_for : For owner v (upsertSettings v) fun _ => True where
  view s hs := by
    have hget : (rowsOf owner v s).userSettings.get v = s.userSettings.get v := by
      rw [rowsOf, OrderedMap.get_restrict, if_pos (decide_eq_true rfl)]
    change upsertSettings v (rowsOf owner v s) = _
    unfold upsertSettings
    rw [hget]
    cases s.userSettings.get v with
    | some row => rfl
    | none =>
      dsimp only
      by_cases huser : v ∈ s.users
      · rw [if_pos (rowsOf_user.mpr huser), if_pos huser]
        have hset := s.userSettings.restrict_set_of_pos (fun user => user = v) { userId := v }
          (decide_eq_true (rfl : v = v))
        exact congrArg (fun userSettings =>
          Except.ok (({ userId := v } : UserSettings), { rowsOf owner v s with userSettings })) hset.symm
      · rw [if_neg (fun h => huser (rowsOf_user.mp h)), if_neg huser]
        rfl
  sound s a s' hs ha := by
    unfold upsertSettings at ha
    split at ha
    · cases ha
      exact ⟨.refl hs v, trivial⟩
    · split at ha
      · cases ha
        refine ⟨⟨{ hs with userSettings := ?_ }, fun u hu => ?_⟩, trivial⟩
        · intro user row hrow
          rw [OrderedMap.get_set] at hrow
          split at hrow
          · rename_i huser
            cases hrow
            exact huser.symm
          · exact hs.userSettings user row hrow
        · have hset := s.userSettings.restrict_set_of_neg (fun user => user = u) { userId := v }
            (decide_eq_false (Ne.symm hu))
          change rowsOf owner u _ = rowsOf owner u s
          rw [rowsOf, rowsOf, hset]
      · cases ha

/-- The counters of a user. -/
def countersOf (u : String) (redis : Redis) : Redis :=
  { redis with counters := redis.counters.restrict fun key => key.1 = u }

theorem countersOf_get {redis : Redis} {day : String} :
    (countersOf v redis).counters.get (v, day) = redis.counters.get (v, day) := by
  rw [countersOf, OrderedMap.get_restrict, if_pos (decide_eq_true rfl)]

theorem countersOf_set {redis : Redis} {day : String} (counter : Counter) :
    { countersOf v redis with counters := (countersOf v redis).counters.set (v, day) counter } =
      countersOf v { redis with counters := redis.counters.set (v, day) counter } :=
  have hset := redis.counters.restrict_set_of_pos (k := (v, day)) (fun key => key.1 = v) counter
    (decide_eq_true rfl)
  congrArg (fun counters => ({ redis with counters } : Redis)) hset.symm

theorem countersOf_set_other {redis : Redis} {day : String} (counter : Counter) (hu : u ≠ v) :
    countersOf u { redis with counters := redis.counters.set (v, day) counter } = countersOf u redis :=
  have hset := redis.counters.restrict_set_of_neg (k := (v, day)) (fun key => key.1 = u) counter
    (decide_eq_false hu.symm)
  congrArg (fun counters => ({ redis with counters } : Redis)) hset

theorem reserve_countersOf (redis : Redis) (limit : Nat) (day : String) :
    (countersOf v redis).reserve limit (v, day) =
      ((redis.reserve limit (v, day)).1, countersOf v (redis.reserve limit (v, day)).2) := by
  unfold Redis.reserve Redis.value
  rw [countersOf_get]
  dsimp only
  split
  · exact congrArg (Prod.mk false) (countersOf_set _)
  · exact congrArg (Prod.mk true) (countersOf_set _)

theorem reserve_countersOf_other (redis : Redis) (limit : Nat) (day : String) (hu : u ≠ v) :
    countersOf u (redis.reserve limit (v, day)).2 = countersOf u redis := by
  unfold Redis.reserve
  dsimp only
  split <;> exact countersOf_set_other _ hu

theorem release_countersOf (redis : Redis) (day : String) :
    (countersOf v redis).release (v, day) = countersOf v (redis.release (v, day)) := by
  unfold Redis.release
  rw [countersOf_get]
  split
  · split
    · exact countersOf_set _
    · rfl
  · rfl

theorem release_countersOf_other (redis : Redis) (day : String) (hu : u ≠ v) :
    countersOf u (redis.release (v, day)) = countersOf u redis := by
  unfold Redis.release
  split
  · split
    · exact countersOf_set_other _ hu
    · rfl
  · rfl

theorem kept_redis {redis : Redis} (h : Owned owner s)
    (hothers : ∀ u, u ≠ v → countersOf u redis = countersOf u s.redis) :
    Kept (division owner) v s { s with redis } where
  inv := { h with }
  others u hu := congrArg (fun redis => { rowsOf owner u s with redis }) (hothers u hu)

theorem reserveScript_for (dailyLimit clock : Nat) :
    For owner v (reserveScript dailyLimit v clock) fun _ => True where
  view s hs := by
    have hreserve := reserve_countersOf (v := v) s.redis dailyLimit (isoDay clock)
    exact congrArg (fun result : Bool × Redis =>
      Except.ok (result.1, { rowsOf owner v s with redis := result.2 })) hreserve
  sound s a s' hs ha := by
    cases ha
    exact ⟨kept_redis hs fun u hu => reserve_countersOf_other s.redis dailyLimit _ hu, trivial⟩

theorem releaseScript_for (clock : Nat) : For owner v (releaseScript v clock) fun _ => True := by
  apply Local.write
  · intro s hs
    change { rowsOf owner v s with redis := (countersOf v s.redis).release (v, isoDay clock) } = _
    rw [release_countersOf]
    rfl
  · exact fun s hs => kept_redis hs fun u hu => release_countersOf_other s.redis _ hu

/-! ## Sessions and tasks -/

theorem kept_setSession {row : SessionRow} (h : Owned owner s) (hrow : SessionOwned owner id row)
    (huser : row.userId = v) : Kept (division owner) v s { s with sessions := s.sessions.set id row } where
  inv := by
    refine { h with sessions := fun k old hold => ?_ }
    rw [OrderedMap.get_set] at hold
    split at hold
    · rename_i hk
      cases hold
      exact hk ▸ hrow
    · exact h.sessions k old hold
  others u hu := by
    have hother : mine owner u id = false := not_mine_of (huser ▸ hrow.user) hu
    change rowsOf owner u _ = rowsOf owner u s
    rw [rowsOf, rowsOf, OrderedMap.restrict_set_of_neg _ _ _ hother]

theorem rowsOf_setSession {row : SessionRow} (hid : owner id = some v) :
    { rowsOf owner v s with sessions := (rowsOf owner v s).sessions.set id row } =
      rowsOf owner v { s with sessions := s.sessions.set id row } := by
  rw [rowsOf, rowsOf, OrderedMap.restrict_set_of_pos _ _ _ (mine_of hid)]

theorem createSession_for {row : SessionRow} (hrow : SessionOwned owner row.id row) (huser : row.userId = v) :
    For owner v (createSession row) fun _ => True := by
  have hid : owner row.id = some v := huser ▸ hrow.user
  apply for_insertion
  · intro s _
    rw [rowsOf_session hid]
  · intro s _
    rw [huser]
    exact decide_eq_decide.mpr rowsOf_user
  · exact fun s => rowsOf_setSession hid
  · exact fun s hs _ _ => kept_setSession hs hrow huser

theorem updateSession_for {now : Nat} {data : AppSession → AppSession} (hid : owner id = some v)
    (hdata : ∀ row, (data row).id = row.id ∧ (data row).userId = row.userId) :
    For owner v (updateSession id now data) fun _ => True := by
  apply for_attempt
  · intro s _
    dsimp only
    rw [rowsOf_session hid]
    cases s.sessions.get id with
    | none => rfl
    | some row => exact congrArg some (rowsOf_setSession hid)
  · intro s s' hs hset
    obtain ⟨row, hget, rfl⟩ := Option.map_eq_some_iff.mp hset
    have howned := hs.sessions id row hget
    have huser : row.userId = v := Option.some.inj (howned.user.symm.trans hid)
    apply kept_setSession hs
    · exact ⟨(hdata _).1.trans howned.key, howned.user.trans (congrArg some (hdata _).2.symm)⟩
    · exact (hdata _).2.trans huser

theorem references_setTask {row : TaskRow} (h : Owned owner s) :
    ∀ taskId ∈ references s, ((s.tasks.set id row).get taskId).isSome := by
  intro taskId hmem
  rw [OrderedMap.get_set]
  split
  · rfl
  · exact h.references taskId hmem

theorem kept_setTask {row : TaskRow} (h : Owned owner s) (hrow : TaskOwned owner id row)
    (huser : row.userId = v) : Kept (division owner) v s { s with tasks := s.tasks.set id row } where
  inv := by
    refine { h with tasks := fun k old hold => ?_, references := references_setTask h }
    rw [OrderedMap.get_set] at hold
    split at hold
    · rename_i hk
      cases hold
      exact hk ▸ hrow
    · exact h.tasks k old hold
  others u hu := by
    have hother : mine owner u id = false := not_mine_of (huser ▸ hrow.user) hu
    change rowsOf owner u _ = rowsOf owner u s
    rw [rowsOf, rowsOf, OrderedMap.restrict_set_of_neg _ _ _ hother]

theorem rowsOf_setTask {row : TaskRow} (hid : owner id = some v) :
    { rowsOf owner v s with tasks := (rowsOf owner v s).tasks.set id row } =
      rowsOf owner v { s with tasks := s.tasks.set id row } := by
  rw [rowsOf, rowsOf, OrderedMap.restrict_set_of_pos _ _ _ (mine_of hid)]

/-- A change of a task that leaves it where it belongs. -/
structure Stays (data : Task → Task) : Prop where
  id : ∀ row, (data row).id = row.id
  user : ∀ row, (data row).userId = row.userId
  session : ∀ row, (data row).sessionId = row.sessionId
  parent : ∀ row, (data row).parentTaskId = row.parentTaskId

theorem taskOwned_update {row : TaskRow} {data : Task → Task} {now : Nat} (h : TaskOwned owner id row)
    (hdata : Stays data) : TaskOwned owner id { row with toTask := data row.toTask, updatedAt := now } where
  key := (hdata.id _).trans h.key
  user := h.user.trans (congrArg some (hdata.user _).symm)
  session := by
    change owner (data row.toTask).sessionId = some (data row.toTask).userId
    rw [hdata.session, hdata.user]
    exact h.session
  parent parent hparent := by
    change owner parent = some (data row.toTask).userId
    rw [hdata.user]
    exact h.parent parent ((hdata.parent _).symm.trans hparent)
  named := by
    change (data row.toTask).userId ≠ ""
    rw [hdata.user]
    exact h.named

theorem updateTask_for {now : Nat} {data : Task → Task} (hid : owner id = some v) (hdata : Stays data) :
    For owner v (updateTask id now data) fun _ => True := by
  apply for_attempt
  · intro s _
    dsimp only
    rw [rowsOf_task hid]
    cases s.tasks.get id with
    | none => rfl
    | some row => exact congrArg some (rowsOf_setTask hid)
  · intro s s' hs hset
    obtain ⟨row, hget, rfl⟩ := Option.map_eq_some_iff.mp hset
    have howned := hs.tasks id row hget
    have huser : row.userId = v := Option.some.inj (howned.user.symm.trans hid)
    exact kept_setTask hs (taskOwned_update howned hdata) ((hdata.user _).trans huser)

/-- What the ids of a new task tell, before it is known that its user exists. -/
structure NewTaskOwned (owner : Issuance) (v : String) (row : TaskRow) : Prop where
  user : row.userId = v
  key : owner row.id = some v
  session : owner row.sessionId = some v
  parent : ∀ parent, row.parentTaskId = some parent → owner parent = some v

theorem taskReferences_rowsOf {row : TaskRow} {fileIds : List String} (hrow : NewTaskOwned owner v row)
    (hfiles : ∀ fileId ∈ fileIds, owner fileId = some v) :
    taskReferences row fileIds (rowsOf owner v s) = taskReferences row fileIds s := by
  unfold taskReferences
  congr 1
  · congr 1
    · rw [rowsOf_session hrow.session, hrow.user]
      congr 1
      exact decide_eq_decide.mpr rowsOf_user
    · cases hparent : row.parentTaskId with
      | none => rfl
      | some parent => rw [Option.all_some, Option.all_some, rowsOf_task (hrow.parent parent hparent)]
  · apply Bool.eq_iff_iff.mpr
    rw [List.all_eq_true, List.all_eq_true]
    apply forall₂_congr
    intro fileId hfile
    rw [rowsOf_file (hfiles fileId hfile)]

theorem createTask_for {row : TaskRow} {fileIds : List String} (hrow : NewTaskOwned owner v row)
    (hfiles : ∀ fileId ∈ fileIds, owner fileId = some v) :
    For owner v (createTask row fileIds) fun _ => True := by
  have hmine : ∀ link ∈ fileIds.map (fun fileId => (⟨row.id, fileId⟩ : TaskFile)), link.taskId = row.id := by
    intro link hlink
    obtain ⟨fileId, -, rfl⟩ := List.mem_map.mp hlink
    rfl
  apply for_insertion
  · intro s _
    rw [rowsOf_task hrow.key]
  · exact fun s _ => taskReferences_rowsOf hrow hfiles
  · intro s
    have hlinks : (fileIds.map fun fileId => (⟨row.id, fileId⟩ : TaskFile)).filter
        (fun link => mine owner v link.taskId) = fileIds.map fun fileId => ⟨row.id, fileId⟩ := by
      apply List.filter_eq_self.mpr
      intro link hlink
      rw [hmine link hlink]
      exact mine_of hrow.key
    rw [rowsOf, rowsOf, OrderedMap.restrict_set_of_pos _ _ _ (mine_of hrow.key), List.filter_append, hlinks]
  · intro s hs _ hforeign
    have hnamed : row.userId ≠ "" := by
      simp only [taskReferences, Bool.and_eq_true, decide_eq_true_eq] at hforeign
      exact fun heq => hs.users (heq ▸ hforeign.1.1.1)
    have howned : TaskOwned owner row.id row :=
      ⟨rfl, hrow.user ▸ hrow.key, hrow.user ▸ hrow.session, hrow.user ▸ hrow.parent, hnamed⟩
    have hset := kept_setTask hs howned hrow.user
    refine ⟨{ hset.inv with links := fun link hlink => ?_, references := fun taskId hmem => ?_ }, fun u hu => ?_⟩
    · rcases List.mem_append.mp hlink with hold | hnew
      · exact hs.links link hold
      · obtain ⟨fileId, hfile, rfl⟩ := List.mem_map.mp hnew
        exact (hfiles fileId hfile).trans hrow.key.symm
    · by_cases hself : taskId = row.id
      · rw [hself]
        exact Option.isSome_iff_exists.mpr ⟨row, OrderedMap.get_set_same _ _ _⟩
      · apply hset.inv.references
        simp only [references, List.map_append, List.mem_append] at hmem ⊢
        rcases hmem with (((hmem | hnew) | hmem) | hmem) | hmem
        · exact .inl (.inl (.inl hmem))
        · obtain ⟨link, hlink, rfl⟩ := List.mem_map.mp hnew
          exact absurd (hmine link hlink) hself
        · exact .inl (.inl (.inr hmem))
        · exact .inl (.inr hmem)
        · exact .inr hmem
    · have hlinks : (fileIds.map fun fileId => (⟨row.id, fileId⟩ : TaskFile)).filter
          (fun link => mine owner u link.taskId) = [] := by
        apply List.filter_eq_nil_iff.mpr
        intro link hlink
        rw [hmine link hlink, not_mine_of hrow.key hu]
        exact Bool.false_ne_true
      rw [← hset.others u hu]
      change rowsOf owner u _ = rowsOf owner u _
      rw [rowsOf, rowsOf, List.filter_append, hlinks, List.append_nil]

/-! ## Events and results -/

theorem filter_append_of_pos {α : Type} {p : α → Bool} {row : α} (rows : List α) (h : p row = true) :
    (rows ++ [row]).filter p = rows.filter p ++ [row] := by
  simp [h]

theorem filter_append_of_neg {α : Type} {p : α → Bool} {row : α} (rows : List α) (h : p row = false) :
    (rows ++ [row]).filter p = rows.filter p := by
  simp [h]

theorem createEvent_for {row : TaskEvent} (hid : owner row.taskId = some v)
    (hpayload : ∃ event : TaskStreamEvent, row.payload = event.toJson ∧ event.taskId = row.taskId) :
    For owner v (createEvent row) fun _ => True := by
  apply for_insertion
  · intro s _
    cases row.sourceEventId with
    | none => rfl
    | some source => rw [Option.any_some, Option.any_some, hasSourceEvent_rowsOf hid]
  · intro s _
    rw [rowsOf_task hid]
  · intro s
    have happend := filter_append_of_pos (p := fun old => mine owner v old.taskId) s.taskEvents (mine_of hid)
    exact congrArg (fun taskEvents => { rowsOf owner v s with taskEvents }) happend.symm
  · intro s hs _ htask
    refine ⟨{ hs with events := fun old hold => ?_, references := fun taskId hmem => ?_ }, fun u hu => ?_⟩
    · rcases List.mem_append.mp hold with hold | hnew
      · exact hs.events old hold
      · rw [List.mem_singleton.mp hnew]
        exact hpayload
    · simp only [references, List.map_append, ← List.append_assoc] at hmem
      rcases List.mem_append.mp hmem with hmem | hnew
      · exact hs.references taskId hmem
      · rw [List.mem_singleton.mp hnew]
        exact htask
    · have happend := filter_append_of_neg (p := fun old => mine owner u old.taskId) s.taskEvents
        (not_mine_of hid hu)
      exact congrArg (fun taskEvents => { rowsOf owner u s with taskEvents }) happend

theorem createResult_for {row : ResultRow} (hid : owner row.id = some v) (htask : owner row.taskId = some v)
    (hsession : owner row.sessionId = some v) : For owner v (createResult row) fun _ => True := by
  apply for_insertion
  · intro s hs
    rw [violatesVersion_rowsOf hs htask hsession]
  · intro s _
    rw [rowsOf_task htask, rowsOf_session hsession]
  · intro s
    have happend := filter_append_of_pos (p := fun old => mine owner v old.taskId) s.taskResults
      (mine_of htask)
    exact congrArg (fun taskResults => { rowsOf owner v s with taskResults }) happend.symm
  · intro s hs _ hforeign
    refine ⟨{ hs with results := fun old hold => ?_, references := fun taskId hmem => ?_ }, fun u hu => ?_⟩
    · rcases List.mem_append.mp hold with hold | hnew
      · exact hs.results old hold
      · rw [List.mem_singleton.mp hnew, hid, htask, hsession]
        exact ⟨rfl, rfl⟩
    · simp only [references, List.map_append, List.mem_append] at hmem
      rcases hmem with ((hmem | hmem | hnew) | hmem) | hmem
      · exact hs.references taskId (by simp [references, hmem])
      · exact hs.references taskId (by simp [references, hmem])
      · rw [List.mem_singleton.mp hnew]
        exact (Bool.and_eq_true_iff.mp hforeign).1
      · exact hs.references taskId (by simp [references, hmem])
      · exact hs.references taskId (by simp [references, hmem])
    · have happend := filter_append_of_neg (p := fun old => mine owner u old.taskId) s.taskResults
        (not_mine_of htask hu)
      exact congrArg (fun taskResults => { rowsOf owner u s with taskResults }) happend

theorem map_filter_of_stable {α : Type} {p : α → Bool} {f : α → α} (rows : List α)
    (h : ∀ row ∈ rows, p (f row) = p row) : (rows.map f).filter p = (rows.filter p).map f := by
  rw [List.filter_map]
  congr 1
  apply List.filter_congr
  intro row hrow
  exact h row hrow

/-- A change of artifacts that leaves them to their tasks. -/
theorem artifacts_map_mine (owner : Issuance) (u : String) {f : ResultArtifact → ResultArtifact}
    (hf : ∀ row, (f row).taskId = row.taskId) (rows : List ResultArtifact) :
    (rows.map f).filter (fun row => mine owner u row.taskId) =
      (rows.filter fun row => mine owner u row.taskId).map f :=
  map_filter_of_stable rows fun row _ => congrArg (mine owner u) (hf row)

theorem linkArtifacts_for {resultId : String} (hid : owner id = some v) (hresult : owner resultId = some v) :
    For owner v (linkArtifacts id resultId) fun _ => True := by
  have htask : ∀ row : ResultArtifact, (if row.taskId = id ∧ row.resultId = none then
      { row with resultId := some resultId } else row).taskId = row.taskId := by
    intro row
    split <;> rfl
  apply Local.write
  · intro s _
    have hmap := artifacts_map_mine owner v htask s.resultArtifacts
    exact congrArg (fun resultArtifacts => { rowsOf owner v s with resultArtifacts }) hmap.symm
  · intro s hs
    refine ⟨{ hs with artifacts := fun row hrow => ?_, references := fun taskId hmem => ?_ }, fun u hu => ?_⟩
    · obtain ⟨old, hold, rfl⟩ := List.mem_map.mp hrow
      have howned := hs.artifacts old hold
      split
      · rename_i hlink
        refine ⟨howned.user, fun r hr => ?_⟩
        cases hr
        rw [hresult, hlink.1, hid]
      · exact howned
    · apply hs.references taskId
      simpa only [references, List.map_map, Function.comp_def, htask] using hmem
    · have hmap := artifacts_map_mine owner u htask s.resultArtifacts
      refine congrArg (fun resultArtifacts => { rowsOf owner u s with resultArtifacts }) (hmap.trans ?_)
      conv_rhs => rw [← List.map_id (s.resultArtifacts.filter fun row => mine owner u row.taskId)]
      apply List.map_congr_left
      intro row hrow
      rw [if_neg]
      · rfl
      · intro hlink
        have hmine := mine_iff.mp (List.mem_filter.mp hrow).2
        rw [hlink.1, hid] at hmine
        exact hu (Option.some.inj hmine).symm

theorem publish_for {published : PersistedTaskEvent} (hid : owner published.event.taskId = some v) :
    For owner v (publish published) fun _ => True := by
  apply Local.write
  · intro s _
    have happend := filter_append_of_pos (p := fun old => mine owner v old.event.taskId) s.channel
      (mine_of hid)
    exact congrArg (fun channel => { rowsOf owner v s with channel }) happend.symm
  · intro s hs
    refine ⟨{ hs with channel := fun old hold => ?_ }, fun u hu => ?_⟩
    · rcases List.mem_append.mp hold with hold | hnew
      · exact hs.channel old hold
      · rw [List.mem_singleton.mp hnew, hid]
        rfl
    · have happend := filter_append_of_neg (p := fun old => mine owner u old.event.taskId) s.channel
        (not_mine_of hid hu)
      exact congrArg (fun channel => { rowsOf owner u s with channel }) happend

/-! ## Files -/

theorem kept_setFile {row : File} (h : Owned owner s) (hrow : FileOwned owner id row)
    (huser : row.userId = v) : Kept (division owner) v s { s with files := s.files.set id row } where
  inv := by
    refine { h with files := fun k old hold => ?_ }
    rw [OrderedMap.get_set] at hold
    split at hold
    · rename_i hk
      cases hold
      exact hk ▸ hrow
    · exact h.files k old hold
  others u hu := by
    have hother : mine owner u id = false := not_mine_of (huser ▸ hrow.user) hu
    change rowsOf owner u _ = rowsOf owner u s
    rw [rowsOf, rowsOf, OrderedMap.restrict_set_of_neg _ _ _ hother]

theorem rowsOf_setFile {row : File} (hid : owner id = some v) :
    { rowsOf owner v s with files := (rowsOf owner v s).files.set id row } =
      rowsOf owner v { s with files := s.files.set id row } := by
  rw [rowsOf, rowsOf, OrderedMap.restrict_set_of_pos _ _ _ (mine_of hid)]

theorem append_cons_inj {α : Type} {c : α} {xs ys zs ws : List α} (hy : c ∉ ys) (hw : c ∉ ws)
    (h : xs ++ c :: ys = zs ++ c :: ws) : xs = zs ∧ ys = ws := by
  obtain ⟨t, rfl, ht⟩ | ⟨t, rfl, ht⟩ := List.append_eq_append_iff.mp h
  · cases t with
    | nil =>
      cases ht
      exact ⟨(List.append_nil xs).symm, rfl⟩
    | cons d t =>
      rw [List.cons_append, List.cons.injEq] at ht
      exact absurd (ht.2 ▸ List.mem_append_right t List.mem_cons_self) hy
  · cases t with
    | nil =>
      cases ht
      exact ⟨List.append_nil zs, rfl⟩
    | cons d t =>
      rw [List.cons_append, List.cons.injEq] at ht
      exact absurd (ht.2 ▸ List.mem_append_right t List.mem_cons_self) hw

/-- Storage keys tell the ids of their files. -/
theorem id_of_storageKey {user otherUser id otherId name otherName : String} (hid : NoSlash id)
    (hid' : NoSlash otherId) (hname : NoSlash name) (hname' : NoSlash otherName)
    (h : s!"users/{user}/{id}/{name}" = s!"users/{otherUser}/{otherId}/{otherName}") : id = otherId := by
  have hlist : ("users/".toList ++ user.toList ++ '/' :: id.toList) ++ '/' :: name.toList =
      ("users/".toList ++ otherUser.toList ++ '/' :: otherId.toList) ++ '/' :: otherName.toList := by
    have happend : "users/" ++ user ++ "/" ++ id ++ "/" ++ name =
        "users/" ++ otherUser ++ "/" ++ otherId ++ "/" ++ otherName := h
    simpa using congrArg String.toList happend
  obtain ⟨hpath, -⟩ := append_cons_inj hname hname' hlist
  exact String.toList_inj.mp (append_cons_inj hid hid' hpath).2

theorem createFile_for {row : File} (hrow : FileOwned owner row.id row) (huser : row.userId = v) :
    For owner v (createFile row) fun _ => True := by
  have hid : owner row.id = some v := huser ▸ hrow.user
  apply for_insertion
  · intro s hs
    rw [rowsOf_file hid]
    congr 1
    have hany : ∀ rows : List File, (rows.all fun old => old.storageKey ≠ row.storageKey) =
        (rows.filter fun old => old.storageKey = row.storageKey).isEmpty := by
      intro rows
      rw [Bool.eq_iff_iff, List.all_eq_true, List.isEmpty_iff, List.filter_eq_nil_iff]
      simp
    rw [hany, hany]
    congr 1
    apply OrderedMap.filter_values_restrict
    intro fileId old hold hkey
    have howned := hs.files fileId old hold
    have hsame : fileId = row.id := by
      apply id_of_storageKey howned.idNoSlash hrow.idNoSlash howned.nameNoSlash hrow.nameNoSlash
      rw [← howned.storageKey, ← hrow.storageKey]
      exact of_decide_eq_true hkey
    exact mine_of (hsame ▸ hid)
  · intro s _
    rw [huser]
    exact decide_eq_decide.mpr rowsOf_user
  · exact fun s => rowsOf_setFile hid
  · exact fun s hs _ _ => kept_setFile hs hrow huser

/-- A change of a file that leaves it where it belongs. -/
structure FileStays (data : File → File) : Prop where
  id : ∀ row, (data row).id = row.id
  user : ∀ row, (data row).userId = row.userId
  filename : ∀ row, (data row).filename = row.filename
  storageKey : ∀ row, (data row).storageKey = row.storageKey

theorem fileOwned_update {row : File} {data : File → File} (h : FileOwned owner id row)
    (hdata : FileStays data) : FileOwned owner id (data row) where
  key := (hdata.id row).trans h.key
  user := h.user.trans (congrArg some (hdata.user row).symm)
  idNoSlash := h.idNoSlash
  nameNoSlash := by
    rw [hdata.filename]
    exact h.nameNoSlash
  storageKey := by
    rw [hdata.storageKey, hdata.user, hdata.filename]
    exact h.storageKey

theorem updateFile_for {data : File → File} (hid : owner id = some v) (hdata : FileStays data) :
    For owner v (updateFile id data) fun _ => True where
  view s _ := by
    change updateFile id data (rowsOf owner v s) = _
    unfold updateFile
    rw [rowsOf_file hid]
    cases s.files.get id with
    | none => rfl
    | some row => exact congrArg (fun s' => Except.ok (data row, s')) (rowsOf_setFile hid)
  sound s a s' hs ha := by
    unfold updateFile at ha
    cases hget : s.files.get id with
    | none =>
      rw [hget] at ha
      cases ha
    | some row =>
      rw [hget] at ha
      cases ha
      have howned := hs.files id row hget
      have huser : row.userId = v := Option.some.inj (howned.user.symm.trans hid)
      exact ⟨kept_setFile hs (fileOwned_update howned hdata) ((hdata.user row).trans huser), trivial⟩

/-- The deletion of a row keeps the ownership of those that are left. -/
theorem owned_deleteFile (h : Owned owner s) : Owned owner { s with
    files := s.files.delete id
    taskFiles := s.taskFiles.filter fun link => link.fileId ≠ id } := by
  refine { h with
    files := fun k row hrow => ?_
    links := fun link hlink => h.links link (List.mem_of_mem_filter hlink)
    references := fun taskId hmem => h.references taskId ?_ }
  · rw [OrderedMap.get_delete] at hrow
    split at hrow
    · cases hrow
    · exact h.files k row hrow
  · simp only [references, List.mem_append] at hmem ⊢
    rcases hmem with ((hmem | hmem) | hmem) | hmem
    · obtain ⟨link, hlink, rfl⟩ := List.mem_map.mp hmem
      exact .inl (.inl (.inl (List.mem_map_of_mem (List.mem_of_mem_filter hlink))))
    · exact .inl (.inl (.inr hmem))
    · exact .inl (.inr hmem)
    · exact .inr hmem

theorem filter_filter_comm {α : Type} (p q : α → Bool) (rows : List α) :
    (rows.filter p).filter q = (rows.filter q).filter p := by
  rw [List.filter_filter, List.filter_filter]
  simp only [Bool.and_comm]

theorem deleteFile_for (hid : owner id = some v) : For owner v (ServiceStore.deleteFile id) fun _ => True := by
  apply for_attempt
  · intro s _
    rw [rowsOf_file hid]
    split
    · refine congrArg some ?_
      change ({ rowsOf owner v s with files := _, taskFiles := _ } : Store) = rowsOf owner v _
      rw [rowsOf, rowsOf, OrderedMap.restrict_delete, filter_filter_comm]
    · rfl
  · intro s s' hs hdelete
    split at hdelete
    · cases hdelete
      refine ⟨owned_deleteFile hs, fun u hu => ?_⟩
      have hlinks : (s.taskFiles.filter fun link => link.fileId ≠ id).filter
          (fun link => mine owner u link.taskId) = s.taskFiles.filter fun link => mine owner u link.taskId := by
        apply filter_filter_of_imp
        intro link hlink hmine
        apply decide_eq_true
        intro hfile
        rw [mine_iff, ← hs.links link hlink, hfile, hid] at hmine
        exact hu (Option.some.inj hmine).symm
      change rowsOf owner u _ = rowsOf owner u s
      rw [rowsOf, rowsOf, OrderedMap.restrict_delete_of_neg _ _ (not_mine_of hid hu), hlinks]
    · cases hdelete

/-! ## The deletion of a session -/

theorem inSession_rowsOf {taskId : String} (htask : owner taskId = some v) :
    (rowsOf owner v s).inSession id taskId = s.inSession id taskId := by
  rw [Store.inSession, rowsOf_task htask, Store.inSession]

/-- The tasks of a session belong to its user. -/
theorem owner_of_inSession {taskId : String} (h : Owned owner s) (hid : owner id = some v)
    (hin : s.inSession id taskId = true) : owner taskId = some v := by
  obtain ⟨task, htask, hsession⟩ := (Option.any_eq_true ..).mp hin
  have howned := h.tasks taskId task htask
  rw [howned.user, ← howned.session, of_decide_eq_true hsession, hid]

theorem not_inSession_of_mine {taskId : String} (h : Owned owner s) (hid : owner id = some v) (hu : u ≠ v)
    (hmine : mine owner u taskId = true) : s.inSession id taskId = false := by
  apply Bool.eq_false_iff.mpr
  intro hin
  rw [not_mine_of (owner_of_inSession h hid hin) hu] at hmine
  cases hmine

/-- The tasks that are left, each with its parent if that is left. -/
def detach (s : Store) (sessionId : String) (row : TaskRow) : TaskRow :=
  if row.parentTaskId.any (s.inSession sessionId) then
    { row with toTask := { row.toTask with parentTaskId := none } }
  else row

def unlink (s : Store) (sessionId : String) (row : ResultArtifact) : ResultArtifact :=
  if s.taskResults.any fun result => row.resultId = some result.id &&
      (result.sessionId = sessionId || s.inSession sessionId result.taskId) then
    { row with resultId := none }
  else row

theorem detach_owned {row : TaskRow} {taskId : String} (h : TaskOwned owner taskId row) :
    TaskOwned owner taskId (detach s id row) := by
  unfold detach
  split
  · exact ⟨h.key, h.user, h.session, fun parent hparent => by (cases hparent), h.named⟩
  · exact h

@[simp] theorem unlink_taskId (row : ResultArtifact) : (unlink s id row).taskId = row.taskId := by
  unfold unlink
  split <;> rfl

theorem unlink_owned {row : ResultArtifact} (h : ArtifactOwned owner row) :
    ArtifactOwned owner (unlink s id row) := by
  unfold unlink
  split
  · exact ⟨h.user, fun resultId hresult => by (cases hresult)⟩
  · exact h

theorem present_withoutSession {taskId : String} (hin : s.inSession id taskId = false)
    (hpresent : (s.tasks.get taskId).isSome) : ((withoutSession id s).tasks.get taskId).isSome := by
  obtain ⟨task, htask⟩ := Option.isSome_iff_exists.mp hpresent
  have hsession : task.sessionId ≠ id := by
    rw [Store.inSession, htask] at hin
    exact of_decide_eq_false hin
  rw [withoutSession, OrderedMap.get_mapValues, OrderedMap.get_filter, htask, Option.filter_some,
    if_pos (decide_eq_true hsession)]
  rfl

theorem owned_withoutSession (h : Owned owner s) : Owned owner (withoutSession id s) where
  users := h.users
  userSettings := h.userSettings
  sessions k row hrow := by
    rw [withoutSession, OrderedMap.get_delete] at hrow
    split at hrow
    · cases hrow
    · exact h.sessions k row hrow
  tasks k row hrow := by
    rw [withoutSession, OrderedMap.get_mapValues, OrderedMap.get_filter] at hrow
    obtain ⟨old, hold, rfl⟩ := Option.map_eq_some_iff.mp hrow
    exact detach_owned (h.tasks k old (Option.filter_eq_some_iff.mp hold).1)
  files := h.files
  links link hlink := h.links link (List.mem_of_mem_filter hlink)
  results row hrow := h.results row (List.mem_of_mem_filter hrow)
  artifacts row hrow := by
    obtain ⟨old, hold, rfl⟩ := List.mem_map.mp hrow
    exact unlink_owned (h.artifacts old (List.mem_of_mem_filter hold))
  events row hrow := h.events row (List.mem_of_mem_filter hrow)
  references taskId hmem := by
    simp only [references, List.mem_append, List.mem_map] at hmem
    rcases hmem with ((⟨link, hlink, rfl⟩ | ⟨row, hrow, rfl⟩) | ⟨row, hrow, rfl⟩) | ⟨row, hrow, rfl⟩
    · obtain ⟨hlink, hin⟩ := List.mem_filter.mp hlink
      apply present_withoutSession (by simpa using hin)
      exact h.references _ (by simp [references, List.mem_map_of_mem hlink])
    · obtain ⟨hrow, hkept⟩ := List.mem_filter.mp hrow
      apply present_withoutSession (by simpa using (Bool.and_eq_true_iff.mp hkept).2)
      refine h.references _ ?_
      simp only [references, List.mem_append]
      exact .inl (.inl (.inr (List.mem_map_of_mem hrow)))
    · obtain ⟨old, hold, rfl⟩ := List.mem_map.mp hrow
      obtain ⟨hold, hin⟩ := List.mem_filter.mp hold
      change ((withoutSession id s).tasks.get (unlink s id old).taskId).isSome
      rw [unlink_taskId]
      apply present_withoutSession (by simpa using hin)
      exact h.references _ (by simp [references, List.mem_map_of_mem hold])
    · obtain ⟨hrow, hin⟩ := List.mem_filter.mp hrow
      apply present_withoutSession (by simpa using hin)
      exact h.references _ (by simp [references, List.mem_map_of_mem hrow])
  channel := h.channel

theorem detach_rowsOf {row : TaskRow} {taskId : String} (h : TaskOwned owner taskId row)
    (hmine : owner taskId = some v) : detach (rowsOf owner v s) id row = detach s id row := by
  unfold detach
  cases hparent : row.parentTaskId with
  | none => rfl
  | some parent =>
    have hp : owner parent = some v := (h.parent parent hparent).trans (h.user.symm.trans hmine)
    rw [Option.any_some, Option.any_some, inSession_rowsOf hp]

theorem detach_other {row : TaskRow} {taskId : String} (hs : Owned owner s) (h : TaskOwned owner taskId row)
    (hid : owner id = some v) (hu : u ≠ v) (hmine : owner taskId = some u) : detach s id row = row := by
  unfold detach
  rw [if_neg]
  intro hany
  obtain ⟨parent, hparent, hin⟩ := (Option.any_eq_true ..).mp hany
  have hp : owner parent = some u := (h.parent parent hparent).trans (h.user.symm.trans hmine)
  rw [not_inSession_of_mine hs hid hu (mine_of hp)] at hin
  cases hin

/-- The results that a deletion takes away from an artifact. -/
theorem unlink_rowsOf {row : ResultArtifact} (hs : Owned owner s) (hrow : row ∈ s.resultArtifacts)
    (hmine : owner row.taskId = some v) : unlink (rowsOf owner v s) id row = unlink s id row := by
  unfold unlink
  have hany : ((rowsOf owner v s).taskResults.any fun result => row.resultId = some result.id &&
      (result.sessionId = id || (rowsOf owner v s).inSession id result.taskId)) =
      s.taskResults.any fun result => row.resultId = some result.id &&
        (result.sessionId = id || s.inSession id result.taskId) := by
    have hcongr : ((rowsOf owner v s).taskResults.any fun result => row.resultId = some result.id &&
        (result.sessionId = id || (rowsOf owner v s).inSession id result.taskId)) =
        (rowsOf owner v s).taskResults.any fun result => row.resultId = some result.id &&
          (result.sessionId = id || s.inSession id result.taskId) := by
      rw [Bool.eq_iff_iff, List.any_eq_true, List.any_eq_true]
      apply exists_congr
      intro result
      apply and_congr_right
      intro hresult
      rw [inSession_rowsOf (mine_iff.mp (List.mem_filter.mp hresult).2)]
    rw [hcongr]
    apply any_filter_of_imp
    intro result hresult hquery
    simp only [Bool.and_eq_true, decide_eq_true_eq] at hquery
    rw [mine_iff, ← (hs.results result hresult).1, (hs.artifacts row hrow).result _ hquery.1, hmine]
  rw [hany]

theorem unlink_other {row : ResultArtifact} (hs : Owned owner s) (hrow : row ∈ s.resultArtifacts)
    (hid : owner id = some v) (hu : u ≠ v) (hmine : owner row.taskId = some u) : unlink s id row = row := by
  unfold unlink
  rw [if_neg]
  intro hany
  obtain ⟨result, hresult, hquery⟩ := List.any_eq_true.mp hany
  simp only [Bool.and_eq_true, Bool.or_eq_true, decide_eq_true_eq] at hquery
  have howner : owner result.taskId = some u := by
    rw [← (hs.results result hresult).1, (hs.artifacts row hrow).result _ hquery.1, hmine]
  rcases hquery.2 with hsession | hin
  · rw [← (hs.results result hresult).2, hsession, hid] at howner
    exact hu (Option.some.inj howner).symm
  · rw [not_inSession_of_mine hs hid hu (mine_of howner)] at hin
    cases hin

theorem withoutSession_rowsOf (h : Owned owner s) :
    withoutSession id (rowsOf owner v s) = rowsOf owner v (withoutSession id s) := by
  have hin : ∀ taskId, mine owner v taskId = true →
      (!(rowsOf owner v s).inSession id taskId) = !s.inSession id taskId :=
    fun taskId hmine => congrArg _ (inSession_rowsOf (mine_iff.mp hmine))
  have htasks : (((rowsOf owner v s).tasks.filter fun row => row.sessionId ≠ id).mapValues
      (detach (rowsOf owner v s) id)) =
      ((s.tasks.filter fun row => row.sessionId ≠ id).mapValues (detach s id)).restrict (mine owner v) := by
    rw [OrderedMap.restrict_mapValues, OrderedMap.restrict_filter]
    apply OrderedMap.mapValues_congr
    intro taskId row hrow
    rw [OrderedMap.get_filter] at hrow
    have hget := (Option.filter_eq_some_iff.mp hrow).1
    rw [rowsOf, OrderedMap.get_restrict] at hget
    split at hget
    · rename_i hmine
      exact detach_rowsOf (h.tasks taskId row hget) (mine_iff.mp hmine)
    · cases hget
  have hlinks : (rowsOf owner v s).taskFiles.filter (fun link => !(rowsOf owner v s).inSession id link.taskId) =
      (s.taskFiles.filter fun link => !s.inSession id link.taskId).filter fun link =>
        mine owner v link.taskId := by
    rw [filter_filter_comm]
    exact List.filter_congr fun link hlink => hin _ (List.mem_filter.mp hlink).2
  have hevents : (rowsOf owner v s).taskEvents.filter (fun row => !(rowsOf owner v s).inSession id row.taskId) =
      (s.taskEvents.filter fun row => !s.inSession id row.taskId).filter fun row => mine owner v row.taskId := by
    rw [filter_filter_comm]
    exact List.filter_congr fun row hrow => hin _ (List.mem_filter.mp hrow).2
  have hresults : (rowsOf owner v s).taskResults.filter (fun row =>
      row.sessionId ≠ id && !(rowsOf owner v s).inSession id row.taskId) =
      (s.taskResults.filter fun row => row.sessionId ≠ id && !s.inSession id row.taskId).filter fun row =>
        mine owner v row.taskId := by
    rw [filter_filter_comm]
    exact List.filter_congr fun row hrow => congrArg _ (hin _ (List.mem_filter.mp hrow).2)
  have hartifacts : ((rowsOf owner v s).resultArtifacts.filter fun row =>
      !(rowsOf owner v s).inSession id row.taskId).map (unlink (rowsOf owner v s) id) =
      ((s.resultArtifacts.filter fun row => !s.inSession id row.taskId).map (unlink s id)).filter fun row =>
        mine owner v row.taskId := by
    rw [artifacts_map_mine _ _ unlink_taskId, filter_filter_comm]
    have hfilter : (rowsOf owner v s).resultArtifacts.filter (fun row =>
        !(rowsOf owner v s).inSession id row.taskId) =
        (s.resultArtifacts.filter fun row => mine owner v row.taskId).filter fun row =>
          !s.inSession id row.taskId :=
      List.filter_congr fun row hrow => hin _ (List.mem_filter.mp hrow).2
    rw [hfilter]
    apply List.map_congr_left
    intro row hrow
    obtain ⟨hrow, hmine⟩ := List.mem_filter.mp (List.mem_of_mem_filter hrow)
    exact unlink_rowsOf h hrow (mine_iff.mp hmine)
  have hsessions := s.sessions.restrict_delete (mine owner v) id
  exact Store.ext rfl rfl hsessions.symm htasks rfl hlinks hresults hartifacts hevents rfl rfl

theorem withoutSession_others (h : Owned owner s) (hid : owner id = some v) (hu : u ≠ v) :
    rowsOf owner u (withoutSession id s) = rowsOf owner u s := by
  have hin : ∀ taskId, mine owner u taskId = true → (!s.inSession id taskId) = true := by
    intro taskId hmine
    rw [not_inSession_of_mine h hid hu hmine]
    rfl
  have htasks : ((s.tasks.filter fun row => row.sessionId ≠ id).mapValues (detach s id)).restrict (mine owner u) =
      s.tasks.restrict (mine owner u) := by
    have howned : ∀ taskId row, (s.tasks.restrict (mine owner u)).get taskId = some row →
        TaskOwned owner taskId row ∧ owner taskId = some u := by
      intro taskId row hrow
      rw [OrderedMap.get_restrict] at hrow
      split at hrow
      · rename_i hmine
        exact ⟨h.tasks taskId row hrow, mine_iff.mp hmine⟩
      · cases hrow
    rw [OrderedMap.restrict_mapValues, OrderedMap.restrict_filter, OrderedMap.filter_of_pos]
    · apply OrderedMap.mapValues_of_id
      intro taskId row hrow
      obtain ⟨hrow, hmine⟩ := howned taskId row hrow
      exact detach_other h hrow hid hu hmine
    · intro taskId row hrow
      obtain ⟨hrow, hmine⟩ := howned taskId row hrow
      apply decide_eq_true
      intro hsession
      have hother := hrow.session.trans (hrow.user.symm.trans hmine)
      rw [hsession, hid] at hother
      exact hu (Option.some.inj hother).symm
  have hlinks : (s.taskFiles.filter fun link => !s.inSession id link.taskId).filter
      (fun link => mine owner u link.taskId) = s.taskFiles.filter fun link => mine owner u link.taskId :=
    filter_filter_of_imp fun link _ hmine => hin _ hmine
  have hevents : (s.taskEvents.filter fun row => !s.inSession id row.taskId).filter
      (fun row => mine owner u row.taskId) = s.taskEvents.filter fun row => mine owner u row.taskId :=
    filter_filter_of_imp fun row _ hmine => hin _ hmine
  have hresults : (s.taskResults.filter fun row => row.sessionId ≠ id && !s.inSession id row.taskId).filter
      (fun row => mine owner u row.taskId) = s.taskResults.filter fun row => mine owner u row.taskId := by
    apply filter_filter_of_imp
    intro row hrow hmine
    rw [Bool.and_eq_true]
    refine ⟨decide_eq_true ?_, hin _ hmine⟩
    intro hsession
    have hother := (h.results row hrow).2.trans (mine_iff.mp hmine)
    rw [hsession, hid] at hother
    exact hu (Option.some.inj hother).symm
  have hartifacts : ((s.resultArtifacts.filter fun row => !s.inSession id row.taskId).map (unlink s id)).filter
      (fun row => mine owner u row.taskId) = s.resultArtifacts.filter fun row => mine owner u row.taskId := by
    rw [artifacts_map_mine _ _ unlink_taskId, filter_filter_of_imp fun row _ hmine => hin _ hmine]
    conv_rhs => rw [← List.map_id (s.resultArtifacts.filter fun row => mine owner u row.taskId)]
    apply List.map_congr_left
    intro row hrow
    obtain ⟨hrow, hmine⟩ := List.mem_filter.mp hrow
    exact unlink_other h hrow hid hu (mine_iff.mp hmine)
  have hsessions := s.sessions.restrict_delete_of_neg (mine owner u) (not_mine_of hid hu)
  exact Store.ext rfl rfl hsessions htasks rfl hlinks hresults hartifacts hevents rfl rfl

theorem deleteSession_for (hid : owner id = some v) : For owner v (deleteSession id) fun _ => True := by
  apply for_attempt
  · intro s hs
    rw [rowsOf_session hid]
    split
    · exact congrArg some (withoutSession_rowsOf hs)
    · rfl
  · intro s s' hs hdelete
    split at hdelete
    · cases hdelete
      exact ⟨owned_withoutSession hs, fun u hu => withoutSession_others hs hid hu⟩
    · cases hdelete

end RowStatements
