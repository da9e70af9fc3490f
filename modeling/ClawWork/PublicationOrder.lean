import ClawWork.EventIds
import ClawWork.TaskStream
import ClawWork.Transition

/-!
# When publication follows the order of the ids

The id of an event is drawn when its row is inserted, its commit and its
publication come later, and nothing orders these moments between two calls. Where
every commit has the largest id so far, and every publication waits for the
committed events before it, no client loses an event to the filter.
-/

namespace PublicationOrder

open SharedTypes TaskStore TasksService PersistCalls LogCommits EventIds TaskStream Transition

variable {settings : Settings} {committed : Nat → Prop} {published : List Nat} {client : Client}
  {event : PersistedTaskEvent} {m n : Nat} {t : String}

/-- The publications of a task are a beginning of its committed events, in the order of the ids. -/
structure Prefix (committed : Nat → Prop) (published : List Nat) : Prop where
  positive : ∀ n, committed n → 0 < n
  increasing : published.Pairwise (· < ·)
  known : ∀ n ∈ published, committed n
  closed : ∀ m ∈ published, ∀ n, committed n → n < m → n ∈ published

/-- The rows that a query has found: everything after `last` up to some id, and after `before`. -/
def Snapshot (committed : Nat → Prop) (before : List Nat) (rows : List TaskEvent) (last : Nat) : Prop :=
  ∃ bound, (bound = 0 ∨ committed bound) ∧ (∀ n ∈ before, n ≤ bound) ∧
    (∀ row ∈ rows, committed row.id ∧ row.id ≤ bound) ∧
    ∀ n, committed n → last < n → n ≤ bound → ∃ row ∈ rows, row.id = n

/-- A client has everything up to its last event id; while its log is being read, the live queue is
a stretch of the publications. -/
structure Synced (committed : Nat → Prop) (published : List Nat) (client : Client) : Prop where
  order : InOrder client
  known : ∀ n ∈ eventIds client.received, committed n
  complete : ∀ n, committed n → n ≤ client.lastSentId → n ∈ eventIds client.received
  live : client.replaying = false → client.listening = true → client.closed = false →
    ∀ n ∈ published, n ≤ client.lastSentId
  queue : client.replaying = true → client.closed = false → ∃ before after,
    published = before ++ eventIds client.liveQueue ++ after ∧
      (client.listening = true → after = []) ∧
      ∀ rows ∈ client.replay, Snapshot committed before rows client.lastSentId

theorem Prefix.commit (h : Prefix committed published) (hpos : 0 < m) (hnew : ∀ n, committed n → n < m) :
    Prefix (fun n => committed n ∨ n = m) published where
  positive := by
    rintro n (hn | rfl)
    · exact h.positive n hn
    · exact hpos
  increasing := h.increasing
  known := fun n hn => .inl (h.known n hn)
  closed := by
    rintro k hk n (hn | rfl) hlt
    · exact h.closed k hk n hn hlt
    · have := hnew k (h.known k hk)
      omega

/-- Every publication so far has a smaller id, once the events before it are published. -/
theorem Prefix.lt (h : Prefix committed published) (hfresh : m ∉ published)
    (hm : committed m) : ∀ n ∈ published, n < m := by
  intro n hn
  rcases Nat.lt_trichotomy n m with hlt | heq | hgt
  · exact hlt
  · exact absurd (heq ▸ hn) hfresh
  · exact absurd (h.closed n hn m hm hgt) hfresh

theorem Prefix.publish (h : Prefix committed published) (hfresh : m ∉ published) (hm : committed m)
    (hbefore : ∀ n, committed n → n < m → n ∈ published) : Prefix committed (published ++ [m]) where
  positive := h.positive
  increasing := by
    rw [List.pairwise_append]
    refine ⟨h.increasing, List.pairwise_singleton _ _, fun n hn k hk => ?_⟩
    rw [List.mem_singleton.mp hk]
    exact h.lt hfresh hm n hn
  known := by
    intro n hn
    rcases List.mem_append.mp hn with hn | hn
    · exact h.known n hn
    · rw [List.mem_singleton.mp hn]
      exact hm
  closed := by
    intro k hk n hn hlt
    refine List.mem_append_left _ ?_
    rcases List.mem_append.mp hk with hk | hk
    · exact h.closed k hk n hn hlt
    · rw [List.mem_singleton.mp hk] at hlt
      exact hbefore n hn hlt

theorem Synced.lastSentId (h : Synced committed published client) :
    client.lastSentId = 0 ∨ committed client.lastSentId := by
  rw [h.order.last, lastReceivedId]
  cases hlast : client.received.getLast? with
  | none => exact .inl rfl
  | some event =>
    exact .inr (h.known event.id (List.mem_map_of_mem (List.mem_of_getLast? hlast)))

/-- A commit with the largest id is beyond all that any client has. -/
theorem Synced.commit (h : Synced committed published client) (hpos : 0 < m)
    (hnew : ∀ n, committed n → n < m) : Synced (fun n => committed n ∨ n = m) published client where
  order := h.order
  known := fun n hn => .inl (h.known n hn)
  complete := by
    rintro n (hn | rfl) hle
    · exact h.complete n hn hle
    · rcases h.lastSentId with hlast | hlast
      · omega
      · have := hnew _ hlast
        omega
  live := h.live
  queue := by
    intro hreplaying hopen
    obtain ⟨before, after, hpub, hafter, hsnapshot⟩ := h.queue hreplaying hopen
    refine ⟨before, after, hpub, hafter, fun rows hrows => ?_⟩
    obtain ⟨bound, hbound, hbefore, hfound, hall⟩ := hsnapshot rows hrows
    refine ⟨bound, hbound.imp_right .inl, hbefore, fun row hrow => ?_, ?_⟩
    · exact ⟨.inl (hfound row hrow).1, (hfound row hrow).2⟩
    · rintro n (hn | rfl) hlt hle
      · exact hall n hn hlt hle
      · rcases hbound with hbound | hbound
        · omega
        · have := hnew _ hbound
          omega

/-- A connection may be forgotten by the hub at any time. -/
theorem Synced.mute (h : Synced committed published client) (b : Bool) :
    Synced committed published { client with listening := client.listening && b } where
  order := ⟨h.order.increasing, h.order.last⟩
  known := h.known
  complete := h.complete
  live := fun hlive hlisten hopen => h.live hlive (Bool.and_eq_true_iff.mp hlisten).1 hopen
  queue := by
    intro hreplaying hopen
    obtain ⟨before, after, hpub, hafter, hsnapshot⟩ := h.queue hreplaying hopen
    exact ⟨before, after, hpub, fun hlisten => hafter (Bool.and_eq_true_iff.mp hlisten).1, hsnapshot⟩

theorem emit_replaying (client : Client) (event : PersistedTaskEvent) :
    (client.emit event).replaying = client.replaying := by
  unfold Client.emit
  split <;> rfl

theorem emit_sound (client : Client) (event : PersistedTaskEvent) :
    ∀ n ∈ eventIds (client.emit event).received, n ∈ eventIds client.received ∨ n = event.id := by
  intro n hn
  obtain ⟨e, he, rfl⟩ := List.mem_map.mp hn
  rcases emitAll_sound client [event] e he with he | he
  · exact .inl (List.mem_map_of_mem he)
  · exact .inr (by rw [List.mem_singleton.mp he])

/-- An emitted publication fills the ids up to its own. -/
theorem Synced.emit (h : Synced committed published client) (hlive : client.replaying = false)
    (hlisten : client.listening = true) (hevent : committed event.id)
    (hbefore : ∀ n, committed n → n < event.id → n ∈ published) :
    Synced committed (published ++ [event.id]) (client.emit event) where
  order := h.order.emit
  known := by
    intro n hn
    rcases emit_sound client event n hn with hn | rfl
    · exact h.known n hn
    · exact hevent
  complete := by
    intro n hn hle
    have hkeep : n ∈ eventIds client.received → n ∈ eventIds (client.emit event).received :=
      mem_eventIds_mono (emit_received client event)
    unfold Client.emit at hle hkeep ⊢
    split at hle <;> rename_i hcase
    · rw [if_pos hcase] at hkeep ⊢
      exact h.complete n hn hle
    · rw [if_neg hcase] at hkeep ⊢
      have hopen : client.closed = false := by
        simp only [Bool.or_eq_true, not_or] at hcase
        simpa using hcase.1
      rcases Nat.lt_or_eq_of_le hle with hlt | rfl
      · exact hkeep (h.complete n hn (h.live hlive hlisten hopen n (hbefore n hn hlt)))
      · simp [eventIds]
  live := by
    intro _ _ hopen n hn
    have hopen' : client.closed = false := by
      cases hclosed : client.closed with
      | false => rfl
      | true => simp [Client.emit, hclosed] at hopen
    rcases List.mem_append.mp hn with hn | hn
    · exact Nat.le_trans (h.live hlive hlisten hopen' n hn) (emit_lastSentId_le client event)
    · rw [List.mem_singleton.mp hn]
      exact emit_le hopen' event
  queue := by
    intro hreplaying
    rw [emit_replaying, hlive] at hreplaying
    cases hreplaying

/-- A publication during the replay waits in the queue. -/
theorem Synced.enqueue (h : Synced committed published client) (hreplaying : client.replaying = true)
    (hlisten : client.listening = true) :
    Synced committed (published ++ [event.id])
      { client with liveQueue := client.liveQueue ++ [event] } where
  order := ⟨h.order.increasing, h.order.last⟩
  known := h.known
  complete := h.complete
  live := by
    intro hlive
    rw [hreplaying] at hlive
    cases hlive
  queue := by
    intro _ hopen
    obtain ⟨before, after, hpub, hafter, hsnapshot⟩ := h.queue hreplaying hopen
    refine ⟨before, [], ?_, fun _ => rfl, hsnapshot⟩
    rw [hpub, hafter hlisten]
    simp [eventIds]

/-- A publication in turn reaches every client that listens. -/
theorem Synced.deliver (h : Synced committed published client) (hevent : committed event.id)
    (hbefore : ∀ n, committed n → n < event.id → n ∈ published)
    (htask : client.taskId = event.event.taskId) :
    Synced committed (published ++ [event.id]) (client.deliver event) := by
  unfold Client.deliver
  by_cases hlisten : client.listening = true
  · rw [if_pos ⟨htask, hlisten⟩]
    refine Synced.mute ?_ _
    unfold Client.hear
    split
    · rename_i hreplaying
      exact h.enqueue hreplaying hlisten
    · rename_i hlive
      exact h.emit (by simpa using hlive) hlisten hevent hbefore
  · rw [if_neg fun hboth => hlisten hboth.2]
    refine ⟨h.order, h.known, h.complete, fun _ hlisten' => absurd hlisten' hlisten,
      fun hreplaying hopen => ?_⟩
    obtain ⟨before, after, hpub, hafter, hsnapshot⟩ := h.queue hreplaying hopen
    refine ⟨before, after ++ [event.id], by simp [hpub], fun hlisten' => absurd hlisten' hlisten, hsnapshot⟩

/-- A connection starts with what its client has. -/
theorem synced_connect {received : List PersistedTaskEvent} (t : String)
    (horder : (eventIds received).Pairwise (· < ·)) (hknown : ∀ n ∈ eventIds received, committed n)
    (hcomplete : ∀ n, committed n → n ≤ lastReceivedId received → n ∈ eventIds received) :
    Synced committed published (.connect t received) where
  order := ⟨horder, rfl⟩
  known := hknown
  complete := hcomplete
  live := by
    intro hlive
    cases hlive
  queue := by
    intro _ _
    refine ⟨published, [], by simp [Client.connect, eventIds], fun _ => rfl, fun rows hrows => ?_⟩
    cases hrows

/-- What is lost on the way to a client is lost from the end. -/
theorem Synced.reconnect (h : Synced committed published client) (hpos : ∀ n, committed n → 0 < n)
    {received : List PersistedTaskEvent} (hinitial : received <+: client.received) :
    Synced committed published (.connect client.taskId received) := by
  obtain ⟨rest, hrest⟩ := hinitial
  have hids : eventIds client.received = eventIds received ++ eventIds rest := by
    rw [← hrest]
    simp [eventIds]
  have hinc := h.order.increasing
  rw [hids, List.pairwise_append] at hinc
  have hsub : ∀ n ∈ eventIds received, n ∈ eventIds client.received := by
    intro n hn
    rw [hids]
    exact List.mem_append_left _ hn
  refine synced_connect _ hinc.1 (fun k hk => h.known k (hsub k hk)) fun k hk hle => ?_
  have hlast := le_lastReceivedId h.order.increasing
  rw [← h.order.last] at hlast
  rw [lastReceivedId] at hle
  cases hgot : received.getLast? with
  | none =>
    rw [hgot] at hle
    exact absurd (hpos k hk) (by simpa using hle)
  | some event =>
    rw [hgot] at hle
    have hevent : event.id ∈ eventIds received :=
      List.mem_map_of_mem (List.mem_of_getLast? hgot)
    have hmem := h.complete k hk (Nat.le_trans hle (hlast _ (hsub _ hevent)))
    rw [hids, List.mem_append] at hmem
    refine hmem.resolve_right fun hmem => ?_
    exact Nat.not_lt.mpr hle (hinc.2.2 event.id hevent k hmem)

theorem exists_bound (rows : List TaskEvent) :
    ∃ bound, (bound = 0 ∨ ∃ row ∈ rows, row.id = bound) ∧ ∀ row ∈ rows, row.id ≤ bound := by
  induction rows with
  | nil => exact ⟨0, .inl rfl, fun row h => by cases h⟩
  | cons row rows ih =>
    obtain ⟨bound, hbound, hle⟩ := ih
    rcases Nat.le_total bound row.id with h | h
    · refine ⟨row.id, .inr ⟨row, List.mem_cons_self, rfl⟩, fun r hr => ?_⟩
      rcases List.mem_cons.mp hr with rfl | hr
      · exact Nat.le_refl _
      · exact Nat.le_trans (hle r hr) h
    · refine ⟨bound, hbound.imp_right fun ⟨r, hr, heq⟩ => ⟨r, List.mem_cons_of_mem _ hr, heq⟩,
        fun r hr => ?_⟩
      rcases List.mem_cons.mp hr with rfl | hr
      · exact h
      · exact hle r hr

/-- The query sees what is committed. -/
theorem Synced.list {db : Database} {t : String}
    (h : Synced (fun n => ∃ row ∈ db.eventsOf t, row.id = n) published client)
    (hp : Prefix (fun n => ∃ row ∈ db.eventsOf t, row.id = n) published) :
    Synced (fun n => ∃ row ∈ db.eventsOf t, row.id = n) published
      { client with replay := some (listTaskEvents db t client.lastSentId) } where
  order := ⟨h.order.increasing, h.order.last⟩
  known := h.known
  complete := h.complete
  live := h.live
  queue := by
    intro hreplaying hopen
    obtain ⟨before, after, hpub, hafter, -⟩ := h.queue hreplaying hopen
    refine ⟨before, after, hpub, hafter, fun rows hrows => ?_⟩
    cases hrows
    obtain ⟨bound, hbound, hle⟩ := exists_bound (db.eventsOf t)
    refine ⟨bound, hbound, fun n hn => ?_, fun row hrow => ?_, fun n hn hlt hn' => ?_⟩
    · obtain ⟨row, hrow, rfl⟩ := hp.known n (by simp [hpub, hn])
      exact hle row hrow
    · have hrow := List.mem_of_mem_filter hrow
      exact ⟨⟨row, hrow, rfl⟩, hle row hrow⟩
    · obtain ⟨row, hrow, rfl⟩ := hn
      exact ⟨row, List.mem_filter.mpr ⟨hrow, decide_eq_true hlt⟩, rfl⟩

theorem readRow_ids {rows : List TaskEvent} {events : List PersistedTaskEvent}
    (h : rows.mapM (readRow settings) = some events) : eventIds events = rows.map TaskEvent.id := by
  induction rows generalizing events with
  | nil =>
    cases h
    rfl
  | cons row rows ih =>
    rw [List.mapM_cons] at h
    obtain ⟨event, hevent, h⟩ := Option.bind_eq_some_iff.mp h
    obtain ⟨rest, hrest, h⟩ := Option.bind_eq_some_iff.mp h
    cases h
    obtain ⟨e, -, rfl⟩ := Option.map_eq_some_iff.mp hevent
    rw [eventIds, List.map_cons, List.map_cons]
    exact congrArg _ (ih hrest)

theorem emitAll_listening (events : List PersistedTaskEvent)
    (h : (events.foldl Client.emit client).listening = true) : client.listening = true := by
  induction events generalizing client with
  | nil => exact h
  | cons event events ih =>
    have hemit := ih h
    unfold Client.emit at hemit
    split at hemit
    · exact hemit
    · exact (Bool.and_eq_true_iff.mp hemit).1

theorem Synced.close (h : Synced committed published client) :
    Synced committed published { client with closed := true, listening := false } where
  order := ⟨h.order.increasing, h.order.last⟩
  known := h.known
  complete := h.complete
  live := by
    intro _ _ hopen
    cases hopen
  queue := by
    intro _ hopen
    cases hopen

/-- Between the rows that were found and the live queue no committed id is missing. -/
theorem mem_of_snapshot {before live after : List Nat} {rows : List TaskEvent} {last : Nat}
    (hp : Prefix committed (before ++ live ++ after)) (h : Snapshot committed before rows last)
    (hn : committed n) (hlast : last < n) (hle : n ≤ m) (hm : m ∈ rows.map TaskEvent.id ++ live) :
    n ∈ rows.map TaskEvent.id ++ live := by
  obtain ⟨bound, -, hbefore, hfound, hall⟩ := h
  by_cases hbound : n ≤ bound
  · obtain ⟨row, hrow, rfl⟩ := hall n hn hlast hbound
    exact List.mem_append_left _ (List.mem_map_of_mem hrow)
  · have hlive : m ∈ live := by
      refine (List.mem_append.mp hm).resolve_left fun hm => ?_
      obtain ⟨row, hrow, rfl⟩ := List.mem_map.mp hm
      have := (hfound row hrow).2
      omega
    refine List.mem_append_right _ ?_
    rcases Nat.lt_or_eq_of_le hle with hlt | rfl
    · have hpub := hp.closed m (by simp [hlive]) n hn hlt
      have hinc := (List.pairwise_append.mp hp.increasing).2.2
      rcases List.mem_append.mp hpub with hpub | hpub
      · rcases List.mem_append.mp hpub with hpub | hpub
        · exact absurd (hbefore n hpub) hbound
        · exact hpub
      · have := hinc m (List.mem_append_right _ hlive) n hpub
        omega
    · exact hlive

theorem mem_sortById {events : List PersistedTaskEvent} : event ∈ sortById events ↔ event ∈ events :=
  (List.perm_insertionSort _ events).mem_iff

theorem sorted_sortById (events : List PersistedTaskEvent) :
    (sortById events).Pairwise fun a b => a.id ≤ b.id := by
  have : Std.Total fun a b : PersistedTaskEvent => a.id ≤ b.id := ⟨fun a b => Nat.le_total a.id b.id⟩
  have : IsTrans PersistedTaskEvent fun a b => a.id ≤ b.id := ⟨fun a b c => Nat.le_trans⟩
  exact List.pairwise_insertionSort _ events

/-- The answer of the query and the live queue, sorted, leave no gap. -/
theorem Synced.answer (h : Synced committed published client) (hp : Prefix committed published)
    (hreplaying : client.replaying = true) (hopen : client.closed = false) {rows : List TaskEvent}
    (hrows : client.replay = some rows) : Synced committed published (client.answer settings rows) := by
  unfold Client.answer
  split
  · exact h.close
  · rename_i events hevents
    obtain ⟨before, after, hpub, hafter, hsnapshot⟩ := h.queue hreplaying hopen
    have hsnap := hsnapshot rows hrows
    obtain ⟨bound, hbound, hbefore, hfound, hall⟩ := hsnapshot rows hrows
    have hall' := sorted_sortById (events ++ client.liveQueue)
    have hids : ∀ n, n ∈ eventIds (sortById (events ++ client.liveQueue)) ↔
        n ∈ rows.map TaskEvent.id ++ eventIds client.liveQueue := by
      intro n
      rw [← readRow_ids hevents, eventIds, eventIds, eventIds, ← List.map_append]
      simp only [List.mem_map, mem_sortById]
    generalize sortById (events ++ client.liveQueue) = sorted at hall' hids
    have hle := emitAll_lastSentId_le client sorted
    have hmono := emitAll_received client sorted
    refine ⟨⟨(h.order.emitAll sorted).increasing, (h.order.emitAll sorted).last⟩, fun n hn => ?_,
      fun n hn hle' => ?_, fun _ hlisten hopen' n hn => ?_, fun hreplaying' => by cases hreplaying'⟩
    · obtain ⟨e, he, rfl⟩ := List.mem_map.mp hn
      rcases emitAll_sound client sorted e he with he | he
      · exact h.known e.id (List.mem_map_of_mem he)
      · rcases List.mem_append.mp ((hids e.id).mp (List.mem_map_of_mem he)) with he | he
        · obtain ⟨row, hrow, heq⟩ := List.mem_map.mp he
          rw [← heq]
          exact (hfound row hrow).1
        · exact hp.known e.id (by simp [hpub, he])
    · by_cases hold : n ≤ client.lastSentId
      · exact mem_eventIds_mono hmono (h.complete n hn hold)
      · have hlast : (sorted.foldl Client.emit client).lastSentId ∈ eventIds sorted := by
          refine (emitAll_lastSentId client sorted).resolve_left fun heq => ?_
          simp only at hle'
          omega
        rw [hpub] at hp
        have hmem := mem_of_snapshot hp hsnap hn (Nat.not_le.mp hold) hle' ((hids _).mp hlast)
        obtain ⟨e, he, rfl⟩ := List.mem_map.mp ((hids n).mpr hmem)
        exact (emitAll_complete hall' e he hle').resolve_left hold
    · have hlisten' : client.listening = true := emitAll_listening sorted hlisten
      rw [hpub, hafter hlisten', List.append_nil] at hn
      have hsent : ∀ k ∈ eventIds sorted, k ≤ (sorted.foldl Client.emit client).lastSentId := by
        intro k hk
        obtain ⟨e, he, rfl⟩ := List.mem_map.mp hk
        exact emitAll_le hopen' e he
      rcases List.mem_append.mp hn with hn | hn
      · by_cases hold : n ≤ client.lastSentId
        · exact Nat.le_trans hold hle
        · obtain ⟨row, hrow, rfl⟩ := hall n (hp.known n (by simp [hpub, hn])) (Nat.not_le.mp hold)
            (hbefore n hn)
          exact hsent _ ((hids _).mpr (List.mem_append_left _ (List.mem_map_of_mem hrow)))
      · exact hsent _ ((hids _).mpr (List.mem_append_right _ hn))

def committedId (s : System) (t : String) (n : Nat) : Prop := ∃ row ∈ s.db.eventsOf t, row.id = n

def publishedIds (s : System) (t : String) : List Nat :=
  eventIds (s.published.filter fun event => event.event.taskId = t)

/-- The events of a task are published in the order of their ids, and the filter of no client is
above a committed event that the client has not received. -/
structure InIdOrder (t : String) (s : StreamSystem) : Prop where
  published : (publishedIds s.service t).Pairwise (· < ·)
  nothingDropped : ∀ k client, s.clients k = some client → client.taskId = t →
    ∀ row ∈ s.service.db.eventsOf t, row.id ≤ client.lastSentId → row.id ∈ eventIds client.received

/-- A commit has the largest id of its task, and a publication comes after those of the committed
events before it. -/
def InTurn (t : String) (s : StreamSystem) : TaskStream.Label → Prop
  | .service l =>
    (∀ row ∈ committing s.service l, row.taskId = t →
      ∀ old ∈ s.service.db.eventsOf t, old.id < row.id) ∧
    (∀ event ∈ publishing s.service l, event.event.taskId = t →
      ∀ row ∈ s.service.db.eventsOf t, row.id < event.id → row.id ∈ publishedIds s.service t)
  | _ => True

structure Inv (t : String) (s : StreamSystem) : Prop where
  tracked : Tracked s.service
  drawn : Drawn s.service
  published : Prefix (committedId s.service t) (publishedIds s.service t)
  synced : ∀ k client, s.clients k = some client → client.taskId = t →
    Synced (committedId s.service t) (publishedIds s.service t) client

theorem Inv.inIdOrder {s : StreamSystem} (h : Inv t s) : InIdOrder t s where
  published := h.published.increasing
  nothingDropped := by
    intro k client hk ht row hrow hle
    exact (h.synced k client hk ht).complete row.id ⟨row, hrow, rfl⟩ hle

theorem inv_init (t : String) : Inv t .init where
  tracked := tracked_init
  drawn := drawn_init
  published := by
    refine ⟨fun n hn => ?_, List.Pairwise.nil, fun n hn => (by cases hn), fun m hm => (by cases hm)⟩
    obtain ⟨row, hrow, -⟩ := hn
    cases hrow
  synced := by
    intro k client hk
    cases hk

variable {s : StreamSystem} {service : System} {l : PersistCalls.Label}

theorem committing_of_publishing {s : System} (h : publishing s l = some event) :
    committing s l = none := by
  cases l with
  | advance c =>
    obtain ⟨call, hcall, hpublish⟩ := Option.bind_eq_some_iff.mp h
    obtain ⟨prepared, id, hphase, -⟩ := callPublishes_eq_some hpublish
    simp [committing, hcall, callCommits, hphase]
  | call => rfl
  | abort => rfl
  | single => rfl

/-- What is published is committed, and not published before. -/
theorem publishing_spec {s : System} (hd : Drawn s) (h : publishing s l = some event)
    (ht : event.event.taskId = t) : committedId s t event.id ∧ event.id ∉ publishedIds s t := by
  cases l with
  | advance c =>
    obtain ⟨call, hcall, hpublish⟩ := Option.bind_eq_some_iff.mp h
    obtain ⟨prepared, id, hphase, rfl⟩ := callPublishes_eq_some hpublish
    have hheld := hd.held c call hcall
    rw [hphase] at hheld
    obtain ⟨⟨row, hrow, hid, htask⟩, hfresh⟩ := hheld
    have hsame := hd.sameTask c call prepared hcall (by rw [hphase]; rfl)
    refine ⟨⟨row, List.mem_filter.mpr ⟨hrow, ?_⟩, hid⟩, fun hmem => ?_⟩
    · rw [htask, ← hsame]
      exact decide_eq_true ht
    · obtain ⟨old, hold, heq⟩ := List.mem_map.mp hmem
      exact hfresh old (List.mem_of_mem_filter hold) heq
  | call => cases h
  | abort => cases h
  | single => cases h

theorem committedId_congr {s s' : System} (hevents : s'.db.taskEvents = s.db.taskEvents) :
    committedId s' t = committedId s t := by
  funext n
  simp only [committedId, Database.eventsOf, hevents]

/-- A step of the service that commits an event of the task. -/
theorem inv_commit (h : Inv t s) (hturn : InTurn t s (.service l))
    (hstep : PersistCalls.step settings s.service l = some service) {row : TaskEvent}
    (hcommit : committing s.service l = some row) :
    Inv t ⟨service, s.clients⟩ := by
  obtain ⟨hevents, hpub, -⟩ := step_commit h.tracked hstep hcommit
  have hperm := eventsOf_insertEvent hevents t
  have hpublished : publishedIds service t = publishedIds s.service t := by
    rw [publishedIds, hpub]
    rfl
  have hdrawn := drawn_step h.tracked h.drawn hstep
  by_cases ht : row.taskId = t
  · have hids : committedId service t = fun n => committedId s.service t n ∨ n = row.id := by
      funext n
      simp only [committedId, hperm.mem_iff, ht, if_true, List.singleton_append, List.mem_cons]
      refine propext ⟨?_, ?_⟩
      · rintro ⟨r, rfl | hr, rfl⟩
        · exact .inr rfl
        · exact .inl ⟨r, hr, rfl⟩
      · rintro (⟨r, hr, rfl⟩ | rfl)
        · exact ⟨r, .inr hr, rfl⟩
        · exact ⟨row, .inl rfl, rfl⟩
    have hlt : ∀ n, committedId s.service t n → n < row.id := by
      rintro n ⟨old, hold, rfl⟩
      exact hturn.1 row hcommit ht old hold
    have hpos : 0 < row.id := by
      refine (hdrawn.below row ?_).1
      rw [hevents, mem_insertEvent]
      exact .inl rfl
    refine ⟨tracked_step h.tracked hstep, hdrawn, ?_, fun k client hk ht' => ?_⟩
    · simp only [hids, hpublished]
      exact h.published.commit hpos hlt
    · simp only [hids, hpublished]
      exact (h.synced k client hk ht').commit hpos hlt
  · have hids : committedId service t = committedId s.service t := by
      funext n
      simp only [committedId, hperm.mem_iff, ht, if_false, List.nil_append]
    refine ⟨tracked_step h.tracked hstep, hdrawn, ?_, ?_⟩
    · simp only [hids, hpublished]
      exact h.published
    · simp only [hids, hpublished]
      exact h.synced

/-- A step of the service that publishes an event of the task. -/
theorem inv_publish (h : Inv t s) (hturn : InTurn t s (.service l))
    (hstep : PersistCalls.step settings s.service l = some service)
    (hpublish : publishing s.service l = some event) :
    Inv t ⟨service, fun k => (s.clients k).map (Client.deliver event)⟩ := by
  obtain ⟨hevents, -, hpub⟩ := step_quiet hstep (committing_of_publishing hpublish)
  rw [hpublish, Option.toList_some] at hpub
  have htask : ∀ old : Client, (old.deliver event).taskId = t → old.taskId = t := fun old ht => by
    rw [← ht, Client.deliver_taskId]
  by_cases ht : event.event.taskId = t
  · obtain ⟨hcommitted, hfresh⟩ := publishing_spec h.drawn hpublish ht
    have hids : publishedIds service t = publishedIds s.service t ++ [event.id] := by
      simp [publishedIds, hpub, eventIds, ht]
    have hbefore : ∀ n, committedId s.service t n → n < event.id → n ∈ publishedIds s.service t := by
      rintro n ⟨row, hrow, rfl⟩ hlt
      exact hturn.2 event hpublish ht row hrow hlt
    refine ⟨tracked_step h.tracked hstep, drawn_step h.tracked h.drawn hstep, ?_,
      fun k client hk ht' => ?_⟩
    · rw [committedId_congr hevents, hids]
      exact h.published.publish hfresh hcommitted hbefore
    · obtain ⟨old, hold, rfl⟩ := Option.map_eq_some_iff.mp hk
      rw [committedId_congr hevents, hids]
      exact (h.synced k old hold (htask old ht')).deliver hcommitted hbefore
        ((htask old ht').trans ht.symm)
  · have hids : publishedIds service t = publishedIds s.service t := by
      simp [publishedIds, hpub, eventIds, ht]
    refine ⟨tracked_step h.tracked hstep, drawn_step h.tracked h.drawn hstep, ?_,
      fun k client hk ht' => ?_⟩
    · rw [committedId_congr hevents, hids]
      exact h.published
    · obtain ⟨old, hold, rfl⟩ := Option.map_eq_some_iff.mp hk
      have hother : old.deliver event = old := by
        simp [Client.deliver, htask old ht', Ne.symm ht]
      rw [committedId_congr hevents, hids, hother]
      exact h.synced k old hold (htask old ht')

/-- A step of the service that neither commits nor publishes. -/
theorem inv_quiet (h : Inv t s) (hstep : PersistCalls.step settings s.service l = some service)
    (hcommit : committing s.service l = none) (hpublish : publishing s.service l = none) :
    Inv t ⟨service, s.clients⟩ := by
  obtain ⟨hevents, -, hpub⟩ := step_quiet hstep hcommit
  have hpublished : publishedIds service t = publishedIds s.service t := by
    rw [publishedIds, hpub, hpublish]
    simp [publishedIds]
  refine ⟨tracked_step h.tracked hstep, drawn_step h.tracked h.drawn hstep, ?_, ?_⟩
  · rw [committedId_congr hevents, hpublished]
    exact h.published
  · rw [committedId_congr hevents, hpublished]
    exact h.synced

/-- A step of one client. -/
theorem Inv.setClient (h : Inv t s) {k : Nat}
    (hclient : client.taskId = t →
      Synced (committedId s.service t) (publishedIds s.service t) client) :
    Inv t (s.setClient k client) where
  tracked := h.tracked
  drawn := h.drawn
  published := h.published
  synced := by
    intro j other hj ht
    simp only [StreamSystem.setClient, Function.update_apply] at hj
    split at hj
    · cases hj
      exact hclient ht
    · exact h.synced j other hj ht

theorem emitAll_taskId (events : List PersistedTaskEvent) :
    (events.foldl Client.emit client).taskId = client.taskId := by
  induction events generalizing client with
  | nil => rfl
  | cons event events ih =>
    rw [List.foldl_cons, ih]
    unfold Client.emit
    split <;> rfl

theorem answer_taskId (rows : List TaskEvent) :
    (client.answer settings rows).taskId = client.taskId := by
  unfold Client.answer
  split
  · rfl
  · exact emitAll_taskId _

/-- Steps in turn keep the invariant. -/
theorem inv_step {s' : StreamSystem} {l : TaskStream.Label} (h : Inv t s) (hturn : InTurn t s l)
    (hstep : TaskStream.step settings s l = some s') : Inv t s' := by
  cases l with
  | service l =>
    obtain ⟨service, hservice, hstep⟩ := Option.bind_eq_some_iff.mp hstep
    cases hcommit : committing s.service l with
    | some row =>
      have hpublish : publishing s.service l = none := by
        cases hpublish : publishing s.service l with
        | none => rfl
        | some event =>
          rw [committing_of_publishing hpublish] at hcommit
          cases hcommit
      rw [hpublish] at hstep
      cases hstep
      exact inv_commit h hturn hservice hcommit
    | none =>
      cases hpublish : publishing s.service l with
      | some event =>
        rw [hpublish] at hstep
        cases hstep
        exact inv_publish h hturn hservice hpublish
      | none =>
        rw [hpublish] at hstep
        cases hstep
        exact inv_quiet h hservice hcommit hpublish
  | connect k taskId =>
    simp only [TaskStream.step] at hstep
    split at hstep <;> cases hstep
    refine h.setClient fun _ => synced_connect taskId List.Pairwise.nil (fun n hn => by cases hn) ?_
    intro n hn hle
    have hpos := h.published.positive n hn
    simp [lastReceivedId] at hle
    omega
  | reconnect k n =>
    obtain ⟨client, hk, hstep⟩ := Option.bind_eq_some_iff.mp hstep
    cases hstep
    exact h.setClient fun ht =>
      (h.synced k client hk ht).reconnect h.published.positive (List.take_prefix n _)
  | list k =>
    obtain ⟨client, hk, hstep⟩ := Option.bind_eq_some_iff.mp hstep
    split at hstep <;> cases hstep
    refine h.setClient fun ht => ?_
    have hsynced := h.synced k client hk ht
    have htask : client.taskId = t := ht
    subst htask
    exact hsynced.list h.published
  | answer k =>
    obtain ⟨client, hk, hstep⟩ := Option.bind_eq_some_iff.mp hstep
    split at hstep
    · cases hstep
    · rename_i hguard
      obtain ⟨rows, hrows, hstep⟩ := Option.bind_eq_some_iff.mp hstep
      cases hstep
      refine h.setClient fun ht => ?_
      rw [answer_taskId] at ht
      have hboth : client.closed = false ∧ client.replaying = true := by simpa using hguard
      exact (h.synced k client hk ht).answer h.published hboth.2 hboth.1 hrows
  | drop k =>
    obtain ⟨client, hk, hstep⟩ := Option.bind_eq_some_iff.mp hstep
    cases hstep
    exact h.setClient fun ht => (h.synced k client hk ht).close

/-- In every run whose commits and publications come in turn, the publications are in the order of
the ids and no client loses an event, in every state. -/
theorem in_id_order_of_turns {ls : List TaskStream.Label} (t : String)
    (hturns : Along (TaskStream.step settings) (InTurn t) .init ls) :
    Throughout (TaskStream.step settings) (InIdOrder t) .init ls :=
  throughout_of_along (fun _ h => h.inIdOrder) (fun _ _ _ h hturn hstep => inv_step h hturn hstep)
    (inv_init t) hturns

instance (t : String) (s : StreamSystem) : ∀ l, Decidable (InTurn t s l)
  | .service l => inferInstanceAs (Decidable ((∀ row ∈ committing s.service l, row.taskId = t →
      ∀ old ∈ s.service.db.eventsOf t, old.id < row.id) ∧
    (∀ event ∈ publishing s.service l, event.event.taskId = t →
      ∀ row ∈ s.service.db.eventsOf t, row.id < event.id → row.id ∈ publishedIds s.service t)))
  | .connect _ _ | .reconnect _ _ | .list _ | .answer _ | .drop _ => .isTrue trivial

/-- A running task with one client of its stream. -/
def watchedTask : List TaskStream.Label :=
  [.service (.single (.enqueue ⟨"t", "u", none, "hello", .inr ("s", "hello")⟩)),
    .service (.single (.dispatch "t" "r" "url" "2026-01-01")), .connect 0 "t", .list 0, .answer 0]

/-- The user cancels, call `0`, and the relay has a delta to persist, call `1`. -/
def bothCalls : List TaskStream.Label :=
  [.service (.call 0 ⟨.cancelled "task cancelled by user", "t", "s", "r", "2026-01-01"⟩ none none
      "2026-01-01" "r0"),
    .service (.call 1 ⟨.delta "hello", "t", "s", "r", "2026-01-01"⟩ none (some "1") "2026-01-01" "r1")]

/-- The cancellation has drawn its id when the relay commits and publishes the next one. -/
def overtaken : List TaskStream.Label :=
  watchedTask ++ bothCalls ++ List.replicate 5 (.service (.advance 0)) ++
    List.replicate 8 (.service (.advance 1)) ++ List.replicate 5 (.service (.advance 0))

theorem cancellation_dropped :
    ¬ Throughout (TaskStream.step ⟨1, fun _ => true⟩) (InIdOrder "t") .init overtaken := by
  intro hall
  have hany : (run (TaskStream.step ⟨1, fun _ => true⟩) .init overtaken).any (fun s =>
      (s.clients 0).any fun client => client.taskId = "t" &&
        (s.service.db.eventsOf "t").any fun row =>
          row.id ≤ client.lastSentId && row.id ∉ eventIds client.received) = true := by decide
  obtain ⟨s, hrun, hs⟩ := (Option.any_eq_true _ _).mp hany
  obtain ⟨client, hclient, hc⟩ := (Option.any_eq_true _ _).mp hs
  obtain ⟨ht, hrows⟩ := Bool.and_eq_true_iff.mp hc
  obtain ⟨row, hrow, hlost⟩ := List.any_eq_true.mp hrows
  obtain ⟨hle, hnot⟩ := Bool.and_eq_true_iff.mp hlost
  exact of_decide_eq_true hnot ((hall.last hrun).nothingDropped 0 client hclient
    (of_decide_eq_true ht) row hrow (of_decide_eq_true hle))

/-- The relay publishes before the user cancels. -/
theorem in_id_order_of_sequence : Throughout (TaskStream.step ⟨1, fun _ => true⟩) (InIdOrder "t") .init
    (watchedTask ++ bothCalls ++ List.replicate 8 (.service (.advance 1)) ++
      List.replicate 10 (.service (.advance 0))) :=
  in_id_order_of_turns "t" (by decide)

end PublicationOrder
