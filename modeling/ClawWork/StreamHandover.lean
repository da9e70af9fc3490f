import ClawWork.PublicationOrder
import ClawWork.UpTo

/-!
# From the replay to the live events

One connection of the stream of a task, from its last event id on. The listener
hears live events from the start: those before the answer of the query are queued
and sorted in with it, those after it are sent as they come. An event that arrives
late, after the answer and below what the answer had, comes too late to be sent.
-/

namespace StreamHandover

open SharedTypes TaskStore TasksService PersistCalls TaskStream UpTo

variable {settings : Settings} {client : Client} {c : Nat} {events : List PersistedTaskEvent}
  {xs ys : List (Nat × Bool)}

/-- The id of an event, and whether it is terminal: the same for a replayed and a live copy, which may differ
in their signed URLs. -/
def mark (event : PersistedTaskEvent) : Nat × Bool := (event.id, event.event.isTerminal)

/-- A connection with a last event id. -/
def connectAfter (taskId : String) (lastEventId : Nat) : Client :=
  { Client.connect taskId [] with lastSentId := lastEventId }

/-- What a connection has sent after it has heard `before`, got the answer of the query and heard `after`. -/
def emitted (settings : Settings) (taskId : String) (lastEventId : Nat) (before : List PersistedTaskEvent)
    (rows : List TaskEvent) (after : List PersistedTaskEvent) : List PersistedTaskEvent :=
  let queued := before.foldl Client.hear (connectAfter taskId lastEventId)
  (after.foldl Client.hear (queued.answer settings rows)).received

/-- What a connection should send: the log after the last event id, up to its first terminal event. -/
def expected (log : List PersistedTaskEvent) (lastEventId : Nat) : List PersistedTaskEvent :=
  upTo (fun event => event.event.isTerminal) (log.filter fun event => lastEventId < event.id)

/-- Every event of the log after the last event id is replayed or heard, in whatever way the two overlap. -/
structure Overlap (log : List PersistedTaskEvent) (lastEventId : Nat)
    (replay before after : List PersistedTaskEvent) : Prop where
  increasing : log.Pairwise fun a b => a.id < b.id
  replayed : ∀ event ∈ replay, mark event ∈ log.map mark
  heard : ∀ event ∈ before ++ after, mark event ∈ log.map mark
  live : (before ++ after).Pairwise fun a b => a.id ≤ b.id
  covered : ∀ event ∈ log, lastEventId < event.id → mark event ∈ (replay ++ (before ++ after)).map mark

/-- What is to be sent and is heard only after the answer is above everything in the answer. -/
def LateAbove (log : List PersistedTaskEvent) (lastEventId : Nat)
    (replay before after : List PersistedTaskEvent) : Prop :=
  ∀ m ∈ after.map mark, m ∈ (expected log lastEventId).map mark → m ∉ (replay ++ before).map mark →
    ∀ event ∈ replay, event.id < m.1

/-! ## The filter on ids -/

/-- What goes through the filter after `c`, up to the first terminal mark. -/
def drain : Nat → List (Nat × Bool) → List (Nat × Bool)
  | _, [] => []
  | c, x :: xs => if x.1 ≤ c then drain c xs else x :: if x.2 then [] else drain x.1 xs

theorem mem_drain {x : Nat × Bool} (h : x ∈ drain c xs) : x ∈ xs ∧ c < x.1 := by
  induction xs generalizing c with
  | nil => cases h
  | cons y ys ih =>
    rw [drain] at h
    split at h
    · exact ⟨List.mem_cons_of_mem _ (ih h).1, (ih h).2⟩
    · rcases List.mem_cons.mp h with rfl | h
      · exact ⟨List.mem_cons_self, by omega⟩
      · split at h
        · cases h
        · obtain ⟨hmem, hlt⟩ := ih h
          exact ⟨List.mem_cons_of_mem _ hmem, by omega⟩

/-- Marks that are not above the filter do not matter. -/
theorem drain_filter {p : Nat × Bool → Bool} (h : ∀ x ∈ xs, p x = false → x.1 ≤ c) :
    drain c (xs.filter p) = drain c xs := by
  induction xs generalizing c with
  | nil => rfl
  | cons x xs ih =>
    have hrest : ∀ y ∈ xs, p y = false → y.1 ≤ c := fun y hy => h y (List.mem_cons_of_mem _ hy)
    cases hp : p x with
    | true =>
      rw [List.filter_cons_of_pos hp, drain, drain, ih hrest]
      split
      · rfl
      · rw [ih fun y hy hpy => Nat.le_of_lt (Nat.lt_of_le_of_lt (hrest y hy hpy) (by omega))]
    | false => rw [List.filter_cons_of_neg (by simp [hp]), drain, if_pos (h x List.mem_cons_self hp), ih hrest]

/-- Where the filter stands after some marks. -/
theorem drain_append (c : Nat) (xs : List (Nat × Bool)) :
    (∀ ys, drain c (xs ++ ys) = drain c xs) ∨
      ∃ m, c ≤ m ∧ (∀ x ∈ xs, x.1 ≤ m) ∧ (m = c ∨ m ∈ xs.map Prod.fst) ∧
        ∀ ys, drain c (xs ++ ys) = drain c xs ++ drain m ys := by
  induction xs generalizing c with
  | nil => exact .inr ⟨c, Nat.le_refl _, fun _ h => (by cases h), .inl rfl, fun _ => rfl⟩
  | cons x xs ih =>
    by_cases hx : x.1 ≤ c
    · simp only [List.cons_append, drain, if_pos hx]
      rcases ih c with hclosed | ⟨m, hcm, hall, hm, hdrain⟩
      · exact .inl hclosed
      · refine .inr ⟨m, hcm, fun y hy => ?_, hm.imp_right (List.mem_cons_of_mem _), hdrain⟩
        rcases List.mem_cons.mp hy with rfl | hy
        · omega
        · exact hall y hy
    · simp only [List.cons_append, drain, if_neg hx]
      by_cases hterminal : x.2 = true
      · simp only [if_pos hterminal]
        exact .inl fun _ => trivial
      · simp only [if_neg hterminal]
        rcases ih x.1 with hclosed | ⟨m, hcm, hall, hm, hdrain⟩
        · exact .inl fun ys => by rw [hclosed]
        · refine .inr ⟨m, by omega, fun y hy => ?_, .inr ?_, fun ys => by rw [hdrain]⟩
          · rcases List.mem_cons.mp hy with rfl | hy
            · exact hcm
            · exact hall y hy
          · rcases hm with rfl | hm
            · exact List.mem_cons_self
            · exact List.mem_cons_of_mem _ hm

/-- In a list of increasing marks, those above the smaller of two neighbours. -/
theorem filter_eq_cons {log : List (Nat × Bool)} (hlog : log.Pairwise fun a b => a.1 < b.1) {x : Nat × Bool}
    (hx : x ∈ log) (hc : c < x.1) (hnext : ∀ y ∈ log, c < y.1 → x.1 ≤ y.1) :
    (log.filter fun y => c < y.1) = x :: log.filter fun y => x.1 < y.1 := by
  induction log with
  | nil => cases hx
  | cons y log ih =>
    obtain ⟨hy, hlog⟩ := List.pairwise_cons.mp hlog
    have hrest : ∀ z ∈ log, c < z.1 → x.1 ≤ z.1 := fun z hz => hnext z (List.mem_cons_of_mem _ hz)
    rcases List.mem_cons.mp hx with rfl | hmem
    · rw [List.filter_cons_of_pos (by simpa using hc), List.filter_cons_of_neg (by simp)]
      congr 1
      apply List.filter_congr
      intro z hz
      have hlt := hy z hz
      rw [decide_eq_decide]
      omega
    · have hlt := hy x hmem
      have hlow : ¬ c < y.1 := fun hcy => by
        have hle := hnext y List.mem_cons_self hcy
        omega
      rw [List.filter_cons_of_neg (by simpa using hlow), List.filter_cons_of_neg (by simp; omega)]
      exact ih hlog hmem hrest

/-- Sorted marks that have all of what is to be sent let just that through. -/
theorem drain_eq_upTo {log : List (Nat × Bool)} (hlog : log.Pairwise fun a b => a.1 < b.1)
    (hsorted : xs.Pairwise fun a b => a.1 ≤ b.1) (hmem : ∀ x ∈ xs, x ∈ log)
    (hcovered : ∀ x ∈ upTo Prod.snd (log.filter fun x => c < x.1), x ∈ xs) :
    drain c xs = upTo Prod.snd (log.filter fun x => c < x.1) := by
  induction xs generalizing c with
  | nil =>
    symm
    rw [drain, List.eq_nil_iff_forall_not_mem]
    exact fun x hx => by cases hcovered x hx
  | cons x xs ih =>
    obtain ⟨hle, hsorted⟩ := List.pairwise_cons.mp hsorted
    have hrest : ∀ y ∈ xs, y ∈ log := fun y hy => hmem y (List.mem_cons_of_mem _ hy)
    rw [drain]
    split
    · rename_i hold
      refine ih hsorted hrest fun y hy => ?_
      have habove : c < y.1 := by
        have hfiltered := (isPrefix_upTo _ _).subset hy
        simpa using (List.mem_filter.mp hfiltered).2
      rcases List.mem_cons.mp (hcovered y hy) with rfl | hmem'
      · omega
      · exact hmem'
    · rename_i hnew
      have hcons : (log.filter fun y => c < y.1) = x :: log.filter fun y => x.1 < y.1 := by
        refine filter_eq_cons hlog (hmem x List.mem_cons_self) (by omega) ?_
        -- The first mark that is to be sent is among the sorted ones, so it is the first of them.
        intro y hy hcy
        have hfiltered : y ∈ log.filter fun y => c < y.1 := List.mem_filter.mpr ⟨hy, by simpa using hcy⟩
        obtain ⟨z, zs, hz⟩ := List.exists_cons_of_ne_nil (List.ne_nil_of_mem hfiltered)
        have hfirst : z ∈ upTo Prod.snd (log.filter fun y => c < y.1) := by
          rw [hz, upTo]
          split <;> exact List.mem_cons_self
        have hxz : x.1 ≤ z.1 := by
          rcases List.mem_cons.mp (hcovered z hfirst) with rfl | hzs
          · exact Nat.le_refl _
          · exact hle z hzs
        have hzy : z.1 ≤ y.1 := by
          have hpairwise := hlog.filter fun y => decide (c < y.1)
          rw [hz] at hfiltered hpairwise
          rcases List.mem_cons.mp hfiltered with rfl | hmem'
          · exact Nat.le_refl _
          · exact Nat.le_of_lt ((List.pairwise_cons.mp hpairwise).1 y hmem')
        omega
      rw [hcons, upTo] at hcovered ⊢
      split
      · rfl
      · rename_i hterminal
        rw [if_neg hterminal] at hcovered
        congr 1
        refine ih hsorted hrest fun y hy => ?_
        have habove : x.1 < y.1 := by
          have hfiltered := (isPrefix_upTo _ _).subset hy
          simpa using (List.mem_filter.mp hfiltered).2
        rcases List.mem_cons.mp (hcovered y (List.mem_cons_of_mem _ hy)) with rfl | hmem'
        · omega
        · exact hmem'

/-- Two sorted lists: what is to be sent and is only in the second one is above the first one. -/
theorem drain_append_eq_upTo {log : List (Nat × Bool)} (hlog : log.Pairwise fun a b => a.1 < b.1)
    (hxs : xs.Pairwise fun a b => a.1 ≤ b.1) (hys : ys.Pairwise fun a b => a.1 ≤ b.1)
    (hxlog : ∀ x ∈ xs, x ∈ log) (hylog : ∀ y ∈ ys, y ∈ log)
    (hcovered : ∀ m ∈ upTo Prod.snd (log.filter fun x => c < x.1),
      m ∈ xs ∨ m ∈ ys ∧ ∀ x ∈ xs, x.1 < m.1) :
    drain c (xs ++ ys) = upTo Prod.snd (log.filter fun x => c < x.1) := by
  have hsame : drain c (xs ++ ys) = drain c (xs ++ ys.filter fun y => xs.all fun x => x.1 < y.1) := by
    rcases drain_append c xs with hclosed | ⟨m, -, hall, -, hdrain⟩
    · rw [hclosed, hclosed]
    · rw [hdrain, hdrain, drain_filter]
      intro y _ hlow
      obtain ⟨x, hx, hle⟩ := List.all_eq_false.mp hlow
      have hxm := hall x hx
      simp only [decide_eq_true_eq, Nat.not_lt] at hle
      omega
  rw [hsame]
  refine drain_eq_upTo hlog (List.pairwise_append.mpr ⟨hxs, hys.filter _, fun x hx y hy => ?_⟩) ?_ ?_
  · have hlt := List.all_eq_true.mp (List.mem_filter.mp hy).2 x hx
    exact Nat.le_of_lt (of_decide_eq_true hlt)
  · intro y hy
    rcases List.mem_append.mp hy with hx | hy
    · exact hxlog y hx
    · exact hylog y (List.mem_filter.mp hy).1
  · intro m hm
    rcases hcovered m hm with hx | ⟨hy, habove⟩
    · exact List.mem_append_left _ hx
    · refine List.mem_append_right _ (List.mem_filter.mpr ⟨hy, List.all_eq_true.mpr fun x hx => ?_⟩)
      exact decide_eq_true (habove x hx)

/-! ## The connection -/

theorem emitAll_marks (client : Client) (events : List PersistedTaskEvent) :
    (events.foldl Client.emit client).received.map mark =
      client.received.map mark ++ if client.closed then [] else drain client.lastSentId (events.map mark) := by
  induction events generalizing client with
  | nil => simp [drain]
  | cons event events ih =>
    rw [List.foldl_cons, ih, List.map_cons, drain]
    by_cases hclosed : client.closed = true
    · simp [Client.emit, hclosed]
    · by_cases hold : event.id ≤ client.lastSentId
      · have hemit : client.emit event = client := by simp [Client.emit, hold]
        rw [hemit, if_pos (show (mark event).1 ≤ _ from hold)]
      · have hemit : client.emit event = { client with
            lastSentId := event.id
            received := client.received ++ [event]
            closed := event.event.isTerminal
            listening := client.listening && !event.event.isTerminal } := by
          rw [Client.emit, if_neg (by simp [hclosed, hold])]
        rw [hemit, if_neg hclosed, if_neg (show ¬ (mark event).1 ≤ _ from hold), List.map_append,
          List.append_assoc]
        rfl

/-- While the query is under way, events are queued. -/
theorem hearAll_replaying (h : client.replaying = true) (events : List PersistedTaskEvent) :
    events.foldl Client.hear client = { client with liveQueue := client.liveQueue ++ events } := by
  induction events generalizing client with
  | nil => simp
  | cons event events ih =>
    have hqueued : client.hear event = { client with liveQueue := client.liveQueue ++ [event] } := if_pos h
    have hreplaying : (client.hear event).replaying = true := by
      rw [hqueued]
      exact h
    rw [List.foldl_cons, ih hreplaying, hqueued]
    simp

theorem hearAll_live (h : client.replaying = false) (events : List PersistedTaskEvent) :
    events.foldl Client.hear client = events.foldl Client.emit client := by
  induction events generalizing client with
  | nil => rfl
  | cons event events ih =>
    have hemit : (client.emit event).replaying = false := by
      rw [Client.emit]
      split <;> exact h
    rw [List.foldl_cons, List.foldl_cons, Client.hear, if_neg (by simp [h]), ih hemit]

/-- What has been sent when the answer has been gone through. -/
def answered (taskId : String) (c : Nat) (replay before : List PersistedTaskEvent) : Client :=
  (sortById (replay ++ before)).foldl Client.emit { connectAfter taskId c with liveQueue := before }

theorem emitted_eq {taskId : String} {rows : List TaskEvent} {replay : List PersistedTaskEvent}
    (before after : List PersistedTaskEvent) (hread : rows.mapM (readRow settings) = some replay) :
    emitted settings taskId c before rows after =
      (after.foldl Client.emit { answered taskId c replay before with replaying := false }).received := by
  have hqueued : before.foldl Client.hear (connectAfter taskId c) =
      { connectAfter taskId c with liveQueue := before } := hearAll_replaying rfl before
  rw [emitted, hqueued, Client.answer, hread, hearAll_live rfl]
  rfl

/-- What is sent, as marks. -/
theorem emitted_marks {taskId : String} {rows : List TaskEvent} {replay before after : List PersistedTaskEvent}
    (hread : rows.mapM (readRow settings) = some replay) :
    (emitted settings taskId c before rows after).map mark =
      drain c ((sortById (replay ++ before)).map mark ++ after.map mark) := by
  have hlive := emitAll_marks (answered taskId c replay before) after
  rw [answered, ← List.foldl_append, emitAll_marks, List.map_append] at hlive
  rw [emitted_eq before after hread, emitAll_marks]
  exact hlive.symm

/-- What is sent was replayed or heard. -/
theorem emitted_sound {taskId : String} {rows : List TaskEvent} {replay before after : List PersistedTaskEvent}
    (hread : rows.mapM (readRow settings) = some replay) :
    ∀ event ∈ emitted settings taskId c before rows after, event ∈ replay ++ (before ++ after) := by
  intro event hevent
  rw [emitted_eq before after hread] at hevent
  rw [← List.append_assoc]
  rcases emitAll_sound _ after event hevent with hfirst | hafter
  · rcases emitAll_sound _ (sortById (replay ++ before)) event hfirst with hnone | hsorted
    · cases hnone
    · exact List.mem_append_left _ (PublicationOrder.mem_sortById.mp hsorted)
  · exact List.mem_append_right _ hafter

theorem expected_marks (log : List PersistedTaskEvent) (c : Nat) :
    (expected log c).map mark = upTo Prod.snd ((log.map mark).filter fun m => c < m.1) := by
  rw [List.filter_map, upTo_map]
  rfl

variable {log replay before after : List PersistedTaskEvent}

theorem Overlap.pairwise (h : Overlap log c replay before after) : (log.map mark).Pairwise fun a b => a.1 < b.1 :=
  List.pairwise_map.mpr h.increasing

/-- A mark of the log is known by its id. -/
theorem Overlap.eq_of_id (h : Overlap log c replay before after) {x y : Nat × Bool} (hx : x ∈ log.map mark)
    (hy : y ∈ log.map mark) (hid : x.1 = y.1) : x = y := by
  have hnodup : ((log.map mark).map Prod.fst).Nodup :=
    List.pairwise_map.mpr (h.pairwise.imp fun hlt => Nat.ne_of_lt hlt)
  exact List.inj_on_of_nodup_map hnodup hx hy hid

theorem mem_sorted {m : Nat × Bool} (replay before : List PersistedTaskEvent) :
    m ∈ (sortById (replay ++ before)).map mark ↔ m ∈ (replay ++ before).map mark := by
  simp only [List.mem_map, PublicationOrder.mem_sortById]

theorem Overlap.covers (h : Overlap log c replay before after) {m : Nat × Bool}
    (hm : m ∈ (expected log c).map mark) : c < m.1 ∧ m ∈ (replay ++ (before ++ after)).map mark := by
  rw [expected_marks] at hm
  obtain ⟨hlog, habove⟩ := List.mem_filter.mp ((isPrefix_upTo _ _).subset hm)
  obtain ⟨event, hevent, rfl⟩ := List.mem_map.mp hlog
  have hlt : c < event.id := of_decide_eq_true habove
  exact ⟨hlt, h.covered event hevent hlt⟩

theorem Overlap.first_mem (h : Overlap log c replay before after) {m : Nat × Bool}
    (hm : m ∈ (sortById (replay ++ before)).map mark) : m ∈ log.map mark := by
  obtain ⟨event, hevent, rfl⟩ := List.mem_map.mp ((mem_sorted _ _).mp hm)
  rcases List.mem_append.mp hevent with hreplay | hbefore
  · exact h.replayed event hreplay
  · exact h.heard event (List.mem_append_left _ hbefore)

theorem Overlap.after_mem (h : Overlap log c replay before after) {m : Nat × Bool} (hm : m ∈ after.map mark) :
    m ∈ log.map mark := by
  obtain ⟨event, hevent, rfl⟩ := List.mem_map.mp hm
  exact h.heard event (List.mem_append_right _ hevent)

/-- What is to be sent and has not come before the answer comes after it, and above the queue. -/
theorem Overlap.late (h : Overlap log c replay before after) {m : Nat × Bool} (hm : m ∈ (expected log c).map mark)
    (hnew : m ∉ (replay ++ before).map mark) : m ∈ after.map mark ∧ ∀ event ∈ before, event.id < m.1 := by
  have hmem : m ∈ after.map mark := by
    have hall := (h.covers hm).2
    rw [← List.append_assoc, List.map_append] at hall
    exact (List.mem_append.mp hall).resolve_left hnew
  refine ⟨hmem, fun event hevent => ?_⟩
  obtain ⟨late, hlate, rfl⟩ := List.mem_map.mp hmem
  have hle : event.id ≤ late.id := (List.pairwise_append.mp h.live).2.2 event hevent late hlate
  refine Nat.lt_of_le_of_ne hle fun heq => hnew ?_
  have hqueued : mark event ∈ (replay ++ before).map mark :=
    List.mem_map_of_mem (List.mem_append_right _ hevent)
  rw [← h.eq_of_id (h.first_mem ((mem_sorted _ _).mpr hqueued)) (h.after_mem hmem) heq]
  exact hqueued

/-- Late events above the answer are sent in their places. -/
theorem drain_of_lateAbove (h : Overlap log c replay before after) (hlate : LateAbove log c replay before after) :
    drain c ((sortById (replay ++ before)).map mark ++ after.map mark) = (expected log c).map mark := by
  rw [expected_marks]
  refine drain_append_eq_upTo h.pairwise (List.pairwise_map.mpr (PublicationOrder.sorted_sortById _))
    (List.pairwise_map.mpr (List.pairwise_append.mp h.live).2.1) (fun _ => h.first_mem) (fun _ => h.after_mem) ?_
  intro m hm
  rw [← expected_marks] at hm
  by_cases hnew : m ∈ (replay ++ before).map mark
  · exact .inl ((mem_sorted _ _).mpr hnew)
  · obtain ⟨hmem, hqueue⟩ := h.late hm hnew
    refine .inr ⟨hmem, fun x hx => ?_⟩
    obtain ⟨event, hevent, rfl⟩ := List.mem_map.mp ((mem_sorted _ _).mp hx)
    rcases List.mem_append.mp hevent with hreplay | hbefore
    · exact hlate m hmem hm hnew event hreplay
    · exact hqueue event hbefore

/-- An event below the answer that comes after it is not sent. -/
theorem lateAbove_of_drain
    (hdrain : drain c ((sortById (replay ++ before)).map mark ++ after.map mark) = (expected log c).map mark) :
    LateAbove log c replay before after := by
  intro m hmem hm hnew event hreplay
  have hsent := hm
  rw [← hdrain] at hsent
  have hanswered : mark event ∈ (sortById (replay ++ before)).map mark :=
    (mem_sorted _ _).mpr (List.mem_map_of_mem (List.mem_append_left _ hreplay))
  have hunsorted : m ∉ (sortById (replay ++ before)).map mark := fun hin => hnew ((mem_sorted _ _).mp hin)
  rcases drain_append c ((sortById (replay ++ before)).map mark) with hclosed | ⟨n, -, hall, -, hopen⟩
  · rw [hclosed] at hsent
    exact absurd (mem_drain hsent).1 hunsorted
  · rw [hopen] at hsent
    rcases List.mem_append.mp hsent with hfirst | hlast
    · exact absurd (mem_drain hfirst).1 hunsorted
    · exact Nat.lt_of_le_of_lt (hall _ hanswered) (mem_drain hlast).2

/-- Where every late event is above the answer, and only there, a connection sends the events of the log after
the last event id in their order, each once, up to the first terminal one and nothing after it. -/
theorem handover_iff_lateAbove (settings : Settings) (taskId : String) (lastEventId : Nat) (rows : List TaskEvent)
    (hread : rows.mapM (readRow settings) = some replay) (h : Overlap log lastEventId replay before after) :
    ((emitted settings taskId lastEventId before rows after).map mark = (expected log lastEventId).map mark ↔
      LateAbove log lastEventId replay before after) ∧
      ∀ event ∈ emitted settings taskId lastEventId before rows after, event ∈ replay ++ (before ++ after) := by
  refine ⟨?_, emitted_sound hread⟩
  rw [emitted_marks hread]
  exact ⟨lateAbove_of_drain, drain_of_lateAbove h⟩

def deltaEvent (id : Nat) : PersistedTaskEvent := ⟨id, .delta "hello", "t", "s", "r", "2026-01-01"⟩

def cancelledEvent (id : Nat) : PersistedTaskEvent := ⟨id, .cancelled "task cancelled by user", "t", "s", "r",
    "2026-01-01"⟩

def rowOf (event : PersistedTaskEvent) : TaskEvent := eventRow event.event none event.id

/-- The replay has the first two events, and the second one comes again with the third. -/
theorem handover_of_overlap :
    (emitted ⟨1, fun _ => true⟩ "t" 0 [deltaEvent 2] [rowOf (deltaEvent 1), rowOf (deltaEvent 2)]
      [cancelledEvent 3]).map mark = [(1, false), (2, false), (3, true)] := by
  have hoverlap : Overlap [deltaEvent 1, deltaEvent 2, cancelledEvent 3] 0 [deltaEvent 1, deltaEvent 2]
      [deltaEvent 2] [cancelledEvent 3] := ⟨by decide, by decide, by decide, by decide, by decide⟩
  have hlate : LateAbove [deltaEvent 1, deltaEvent 2, cancelledEvent 3] 0 [deltaEvent 1, deltaEvent 2]
      [deltaEvent 2] [cancelledEvent 3] := by
    unfold LateAbove
    decide
  exact (handover_iff_lateAbove ⟨1, fun _ => true⟩ "t" 0 [rowOf (deltaEvent 1), rowOf (deltaEvent 2)] rfl
    hoverlap).1.mpr hlate

/-- The cancellation has drawn its id before the event that is replayed, and is published after the replay. -/
theorem cancellation_skipped :
    Overlap [cancelledEvent 1, deltaEvent 2] 0 [deltaEvent 2] [] [cancelledEvent 1] ∧
      (emitted ⟨1, fun _ => true⟩ "t" 0 [] [rowOf (deltaEvent 2)] [cancelledEvent 1]).map mark = [(2, false)] ∧
      (expected [cancelledEvent 1, deltaEvent 2] 0).map mark = [(1, true)] :=
  ⟨⟨by decide, by decide, by decide, by decide, by decide⟩, by decide, by decide⟩

end StreamHandover
