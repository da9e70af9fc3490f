import ClawWork.HistoryPaging
import ClawWork.RecentConversations

/-!
# Scrolling through a changing history

The history screen loads one page after the other while conversations are started, changed and
deleted. Whatever is touched comes to the top, above every cursor. So what no page has listed
yet is still below the cursor, and what two pages list is the same task.
-/

namespace HistoryScreen

open JavaScript SharedTypes TaskStore TasksService ServiceTables ServiceStore Isolation HistoryPaging KeysetPaging
  RecentConversations Transition
open ServiceCalls (ServiceSettings Request Reply HistoryQuery HistoryItem HistoryPage historyItem byCreationDesc
  inHistory decodeHistoryCursor encodeHistoryCursor)

/-! ## The screen and the server -/

inductive Phase where
  | sent
  | answered (answer : Except Failure HistoryPage)
  | arrived
  | failed

/-- A request for a page. -/
structure Load where
  /-- Its cursor; that of the effect has none. -/
  cursor : Option String
  phase : Phase

structure System where
  /-- The tables, as the server reads them. -/
  db : Store
  clock : Nat
  /-- When the first page was read. -/
  opened : Option Nat
  loads : OrderedMap Nat Load
  store : StoreState
  nextCursor : Option String
  loading : Bool
  loadingMore : Bool
  error : Option String
  /-- `nextCursor` and `loadingMore`, as the last render has seen them. -/
  rendered : Option String × Bool

/-- The screen is mounted, and its effect has asked for the first page. -/
def System.mount (db : Store) (clock : Nat) (store : StoreState) : System where
  db
  clock
  opened := none
  loads := OrderedMap.empty.set 0 ⟨none, .sent⟩
  store
  nextCursor := none
  loading := true
  loadingMore := false
  error := none
  rendered := (none, false)

inductive Label where
  /-- The tables change. -/
  | change (db : Store) (now : Nat)
  | render
  /-- `loadMore` -/
  | press (i : Nat)
  /-- The server reads the page. -/
  | serve (i : Nat)
  | arrive (i : Nat)
  /-- The request fails, with the message of its error. -/
  | fail (i : Nat) (message : Option String)
  /-- `openConversation` or `removeConversation` begins. -/
  | begin
  /-- The server has deleted the conversation of a task. -/
  | removed (taskId : String)
  /-- One of the two fails. -/
  | refused (message : String)

/-- The task that stands for a session in the history. -/
def lastTask (db : Store) (sessionId : String) : Option String :=
  (byCreationDesc (db.sessionTasks sessionId)).head?.map fun task => task.id

/-- What the tables keep for a user: the ids are keys, and a session has a task. -/
structure Sound (userId : String) (now : Nat) (db : Store) : Prop where
  ids : ((db.sessionsOf userId).map fun row => row.id).Nodup
  named : ∀ row ∈ db.sessionsOf userId, row.id ≠ ""
  keys : ∀ task ∈ db.tasks.values, db.tasks.get task.id = some task
  tasks : ∀ row ∈ db.sessionsOf userId, (lastTask db row.id).isSome
  clock : ∀ row ∈ db.sessionsOf userId, row.updatedAt ≤ now

instance (userId : String) (now : Nat) (db : Store) : Decidable (Sound userId now db) :=
  decidable_of_iff
    (((db.sessionsOf userId).map fun row => row.id).Nodup ∧ (∀ row ∈ db.sessionsOf userId, row.id ≠ "") ∧
      (∀ task ∈ db.tasks.values, db.tasks.get task.id = some task) ∧
      (∀ row ∈ db.sessionsOf userId, (lastTask db row.id).isSome) ∧
      ∀ row ∈ db.sessionsOf userId, row.updatedAt ≤ now)
    ⟨fun ⟨h₁, h₂, h₃, h₄, h₅⟩ => ⟨h₁, h₂, h₃, h₄, h₅⟩, fun ⟨h₁, h₂, h₃, h₄, h₅⟩ => ⟨h₁, h₂, h₃, h₄, h₅⟩⟩

def everything : HistoryQuery := ⟨none, none, none, none⟩

def statusLabel : TaskStatus → String
  | .completed => "已完成"
  | .failed => "失败"
  | .cancelled => "已取消"
  | _ => "处理中"

section Step

variable (settings : ServiceSettings) (env : Nat → (r : Request) → Reply r) (userId : String)
  (toLocaleString : String → String)

/-- The answer of the server to `listHistory` of the app. -/
def answer (cursor : Option String) (db : Store) : Except Failure HistoryPage :=
  ((ServiceCalls.listHistory settings userId { everything with cursor }).run env 0 db).1

def toRecent (item : HistoryItem) : RecentConversation where
  id := item.taskId
  sessionId := some item.sessionId
  title := item.title
  subtitle := toLocaleString item.updatedAt
  status := statusLabel item.status
  prompt := item.prompt

/-- A page arrives: the first one replaces the list, the others are appended. -/
def System.receive (s : System) (cursor : Option String) (page : HistoryPage) : System :=
  let items := page.items.map (toRecent toLocaleString)
  match cursor with
  | none => { s with
      store := s.store.hydrateRecentConversations items, nextCursor := page.nextCursor, loading := false }
  | some _ => { s with
      store := s.store.appendRecentConversations items, nextCursor := page.nextCursor, loadingMore := false }

def System.failLoad (s : System) (cursor : Option String) (message : Option String) : System :=
  match cursor with
  | none => { s with error := some (message.getD "历史加载失败"), loading := false }
  | some _ => { s with error := some (message.getD "更多历史加载失败"), loadingMore := false }

def step (s : System) : Label → Option System
  | .change db now =>
    if s.clock ≤ now ∧ Sound userId now db then some { s with db, clock := now } else none
  | .render => some { s with rendered := (s.nextCursor, s.loadingMore) }
  | .press i =>
    match truthy s.rendered.1, s.rendered.2, s.loads.get i with
    | some cursor, false, none =>
      some { s with loads := s.loads.set i ⟨some cursor, .sent⟩, loadingMore := true, error := none }
    | _, _, _ => none
  | .serve i =>
    match s.loads.get i with
    | some ⟨cursor, .sent⟩ =>
      some { s with
        loads := s.loads.set i ⟨cursor, .answered (answer settings env userId cursor s.db)⟩
        opened := if cursor = none then some s.clock else s.opened }
    | _ => none
  | .arrive i =>
    match s.loads.get i with
    | some ⟨cursor, .answered (.ok page)⟩ =>
      some ({ s with loads := s.loads.set i ⟨cursor, .arrived⟩ }.receive toLocaleString cursor page)
    | _ => none
  | .fail i message =>
    match s.loads.get i with
    | some ⟨cursor, .sent⟩ | some ⟨cursor, .answered _⟩ =>
      some ({ s with loads := s.loads.set i ⟨cursor, .failed⟩ }.failLoad cursor message)
    | _ => none
  | .begin => some { s with error := none }
  | .removed taskId =>
    if ∀ row ∈ s.db.sessionsOf userId, lastTask s.db row.id ≠ some taskId then
      some { s with store := s.store.removeRecentConversation taskId }
    else none
  | .refused message => some { s with error := some message }

end Step

variable {settings : ServiceSettings} {env : Nat → (r : Request) → Reply r} {userId : String}
  {toLocaleString : String → String} {rows : List SessionRow} {row : SessionRow} {s s' : System}
  {db db₀ : Store} {t : Nat} {text : String} {page : HistoryPage}

/-! ## The tables -/

theorem task_of_lastTask {sessionId taskId : String} (h : lastTask db sessionId = some taskId) :
    ∃ task ∈ db.tasks.values, task.id = taskId ∧ task.sessionId = sessionId := by
  obtain ⟨task, hhead, rfl⟩ := Option.map_eq_some_iff.mp h
  have hmem : task ∈ db.sessionTasks sessionId :=
    (List.perm_insertionSort _ _).mem_iff.mp (List.mem_of_mem_head? hhead)
  obtain ⟨hvalue, hsession⟩ := List.mem_filter.mp hmem
  exact ⟨task, hvalue, rfl, of_decide_eq_true hsession⟩

/-- A task is the last one of no more than one session. -/
theorem Sound.session_unique {now : Nat} (h : Sound userId now db) {a b taskId : String}
    (ha : lastTask db a = some taskId) (hb : lastTask db b = some taskId) : a = b := by
  obtain ⟨task, htask, hid, rfl⟩ := task_of_lastTask ha
  obtain ⟨task', htask', hid', rfl⟩ := task_of_lastTask hb
  have heq : some task = some task' := by rw [← h.keys task htask, ← h.keys task' htask', hid, hid']
  rw [Option.some.inj heq]

theorem Sound.row_unique {now : Nat} (h : Sound userId now db) {a b : SessionRow} (ha : a ∈ db.sessionsOf userId)
    (hb : b ∈ db.sessionsOf userId) (hid : a.id = b.id) : a = b :=
  List.inj_on_of_nodup_map h.ids ha hb hid

theorem itemOf_eq (db : Store) (row : SessionRow) :
    (itemOf db row).map (fun item => (item.taskId, item.sessionId)) =
      (lastTask db row.id).map fun taskId => (taskId, row.id) := by
  unfold itemOf lastTask
  cases (byCreationDesc (db.sessionTasks row.id)).head? <;> rfl

/-! ## Cursors -/

/-- A request with this cursor lists the session. -/
def lists (settings : ServiceSettings) (cursor : Option String) (row : SessionRow) : Bool :=
  (decodeHistoryCursor settings cursor).any fun start => inHistory settings everything start row

/-- There is a button for more, and it lists the session. -/
def more (settings : ServiceSettings) (next : Option String) (row : SessionRow) : Bool :=
  next.any fun text => lists settings (some text) row

/-- The text is the cursor of a session that was there when the first page was read. -/
def IsCursor (settings : ServiceSettings) (rows : List SessionRow) (t : Nat) (text : String) : Prop :=
  ∃ row ∈ rows, row.id ≠ "" ∧ row.updatedAt ≤ t ∧ text = encodeHistoryCursor settings row

theorem inHistory_everything (start : Option SessionRow) (row : SessionRow) :
    inHistory settings everything (start.map fun row => (row.updatedAt, row.id)) row =
      start.all fun a => decide (Comes settings a row) := by
  cases start with
  | none => rfl
  | some a =>
    rw [Option.all_some, Bool.eq_iff_iff, decide_eq_true_iff]
    simp [inHistory, everything, truthy, Comes]

theorem decode_cursor (hcodec : Codec settings rows) (h : row ∈ rows) (hid : row.id ≠ "") :
    decodeHistoryCursor settings (some (encodeHistoryCursor settings row)) =
      some ((some row).map fun row => (row.updatedAt, row.id)) :=
  decodeHistoryCursor_encode hcodec h hid

theorem lists_encode (hcodec : Codec settings rows) {a : SessionRow} (h : a ∈ rows) (hid : a.id ≠ "")
    (row : SessionRow) :
    lists settings (some (encodeHistoryCursor settings a)) row = decide (Comes settings a row) := by
  rw [lists, decode_cursor hcodec h hid, Option.any_some, inHistory_everything]
  rfl

/-! ## Pages -/

/-- The sessions that are there since time `t` were there then, with the same task. -/
def Kept (userId : String) (t : Nat) (db₀ db : Store) : Prop :=
  ∀ row ∈ db.sessionsOf userId, row.updatedAt ≤ t →
    row ∈ db₀.sessionsOf userId ∧ lastTask db row.id = lastTask db₀ row.id

/-- A page for a cursor, seen with the tables `db`: `db₀` were the tables when the first page was read. -/
structure IsPage (settings : ServiceSettings) (userId : String) (rows : List SessionRow) (t : Nat) (db₀ db : Store)
    (cursor : Option String) (page : HistoryPage) : Prop where
  ids : (page.items.map fun item => item.taskId).Nodup
  genuine : ∀ item ∈ page.items, ∃ row ∈ db₀.sessionsOf userId,
    item.sessionId = row.id ∧ lastTask db₀ row.id = some item.taskId
  next : ∀ text, page.nextCursor = some text → IsCursor settings rows t text
  listed : ∀ row ∈ db.sessionsOf userId, row.updatedAt ≤ t → lists settings cursor row = true →
    more settings page.nextCursor row = false →
      ∃ item ∈ page.items, item.sessionId = row.id ∧ lastTask db row.id = some item.taskId

/-- The tables change, and the sessions that are still there have kept their tasks. -/
theorem IsPage.mono {cursor : Option String} (h : IsPage settings userId rows t db₀ db cursor page) {db' : Store}
    (hkept : Kept userId t db db') : IsPage settings userId rows t db₀ db' cursor page where
  ids := h.ids
  genuine := h.genuine
  next := h.next
  listed := by
    intro row hrow ht hlists hmore
    obtain ⟨hold, htask⟩ := hkept row hrow ht
    rw [htask]
    exact h.listed row hold ht hlists hmore

theorem mem_matching : row ∈ matching settings db userId everything ↔ row ∈ db.sessionsOf userId := by
  rw [matching, ServiceCalls.byUpdateDesc, (List.perm_insertionSort _ _).mem_iff, List.mem_filter]
  exact and_iff_left rfl

theorem mem_after {start : Option SessionRow} :
    row ∈ after (Comes settings) (matching settings db userId everything) start ↔
      row ∈ db.sessionsOf userId ∧ ∀ a ∈ start, Comes settings a row := by
  cases start with
  | none => simp [after, mem_matching]
  | some a => simp [after, mem_matching]

theorem answer_eq {now : Nat} (horder : TextOrder settings.textLt) (hsound : Sound userId now db)
    {cursor : Option String} {start : Option SessionRow}
    (hdecode : decodeHistoryCursor settings cursor = some (start.map fun row => (row.updatedAt, row.id))) :
    answer settings env userId cursor db =
      .ok (pageOf settings db 20 (after (Comes settings) (matching settings db userId everything) start)) := by
  have hreturns : Returns env db (ServiceCalls.listHistory settings userId { everything with cursor }) fun page =>
      page = pageOf settings db (everything.limit.getD 20)
        (after (Comes settings) (matching settings db userId everything) start) :=
    listHistory_returns env horder hsound.ids hdecode
  obtain ⟨page, hrun, rfl⟩ := hreturns 0
  rw [answer, hrun]
  rfl

theorem mem_items_pageOf {limit : Nat} {item : HistoryItem} {listed : List SessionRow} :
    item ∈ (pageOf settings db limit listed).items ↔ ∃ row ∈ listed.take limit, itemOf db row = some item := by
  simp [pageOf, List.mem_flatMap]

theorem ids_pageOf {limit : Nat} (listed : List SessionRow) :
    (pageOf settings db limit listed).items.map (fun item => item.taskId) =
      (listed.take limit).filterMap fun row => lastTask db row.id := by
  unfold pageOf
  dsimp only
  induction listed.take limit with
  | nil => rfl
  | cons row rest ih =>
    have hitem := congrArg (Option.map Prod.fst) (itemOf_eq db row)
    rw [List.flatMap_cons, List.map_append, ih, List.filterMap_cons]
    cases hrow : itemOf db row <;> cases htask : lastTask db row.id <;> simp_all

theorem item_of_itemOf {item : HistoryItem} (h : itemOf db row = some item) :
    item.sessionId = row.id ∧ lastTask db row.id = some item.taskId := by
  have heq := itemOf_eq db row
  rw [h] at heq
  cases htask : lastTask db row.id with
  | none =>
    rw [htask] at heq
    cases heq
  | some taskId =>
    rw [htask] at heq
    obtain ⟨htaskId, hsession⟩ := Prod.mk.inj (Option.some.inj heq)
    exact ⟨hsession, by rw [htaskId]⟩

theorem exists_itemOf {taskId : String} (h : lastTask db row.id = some taskId) : ∃ item, itemOf db row = some item := by
  have heq := itemOf_eq db row
  rw [h] at heq
  cases hitem : itemOf db row with
  | none =>
    rw [hitem] at heq
    cases heq
  | some item => exact ⟨item, rfl⟩

/-- What the server answers to a cursor is a page. -/
theorem isPage_answer {now : Nat} (horder : TextOrder settings.textLt) (hcodec : Codec settings rows)
    (hsound : Sound userId now db) (hknown : ∀ row ∈ db.sessionsOf userId, row ∈ rows)
    (hkept : Kept userId t db₀ db) {cursor : Option String} {start : Option SessionRow}
    (hdecode : decodeHistoryCursor settings cursor = some (start.map fun row => (row.updatedAt, row.id)))
    (hold : ∀ row ∈ db.sessionsOf userId, (∀ a ∈ start, Comes settings a row) → row.updatedAt ≤ t)
    (hpage : answer settings env userId cursor db = .ok page) :
    IsPage settings userId rows t db₀ db cursor page := by
  rw [answer_eq horder hsound hdecode, Except.ok.injEq] at hpage
  subst hpage
  have hids := hsound.ids.sublist (List.filter_sublist (p := inHistory settings everything none) |>.map _)
  have hsorted : (after (Comes settings) (matching settings db userId everything) start).Pairwise
      (Comes settings) := by
    have hall := pairwise_byUpdateDesc horder hids
    cases start with
    | none => exact hall
    | some a => exact hall.filter _
  have hmem : ∀ row ∈ (after (Comes settings) (matching settings db userId everything) start).take 20,
      row ∈ db.sessionsOf userId ∧ row.updatedAt ≤ t := by
    intro row hrow
    obtain ⟨hrow, hafter⟩ := mem_after.mp (List.mem_of_mem_take hrow)
    exact ⟨hrow, hold row hrow hafter⟩
  generalize hlisted : after (Comes settings) (matching settings db userId everything) start = listed at *
  refine ⟨?_, fun item hitem => ?_, fun text htext => ?_, fun row hrow ht hlists hmore => ?_⟩
  · rw [ids_pageOf, List.Nodup, List.pairwise_filterMap]
    refine (hsorted.sublist (List.take_sublist _ _)).imp_of_mem fun {a b} ha hb hcomes taskId htask taskId' htask' => ?_
    rintro rfl
    have hsame : a = b := hsound.row_unique (hmem a ha).1 (hmem b hb).1 (hsound.session_unique htask htask')
    subst hsame
    exact comes_asymm horder a a hcomes hcomes
  · obtain ⟨row, hrow, hitem⟩ := mem_items_pageOf.mp hitem
    obtain ⟨hsession, htask⟩ := item_of_itemOf hitem
    obtain ⟨hrow₀, hsame⟩ := hkept row (hmem row hrow).1 (hmem row hrow).2
    exact ⟨row, hrow₀, hsession, hsame ▸ htask⟩
  · simp only [pageOf] at htext
    split at htext
    · obtain ⟨row, hlast, rfl⟩ := Option.map_eq_some_iff.mp htext
      have hrow := hmem row (List.mem_of_getLast? hlast)
      exact ⟨row, hknown row hrow.1, hsound.named row hrow.1, hrow.2, rfl⟩
    · cases htext
  · have hrowListed : row ∈ listed := by
      rw [← hlisted, mem_after]
      refine ⟨hrow, fun a ha => ?_⟩
      rw [lists, hdecode, Option.any_some, inHistory_everything, Option.mem_def.mp ha] at hlists
      exact of_decide_eq_true hlists
    rcases mem_take_or_before hsorted (by decide : 1 ≤ 20) hrowListed with htake | ⟨hlength, a, hlast, hbefore⟩
    · obtain ⟨taskId, htask⟩ := Option.isSome_iff_exists.mp (hsound.tasks row hrow)
      obtain ⟨item, hitem⟩ := exists_itemOf htask
      obtain ⟨hsession, htask'⟩ := item_of_itemOf hitem
      exact ⟨item, mem_items_pageOf.mpr ⟨row, htake, hitem⟩, hsession, htask'⟩
    · have ha := hmem a (List.mem_of_getLast? hlast)
      have hnext : (pageOf settings db 20 listed).nextCursor = some (encodeHistoryCursor settings a) := by
        rw [pageOf]
        simp only [if_pos hlength, hlast, Option.map_some]
      rw [hnext, more, Option.any_some, lists_encode hcodec (hknown a ha.1) (hsound.named a ha.1),
        decide_eq_false_iff_not] at hmore
      exact absurd hbefore hmore

/-! ## The invariant -/

def Shown (s : System) (row : SessionRow) : Prop :=
  ∃ item ∈ s.store.recentConversations, item.sessionId = some row.id ∧ lastTask s.db row.id = some item.id

/-- What a button with this cursor does not list is shown. -/
def Covers (settings : ServiceSettings) (userId : String) (t : Nat) (s : System) (next : Option String) : Prop :=
  ∀ row ∈ s.db.sessionsOf userId, row.updatedAt ≤ t → more settings next row = false → Shown s row

/-- The text is in use as a cursor. -/
def Live (s : System) (text : String) : Prop :=
  s.nextCursor = some text ∨ s.rendered.1 = some text ∨
    ∃ i load, s.loads.get i = some load ∧ load.cursor = some text

/-- The first page has arrived. -/
def Arrived (s : System) : Prop := s.loads.get 0 = some ⟨none, .arrived⟩

/-- The entries are sessions of the first tables, none of them twice. -/
structure Entries (userId : String) (db₀ : Store) (items : List RecentConversation) : Prop where
  ids : (items.map fun item => item.id).Nodup
  genuine : ∀ item ∈ items, ∃ row ∈ db₀.sessionsOf userId,
    item.sessionId = some row.id ∧ lastTask db₀ row.id = some item.id

/-- What holds after the first page was read, from the tables `db₀` at time `t`. -/
structure Opened (settings : ServiceSettings) (userId : String) (rows : List SessionRow) (t : Nat) (db₀ : Store)
    (s : System) : Prop where
  first : Sound userId t db₀
  kept : Kept userId t db₀ s.db
  live : ∀ text, Live s text → IsCursor settings rows t text ∧ Covers settings userId t s (some text)
  pages : ∀ i cursor page, s.loads.get i = some ⟨cursor, .answered (.ok page)⟩ →
    IsPage settings userId rows t db₀ s.db cursor page
  entries : Arrived s → Entries userId db₀ s.store.recentConversations
  covers : Arrived s → Covers settings userId t s s.nextCursor
  idle : ¬ Arrived s → ∀ text, ¬ Live s text
  served : ∀ i, s.loads.get i ≠ some ⟨none, .sent⟩

structure Inv (settings : ServiceSettings) (userId : String) (rows : List SessionRow) (s : System) : Prop where
  sound : Sound userId s.clock s.db
  known : ∀ row ∈ s.db.sessionsOf userId, row ∈ rows
  mount : ∀ i load, s.loads.get i = some load → load.cursor = none → i = 0
  unopened : s.opened = none → (∀ text, ¬ Live s text) ∧
    ∀ i load, s.loads.get i = some load → load.phase = .sent ∨ load.phase = .failed
  opened : ∀ t, s.opened = some t → ∃ db₀, Opened settings userId rows t db₀ s

theorem Covers.mono {next : Option String} (h : Covers settings userId t s next) (hkept : Kept userId t s.db s'.db)
    (hshown : ∀ row ∈ s'.db.sessionsOf userId, row.updatedAt ≤ t → Shown s row → Shown s' row) :
    Covers settings userId t s' next :=
  fun row hrow ht hmore => hshown row hrow ht (h row (hkept row hrow ht).1 ht hmore)

theorem kept_refl (userId : String) (t : Nat) (db : Store) : Kept userId t db db := fun _ hrow _ => ⟨hrow, rfl⟩

theorem Kept.trans {db' : Store} (h : Kept userId t db₀ db) (h' : Kept userId t db db') : Kept userId t db₀ db' := by
  intro row hrow ht
  obtain ⟨hmid, htask⟩ := h' row hrow ht
  obtain ⟨hfirst, htask'⟩ := h row hmid ht
  exact ⟨hfirst, htask.trans htask'⟩

theorem inv_mount {clock : Nat} (hsound : Sound userId clock db) (hknown : ∀ row ∈ db.sessionsOf userId, row ∈ rows)
    (store : StoreState) : Inv settings userId rows (.mount db clock store) where
  sound := hsound
  known := hknown
  mount := by
    intro i load hget _
    by_contra hi
    rw [System.mount, OrderedMap.get_set_other _ _ hi] at hget
    cases hget
  unopened := by
    have hloads : ∀ i load, (System.mount db clock store).loads.get i = some load → load = ⟨none, .sent⟩ := by
      intro i load hget
      rw [System.mount, OrderedMap.get_set] at hget
      split at hget <;> cases hget
      rfl
    refine fun _ => ⟨fun text hlive => ?_, fun i load hget => .inl (by rw [hloads i load hget])⟩
    rcases hlive with h | h | ⟨i, load, hget, hcursor⟩
    · cases h
    · cases h
    · rw [hloads i load hget] at hcursor
      cases hcursor
  opened := by
    intro t ht
    cases ht

/-! ## Steps -/

/-- A change of the tables after the first page was read touches no session without giving it a later time. -/
def Stamped (userId : String) (s : System) : Label → Prop
  | .change db _ => ∀ t ∈ s.opened, Kept userId t s.db db
  | _ => True

/-- The sessions that the tables get are among these. -/
def Known (userId : String) (rows : List SessionRow) : Label → Prop
  | .change db _ => ∀ row ∈ db.sessionsOf userId, row ∈ rows
  | _ => True

/-- A step that shows no less, and uses no other cursors. -/
theorem Opened.quiet (h : Opened settings userId rows t db₀ s) (hkept : Kept userId t s.db s'.db)
    (hloads : s'.loads = s.loads) (hnext : s'.nextCursor = s.nextCursor) (hlive : ∀ text, Live s' text → Live s text)
    (hshown : ∀ row ∈ s'.db.sessionsOf userId, row.updatedAt ≤ t → Shown s row → Shown s' row)
    (hentries : Entries userId db₀ s.store.recentConversations → Entries userId db₀ s'.store.recentConversations) :
    Opened settings userId rows t db₀ s' where
  first := h.first
  kept := h.kept.trans hkept
  live text htext := ⟨(h.live text (hlive text htext)).1, (h.live text (hlive text htext)).2.mono hkept hshown⟩
  pages i cursor page hget := (h.pages i cursor page (hloads ▸ hget)).mono hkept
  entries harrived := hentries (h.entries (by rwa [Arrived, ← hloads]))
  covers harrived := by
    rw [hnext]
    exact (h.covers (by rwa [Arrived, ← hloads])).mono hkept hshown
  idle harrived text htext := h.idle (by rwa [Arrived, ← hloads]) text (hlive text htext)
  served := by
    rw [hloads]
    exact h.served

theorem Inv.quiet (h : Inv settings userId rows s) (hsound : Sound userId s'.clock s'.db)
    (hknown : ∀ row ∈ s'.db.sessionsOf userId, row ∈ rows) (hopened : s'.opened = s.opened)
    (hloads : s'.loads = s.loads) (hnext : s'.nextCursor = s.nextCursor) (hlive : ∀ text, Live s' text → Live s text)
    (hkept : ∀ t ∈ s.opened, Kept userId t s.db s'.db)
    (hshown : ∀ t ∈ s.opened, ∀ row ∈ s'.db.sessionsOf userId, row.updatedAt ≤ t → Shown s row → Shown s' row)
    (hentries : ∀ db₀, Entries userId db₀ s.store.recentConversations →
      Entries userId db₀ s'.store.recentConversations) : Inv settings userId rows s' where
  sound := hsound
  known := hknown
  mount := by
    rw [hloads]
    exact h.mount
  unopened := by
    rw [hopened, hloads]
    exact fun hnone => ⟨fun text htext => (h.unopened hnone).1 text (hlive text htext), (h.unopened hnone).2⟩
  opened := by
    intro t ht
    rw [hopened] at ht
    obtain ⟨db₀, hfirst⟩ := h.opened t ht
    exact ⟨db₀, hfirst.quiet (hkept t ht) hloads hnext hlive (hshown t ht) (hentries db₀)⟩

/-- A request that has not arrived moves on, and does not arrive. -/
theorem Opened.advance (h : Opened settings userId rows t db₀ s) {i : Nat} {cursor : Option String}
    {phase phase' : Phase} (hget : s.loads.get i = some ⟨cursor, phase⟩) (hphase : phase ≠ .arrived)
    (hphase' : phase' ≠ .arrived) (hsent : phase' ≠ .sent)
    (hpage : ∀ page, phase' = .answered (.ok page) → IsPage settings userId rows t db₀ s.db cursor page)
    (hdb : s'.db = s.db) (hstore : s'.store = s.store) (hnext : s'.nextCursor = s.nextCursor)
    (hrendered : s'.rendered = s.rendered) (hloads : s'.loads = s.loads.set i ⟨cursor, phase'⟩) :
    Opened settings userId rows t db₀ s' := by
  have harrived : Arrived s' ↔ Arrived s := by
    rw [Arrived, Arrived, hloads, OrderedMap.get_set]
    split
    · rename_i hi
      rw [hi, hget]
      simp [hphase, hphase']
    · rfl
  have hlive : ∀ text, Live s' text → Live s text := by
    intro text htext
    rw [Live, hnext, hrendered, hloads] at htext
    refine htext.imp_right fun htext => htext.imp_right fun ⟨j, load, hload, hcursor⟩ => ?_
    rw [OrderedMap.get_set] at hload
    split at hload
    · cases hload
      exact ⟨i, _, hget, hcursor⟩
    · exact ⟨j, load, hload, hcursor⟩
  have hkept : Kept userId t s.db s'.db := hdb ▸ kept_refl userId t s.db
  have hshown : ∀ row ∈ s'.db.sessionsOf userId, row.updatedAt ≤ t → Shown s row → Shown s' row := by
    intro row _ _ hrow
    rwa [Shown, hdb, hstore]
  refine ⟨h.first, hdb ▸ h.kept, fun text htext => ?_, fun j cursor' page hload => ?_, fun harr => ?_, fun harr => ?_,
    fun harr text htext => ?_, fun j hload => ?_⟩
  · obtain ⟨hcursor, hcovers⟩ := h.live text (hlive text htext)
    exact ⟨hcursor, hcovers.mono hkept hshown⟩
  · rw [hloads, OrderedMap.get_set] at hload
    rw [hdb]
    split at hload
    · cases hload
      exact hpage page rfl
    · exact h.pages j cursor' page hload
  · rw [hstore]
    exact h.entries (harrived.mp harr)
  · rw [hnext]
    exact (h.covers (harrived.mp harr)).mono hkept hshown
  · exact h.idle (fun hold => harr (harrived.mpr hold)) text (hlive text htext)
  · rw [hloads, OrderedMap.get_set] at hload
    split at hload
    · exact hsent (congrArg Load.phase (Option.some.inj hload))
    · exact h.served j hload

variable (hcodec : Codec settings rows) (horder : TextOrder settings.textLt)

theorem inv_change (h : Inv settings userId rows s) {now : Nat} (hstamped : Stamped userId s (.change db now))
    (hknown : Known userId rows (.change db now))
    (hstep : step settings env userId toLocaleString s (.change db now) = some s') : Inv settings userId rows s' := by
  simp only [step] at hstep
  split at hstep <;> cases hstep
  rename_i hsound
  refine h.quiet hsound.2 hknown rfl rfl rfl (fun _ hlive => hlive) hstamped (fun t ht row hrow htime hshown => ?_)
    fun _ hentries => hentries
  obtain ⟨item, hitem, hsession, htask⟩ := hshown
  exact ⟨item, hitem, hsession, (hstamped t ht row hrow htime).2.trans htask⟩

theorem inv_render (h : Inv settings userId rows s) :
    Inv settings userId rows { s with rendered := (s.nextCursor, s.loadingMore) } := by
  refine h.quiet h.sound h.known rfl rfl rfl (fun text hlive => ?_) (fun t _ => kept_refl userId t s.db)
    (fun _ _ _ _ _ hshown => hshown) fun _ hentries => hentries
  rcases hlive with hlive | hlive | hlive
  · exact .inl hlive
  · exact .inl hlive
  · exact .inr (.inr hlive)

theorem inv_error (h : Inv settings userId rows s) (error : Option String) :
    Inv settings userId rows { s with error } :=
  h.quiet h.sound h.known rfl rfl rfl (fun _ hlive => hlive) (fun t _ => kept_refl userId t s.db)
    (fun _ _ _ _ _ hshown => hshown) fun _ hentries => hentries

theorem inv_removed (h : Inv settings userId rows s) {taskId : String}
    (hstep : step settings env userId toLocaleString s (.removed taskId) = some s') :
    Inv settings userId rows s' := by
  simp only [step] at hstep
  split at hstep <;> cases hstep
  rename_i hgone
  refine h.quiet h.sound h.known rfl rfl rfl (fun _ hlive => hlive) (fun t _ => kept_refl userId t s.db)
    (fun t _ row hrow _ hshown => ?_) fun db₀ hentries => ⟨?_, fun item hitem => ?_⟩
  · obtain ⟨item, hitem, hsession, htask⟩ := hshown
    refine ⟨item, List.mem_filter.mpr ⟨hitem, ?_⟩, hsession, htask⟩
    simp only [decide_not, Bool.not_eq_true', decide_eq_false_iff_not]
    exact fun heq => hgone row hrow (heq ▸ htask)
  · exact hentries.ids.sublist (List.filter_sublist.map _)
  · exact hentries.genuine item (List.mem_of_mem_filter hitem)

/-- A cursor is in use only after the first page has arrived. -/
theorem Inv.arrived (h : Inv settings userId rows s) (hlive : Live s text) :
    Arrived s ∧ ∃ t db₀, s.opened = some t ∧ Opened settings userId rows t db₀ s := by
  cases hopened : s.opened with
  | none => exact absurd hlive ((h.unopened hopened).1 text)
  | some t =>
    obtain ⟨db₀, hfirst⟩ := h.opened t hopened
    exact ⟨not_not.mp fun hnot => hfirst.idle hnot text hlive, t, db₀, rfl, hfirst⟩

theorem truthy_eq_some {value : Option String} (h : truthy value = some text) : value = some text :=
  (Option.filter_eq_some_iff.mp h).1

theorem inv_press (h : Inv settings userId rows s) {i : Nat}
    (hstep : step settings env userId toLocaleString s (.press i) = some s') : Inv settings userId rows s' := by
  simp only [step] at hstep
  split at hstep <;> cases hstep
  rename_i cursor hcursor _ hfree
  obtain ⟨harrived, t, db₀, hopened, hfirst⟩ := h.arrived (.inr (.inl (truthy_eq_some hcursor)))
  have hi : i ≠ 0 := by
    rintro rfl
    rw [harrived] at hfree
    cases hfree
  have hsame : ∀ phase : Phase, (s.loads.set i ⟨some cursor, .sent⟩).get 0 = some ⟨none, phase⟩ ↔
      s.loads.get 0 = some ⟨none, phase⟩ := by
    intro phase
    rw [OrderedMap.get_set_other _ _ hi.symm]
  refine ⟨h.sound, h.known, fun j load hload hnone => ?_, fun hnone => ?_, fun t' ht' => ⟨db₀, ?_⟩⟩
  · rw [OrderedMap.get_set] at hload
    split at hload
    · cases hload
      cases hnone
    · exact h.mount j load hload hnone
  · cases hopened.symm.trans hnone
  · obtain rfl : t = t' := Option.some.inj (hopened.symm.trans ht')
    have hlive : ∀ text, Live { s with
        loads := s.loads.set i ⟨some cursor, .sent⟩, loadingMore := true, error := none } text → Live s text := by
      rintro text (hlive | hlive | ⟨j, load, hload, htext⟩)
      · exact .inl hlive
      · exact .inr (.inl hlive)
      · rw [OrderedMap.get_set] at hload
        split at hload
        · cases hload
          exact .inr (.inl ((truthy_eq_some hcursor).trans htext))
        · exact .inr (.inr ⟨j, load, hload, htext⟩)
    refine ⟨hfirst.first, hfirst.kept, fun text htext => hfirst.live text (hlive text htext),
      fun j cursor' page hload => ?_, fun harr => hfirst.entries harrived, fun harr => hfirst.covers harrived,
      fun hnot => absurd ((hsame .arrived).mpr harrived) hnot, fun j hload => ?_⟩
    · rw [OrderedMap.get_set] at hload
      split at hload
      · cases hload
      · exact hfirst.pages j cursor' page hload
    · rw [OrderedMap.get_set] at hload
      split at hload
      · cases hload
      · exact hfirst.served j hload

/-- The requests after one of them has moved on. -/
theorem Inv.mount_set (h : Inv settings userId rows s) {i : Nat} {cursor : Option String} {phase : Phase}
    (hget : s.loads.get i = some ⟨cursor, phase⟩) (phase' : Phase) :
    ∀ j load, (s.loads.set i ⟨cursor, phase'⟩).get j = some load → load.cursor = none → j = 0 := by
  intro j load hload hnone
  rw [OrderedMap.get_set] at hload
  split at hload
  · rename_i hj
    cases hload
    exact hj.trans (h.mount i _ hget hnone)
  · exact h.mount j load hload hnone

/-- A request of the app, by its cursor. -/
theorem IsCursor.start (hcodec : Codec settings rows) (h : IsCursor settings rows t text) :
    ∃ a ∈ rows, a.updatedAt ≤ t ∧
      decodeHistoryCursor settings (some text) = some ((some a).map fun row => (row.updatedAt, row.id)) := by
  obtain ⟨a, ha, hid, ht, rfl⟩ := h
  exact ⟨a, ha, ht, decode_cursor hcodec ha hid⟩

theorem le_of_comes {a b : SessionRow} (h : Comes settings a b) : b.updatedAt ≤ a.updatedAt := by
  rcases h with hlt | ⟨heq, -⟩ <;> omega

include hcodec horder in
theorem inv_serve (h : Inv settings userId rows s) {i : Nat}
    (hstep : step settings env userId toLocaleString s (.serve i) = some s') : Inv settings userId rows s' := by
  simp only [step] at hstep
  split at hstep <;> cases hstep
  rename_i cursor hget
  have hmount := h.mount_set hget (.answered (answer settings env userId cursor s.db))
  cases cursor with
  | none =>
    obtain rfl : i = 0 := h.mount i _ hget rfl
    -- this is the first page: the tables are those that it was read from
    have hunopened : s.opened = none := by
      cases hopened : s.opened with
      | none => rfl
      | some t =>
        obtain ⟨db₀, hfirst⟩ := h.opened t hopened
        exact absurd hget (hfirst.served 0)
    obtain ⟨hidle, hphases⟩ := h.unopened hunopened
    rw [if_pos rfl]
    refine ⟨h.sound, h.known, hmount, fun hnone => (by cases hnone), fun t ht => ⟨s.db, ?_⟩⟩
    cases ht
    have hnotLive : ∀ text, ¬ Live { s with
        loads := s.loads.set 0 ⟨none, .answered (answer settings env userId none s.db)⟩
        opened := some s.clock } text := by
      rintro text (hlive | hlive | ⟨j, load, hload, htext⟩)
      · exact hidle text (.inl hlive)
      · exact hidle text (.inr (.inl hlive))
      · rw [OrderedMap.get_set] at hload
        split at hload
        · cases hload
          cases htext
        · exact hidle text (.inr (.inr ⟨j, load, hload, htext⟩))
    have hnotArrived : ¬ Arrived { s with
        loads := s.loads.set 0 ⟨none, .answered (answer settings env userId none s.db)⟩
        opened := some s.clock } := by
      rw [Arrived, OrderedMap.get_set_same]
      exact fun heq => by cases heq
    refine ⟨h.sound, kept_refl _ _ _, fun text hlive => absurd hlive (hnotLive text), fun j cursor page hload => ?_,
      fun harr => absurd harr hnotArrived, fun harr => absurd harr hnotArrived, fun _ => hnotLive, fun j hload => ?_⟩
    · rw [OrderedMap.get_set] at hload
      split at hload
      · obtain ⟨hcursor, hpage⟩ := Load.mk.inj (Option.some.inj hload)
        subst hcursor
        have hdecode : decodeHistoryCursor settings none =
            some ((none : Option SessionRow).map fun row => (row.updatedAt, row.id)) := rfl
        exact isPage_answer horder hcodec h.sound h.known (kept_refl _ _ _) hdecode
          (fun row hrow _ => h.sound.clock row hrow) (Phase.answered.inj hpage)
      · rcases hphases j _ hload with hphase | hphase <;> cases hphase
    · rw [OrderedMap.get_set] at hload
      split at hload
      · cases hload
      · rename_i hj
        exact hj (h.mount j _ hload rfl)
  | some text =>
    obtain ⟨harrived, t, db₀, hopened, hfirst⟩ := h.arrived (.inr (.inr ⟨i, _, hget, rfl⟩))
    rw [if_neg (Option.some_ne_none text)]
    refine ⟨h.sound, h.known, hmount, fun hnone => (by cases hopened.symm.trans hnone), fun t' ht' => ⟨db₀, ?_⟩⟩
    obtain rfl : t = t' := Option.some.inj (hopened.symm.trans ht')
    obtain ⟨a, ha, hat, hdecode⟩ := (hfirst.live text (.inr (.inr ⟨i, _, hget, rfl⟩))).1.start hcodec
    refine hfirst.advance hget (fun heq => by cases heq) (fun heq => by cases heq) (fun heq => by cases heq)
      (fun page hpage => ?_) rfl rfl rfl rfl rfl
    exact isPage_answer horder hcodec h.sound h.known hfirst.kept hdecode
      (fun row _ hafter => (le_of_comes (hafter a rfl)).trans hat) (Phase.answered.inj hpage)

theorem genuine_toRecent {cursor : Option String} (h : IsPage settings userId rows t db₀ db cursor page) :
    Entries userId db₀ (page.items.map (toRecent toLocaleString)) where
  ids := by
    rw [List.map_map]
    exact h.ids
  genuine := by
    intro entry hentry
    obtain ⟨item, hitem, rfl⟩ := List.mem_map.mp hentry
    obtain ⟨row, hrow, hsession, htask⟩ := h.genuine item hitem
    exact ⟨row, hrow, congrArg some hsession, htask⟩

/-- An entry that is appended is new, and the others are already there. -/
theorem Entries.append {items : List RecentConversation} (h : Entries userId db₀ items)
    {new : List RecentConversation} (hnew : Entries userId db₀ new) :
    Entries userId db₀ (items ++ new.filter fun item => item.id ∉ items.map RecentConversation.id) where
  ids := by
    rw [List.map_append, List.nodup_append']
    refine ⟨h.ids, hnew.ids.sublist (List.filter_sublist.map _), fun id hid hid' => ?_⟩
    obtain ⟨item, hitem, rfl⟩ := List.mem_map.mp hid'
    have hfresh := (List.mem_filter.mp hitem).2
    exact of_decide_eq_true hfresh hid
  genuine := by
    intro item hitem
    rcases List.mem_append.mp hitem with hitem | hitem
    · exact h.genuine item hitem
    · exact hnew.genuine item (List.mem_of_mem_filter hitem)

/-- Two entries of one task are one conversation. -/
theorem Entries.session {items : List RecentConversation} (h : Entries userId db₀ items) (hfirst : Sound userId t db₀)
    {item : RecentConversation} (hitem : item ∈ items) {sessionId : String}
    (htask : lastTask db₀ sessionId = some item.id) : item.sessionId = some sessionId := by
  obtain ⟨row, -, hsession, htask'⟩ := h.genuine item hitem
  rw [hsession, hfirst.session_unique htask' htask]

theorem Entries.sessions {items : List RecentConversation} (h : Entries userId db₀ items)
    (hfirst : Sound userId t db₀) : (items.map fun item => item.sessionId).Nodup := by
  refine List.pairwise_map.mpr ((List.pairwise_map.mp h.ids).imp_of_mem fun {a b} ha hb hne hsession => hne ?_)
  obtain ⟨row, hrow, hsessionA, htaskA⟩ := h.genuine a ha
  obtain ⟨row', hrow', hsessionB, htaskB⟩ := h.genuine b hb
  have hid : row.id = row'.id := Option.some.inj (by rw [← hsessionA, hsession, hsessionB])
  rw [hfirst.row_unique hrow hrow' hid] at htaskA
  exact Option.some.inj (htaskA.symm.trans htaskB)

/-- A page arrives, and with it all that its cursor does not list and it does not leave over is shown. -/
theorem Opened.receive {new : System} (h : Opened settings userId rows t db₀ s) {i : Nat} {cursor : Option String}
    (hget : s.loads.get i = some ⟨cursor, .answered (.ok page)⟩) (hdb : new.db = s.db)
    (hloads : new.loads = s.loads.set i ⟨cursor, .arrived⟩) (hnext : new.nextCursor = page.nextCursor)
    (hrendered : new.rendered = s.rendered) (harrived : Arrived new)
    (hentries : Entries userId db₀ new.store.recentConversations)
    (hcovers : Covers settings userId t new page.nextCursor)
    (hold : ∀ text, Live s text → Covers settings userId t new (some text)) :
    Opened settings userId rows t db₀ new where
  first := h.first
  kept := hdb ▸ h.kept
  live := by
    rintro text (hlive | hlive | ⟨j, load, hload, htext⟩)
    · rw [hnext] at hlive
      exact ⟨(h.pages i cursor page hget).next text hlive, hlive ▸ hcovers⟩
    · rw [hrendered] at hlive
      exact ⟨(h.live text (.inr (.inl hlive))).1, hold text (.inr (.inl hlive))⟩
    · have hlive : Live s text := by
        rw [hloads, OrderedMap.get_set] at hload
        split at hload
        · cases hload
          exact .inr (.inr ⟨i, _, hget, htext⟩)
        · exact .inr (.inr ⟨j, load, hload, htext⟩)
      exact ⟨(h.live text hlive).1, hold text hlive⟩
  pages := by
    intro j cursor' page' hload
    rw [hloads, OrderedMap.get_set] at hload
    split at hload
    · cases hload
    · exact hdb ▸ h.pages j cursor' page' hload
  entries _ := hentries
  covers _ := hnext ▸ hcovers
  idle hnot := absurd harrived hnot
  served := by
    intro j hload
    rw [hloads, OrderedMap.get_set] at hload
    split at hload
    · cases hload
    · exact h.served j hload

theorem inv_arrive (h : Inv settings userId rows s) {i : Nat}
    (hstep : step settings env userId toLocaleString s (.arrive i) = some s') : Inv settings userId rows s' := by
  simp only [step] at hstep
  split at hstep <;> cases hstep
  rename_i cursor page hget
  obtain ⟨t, hopened⟩ : ∃ t, s.opened = some t := by
    cases hopened : s.opened with
    | none => rcases (h.unopened hopened).2 i _ hget with hphase | hphase <;> cases hphase
    | some t => exact ⟨t, rfl⟩
  obtain ⟨db₀, hfirst⟩ := h.opened t hopened
  have hpage := hfirst.pages i cursor page hget
  cases cursor with
  | none =>
    obtain rfl : i = 0 := h.mount i _ hget rfl
    have hidle : ∀ text, ¬ Live s text := by
      apply hfirst.idle
      rw [Arrived, hget]
      exact fun heq => by cases heq
    refine ⟨h.sound, h.known, h.mount_set hget .arrived, fun hnone => (by cases hopened.symm.trans hnone),
      fun t' ht' => ⟨db₀, ?_⟩⟩
    obtain rfl : t = t' := Option.some.inj (hopened.symm.trans ht')
    refine hfirst.receive hget rfl rfl rfl rfl (OrderedMap.get_set_same _ _ _) (genuine_toRecent hpage)
      (fun row hrow ht hmore => ?_) fun text hlive => absurd hlive (hidle text)
    obtain ⟨item, hitem, hsession, htask⟩ := hpage.listed row hrow ht rfl hmore
    exact ⟨toRecent toLocaleString item, List.mem_map_of_mem hitem, congrArg some hsession, htask⟩
  | some text =>
    have hliveText : Live s text := .inr (.inr ⟨i, _, hget, rfl⟩)
    obtain ⟨harrived, -⟩ := h.arrived hliveText
    have hentries := hfirst.entries harrived
    have hi : 0 ≠ i := by
      rintro rfl
      cases harrived.symm.trans hget
    refine ⟨h.sound, h.known, h.mount_set hget .arrived, fun hnone => (by cases hopened.symm.trans hnone),
      fun t' ht' => ⟨db₀, ?_⟩⟩
    obtain rfl : t = t' := Option.some.inj (hopened.symm.trans ht')
    refine hfirst.receive hget rfl rfl rfl rfl ((OrderedMap.get_set_other _ _ hi).trans harrived)
      (hentries.append (genuine_toRecent hpage)) (fun row hrow ht hmore => ?_) fun other hother row hrow ht hmore => ?_
    · cases hlists : lists settings (some text) row with
      | false =>
        obtain ⟨item, hitem, hsame⟩ := (hfirst.live text hliveText).2 row hrow ht hlists
        exact ⟨item, List.mem_append_left _ hitem, hsame⟩
      | true =>
        obtain ⟨item, hitem, hsession, htask⟩ := hpage.listed row hrow ht hlists hmore
        by_cases hold : item.taskId ∈ s.store.recentConversations.map RecentConversation.id
        · -- the entry that has the task already is one of the same session
          obtain ⟨entry, hentry, hid⟩ := List.mem_map.mp hold
          have htask₀ : lastTask db₀ row.id = some entry.id := by
            rw [← (hfirst.kept row hrow ht).2, hid]
            exact htask
          exact ⟨entry, List.mem_append_left _ hentry, hentries.session hfirst.first hentry htask₀, hid ▸ htask⟩
        · have hnew : toRecent toLocaleString item ∈ (page.items.map (toRecent toLocaleString)).filter fun item =>
              item.id ∉ s.store.recentConversations.map RecentConversation.id :=
            List.mem_filter.mpr ⟨List.mem_map_of_mem hitem, decide_eq_true hold⟩
          exact ⟨toRecent toLocaleString item, List.mem_append_right _ hnew, congrArg some hsession, htask⟩
    · obtain ⟨item, hitem, hsame⟩ := (hfirst.live other hother).2 row hrow ht hmore
      exact ⟨item, List.mem_append_left _ hitem, hsame⟩

theorem failLoad_eq (s : System) (cursor message : Option String) : ∃ error loading loadingMore,
    s.failLoad cursor message = { s with error, loading, loadingMore } := by
  cases cursor <;> exact ⟨_, _, _, rfl⟩

theorem inv_fail (h : Inv settings userId rows s) {i : Nat} {message : Option String}
    (hstep : step settings env userId toLocaleString s (.fail i message) = some s') : Inv settings userId rows s' := by
  obtain ⟨cursor, phase, hget, hphase, hs'⟩ : ∃ cursor phase, s.loads.get i = some ⟨cursor, phase⟩ ∧
      phase ≠ .arrived ∧ s' = { s with loads := s.loads.set i ⟨cursor, .failed⟩ }.failLoad cursor message := by
    simp only [step] at hstep
    split at hstep <;> cases hstep
    · rename_i cursor hget
      exact ⟨cursor, _, hget, by simp, rfl⟩
    · rename_i cursor answer hget
      exact ⟨cursor, _, hget, by simp, rfl⟩
  obtain ⟨error, loading, loadingMore, heq⟩ :=
    failLoad_eq { s with loads := s.loads.set i ⟨cursor, .failed⟩ } cursor message
  rw [hs', heq]
  refine ⟨h.sound, h.known, h.mount_set hget .failed, fun hnone => ?_, fun t ht => ?_⟩
  · obtain ⟨hidle, hphases⟩ := h.unopened hnone
    refine ⟨fun text hlive => hidle text ?_, fun j load hload => ?_⟩
    · refine hlive.imp_right fun hlive => hlive.imp_right fun ⟨j, load, hload, htext⟩ => ?_
      rw [OrderedMap.get_set] at hload
      split at hload
      · cases hload
        exact ⟨i, _, hget, htext⟩
      · exact ⟨j, load, hload, htext⟩
    · rw [OrderedMap.get_set] at hload
      split at hload
      · cases hload
        exact .inr rfl
      · exact hphases j load hload
  · obtain ⟨db₀, hfirst⟩ := h.opened t ht
    exact ⟨db₀, hfirst.advance hget hphase (by simp) (by simp) (fun page heq => by cases heq) rfl rfl rfl rfl rfl⟩

include hcodec horder in
theorem inv_step (h : Inv settings userId rows s) {l : Label} (hstamped : Stamped userId s l)
    (hknown : Known userId rows l) (hstep : step settings env userId toLocaleString s l = some s') :
    Inv settings userId rows s' := by
  cases l with
  | change db now => exact inv_change h hstamped hknown hstep
  | render =>
    cases hstep
    exact inv_render h
  | press i => exact inv_press h hstep
  | serve i => exact inv_serve hcodec horder h hstep
  | arrive i => exact inv_arrive h hstep
  | fail i message => exact inv_fail h hstep
  | begin =>
    cases hstep
    exact inv_error h none
  | removed taskId => exact inv_removed h hstep
  | refused message =>
    cases hstep
    exact inv_error h (some message)

/-! ## What the screen shows -/

include hcodec horder in
/-- However presses, answers, failures, deletions and changes of the tables are interleaved: once the first page
has arrived, no conversation is in the list twice, and every conversation that has not been touched since that page
was read, and is still there, is in the list, unless the button for more lists it. When there is no button, all of
them are in the list. -/
theorem scrolled_through {clock : Nat} (hsound : Sound userId clock db)
    (hrows : ∀ row ∈ db.sessionsOf userId, row ∈ rows) (store : StoreState) {ls : List Label}
    (hrun : run (step settings env userId toLocaleString) (.mount db clock store) ls = some s)
    (hstamped : Along (step settings env userId toLocaleString) (Stamped userId) (.mount db clock store) ls)
    (hknown : ∀ l ∈ ls, Known userId rows l) (harrived : Arrived s) :
    ∃ t, s.opened = some t ∧ (s.store.recentConversations.map fun item => item.id).Nodup ∧
      (s.store.recentConversations.map fun item => item.sessionId).Nodup ∧
      ∀ row ∈ s.db.sessionsOf userId, row.updatedAt ≤ t → more settings s.nextCursor row = false → Shown s row := by
  have hok : Along (step settings env userId toLocaleString) (fun s l => Stamped userId s l ∧ Known userId rows l)
      (.mount db clock store) ls := hstamped.mono_mem fun _ l hl hok => ⟨hok, hknown l hl⟩
  have h : Inv settings userId rows s :=
    invariant_along (fun _ _ _ h hok hstep => inv_step hcodec horder h hok.1 hok.2 hstep)
      (inv_mount hsound hrows store) hok hrun
  have hopened : s.opened ≠ none := by
    intro hnone
    rcases (h.unopened hnone).2 0 _ harrived with hphase | hphase <;> cases hphase
  obtain ⟨t, ht⟩ := Option.ne_none_iff_exists'.mp hopened
  obtain ⟨db₀, hfirst⟩ := h.opened t ht
  have hentries := hfirst.entries harrived
  exact ⟨t, ht, hentries.ids, hentries.sessions hfirst.first, hfirst.covers harrived⟩

/-! ## A run -/

def demoTables (rows : List SessionRow) : Store := { Store.empty with
  sessions := rows.foldl (fun m row => m.set row.id row) OrderedMap.empty
  tasks := rows.foldl (fun m row => m.set (row.id ++ "-t") (demoTask row.id)) OrderedMap.empty }

def firstRows : List SessionRow := (List.range 22).map fun n => demoSession (toString n) n

/-- The session "1" has got a later time. -/
def laterRows : List SessionRow := demoSession "1" 100 :: firstRows.eraseIdx 1

def allRows : List SessionRow := demoSession "1" 100 :: firstRows

def demoSettings : ServiceSettings := { HistoryPaging.demoSettings with
  jsonParse := fun text => (allRows.find? fun row => demoStringify (cursorOf row) = text).map cursorOf
  parseDate := fun text => (allRows.map fun row => row.updatedAt).find? fun clock => toISOString clock = text }

/-- Two presses before the next render; a session that the first page has left over is touched in between. -/
def pressedTwice : List Label :=
  [.serve 0, .arrive 0, .render, .press 1, .press 2, .serve 1, .change (demoTables laterRows) 100, .serve 2,
    .arrive 2, .arrive 1, .render]

theorem jsonParse_demo (text : String) : demoSettings.jsonParse text =
    (allRows.find? fun row => demoStringify (cursorOf row) = text).map cursorOf := rfl

theorem jsonStringify_demo (json : Json) : demoSettings.jsonStringify json = demoStringify json := rfl

theorem codec_demo : Codec demoSettings allRows := by
  have hfind : ∀ row ∈ allRows,
      (allRows.find? fun other => demoStringify (cursorOf other) = demoStringify (cursorOf row)) = some row := by
    decide +kernel
  refine ⟨rfl, rfl, by decide +kernel, fun row hrow => ?_, by decide +kernel⟩
  rw [jsonStringify_demo, jsonParse_demo, hfind row hrow, Option.map_some]

/-- The first page has arrived, and there is no button for more. -/
def finished (s : System) : Bool :=
  (match s.loads.get 0 with
    | some ⟨none, .arrived⟩ => true
    | _ => false) && s.nextCursor = none && s.opened = some 50

theorem arrived_of_finished (h : finished s = true) : Arrived s ∧ s.nextCursor = none ∧ s.opened = some 50 := by
  simp only [finished, Bool.and_eq_true, decide_eq_true_eq] at h
  obtain ⟨⟨harrived, hnext⟩, hopened⟩ := h
  split at harrived
  · rename_i hget
    exact ⟨hget, hnext, hopened⟩
  · cases harrived

def demoStep : System → Label → Option System := step demoSettings TenantIsolation.exampleReplies "u" id

instance (s : System) (l : Label) : Decidable (Stamped "u" s l) := by
  unfold Stamped Kept
  split <;> infer_instance

theorem scrolled_through_pressedTwice :
    ∃ s, run demoStep (.mount (demoTables firstRows) 50 .init) pressedTwice = some s ∧
      (s.store.recentConversations.map fun item => item.sessionId).Nodup ∧
      ∀ row ∈ s.db.sessionsOf "u", row.updatedAt ≤ 50 → Shown s row := by
  have hrun : (run (guarded demoStep (Stamped "u")) (.mount (demoTables firstRows) 50 .init) pressedTwice).any
      finished = true := by
    decide +kernel
  obtain ⟨s, hguarded, hs⟩ := (Option.any_eq_true _ _).mp hrun
  obtain ⟨hrun, hstamped⟩ := run_guarded hguarded
  obtain ⟨harrived, hnext, hopened⟩ := arrived_of_finished hs
  have hfirst : Sound "u" 50 (demoTables firstRows) := by decide +kernel
  have hlater : ∀ row ∈ (demoTables laterRows).sessionsOf "u", row ∈ allRows := by decide +kernel
  have hknown : ∀ l ∈ pressedTwice, Known "u" allRows l := by
    simp only [pressedTwice, List.forall_mem_cons]
    exact ⟨trivial, trivial, trivial, trivial, trivial, trivial, hlater, trivial, trivial, trivial, trivial, by simp⟩
  obtain ⟨t, ht, -, hsessions, hshown⟩ := scrolled_through codec_demo textOrder_string hfirst
    (by decide +kernel) .init hrun hstamped hknown harrived
  obtain rfl : 50 = t := Option.some.inj (hopened.symm.trans ht)
  exact ⟨s, hrun, hsessions, fun row hrow htime => hshown row hrow htime (by rw [hnext]; rfl)⟩

end HistoryScreen
