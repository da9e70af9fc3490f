import ClawWork.Base64Url
import ClawWork.JsonText
import ClawWork.KeysetPaging
import ClawWork.ReadRuns
import ClawWork.StreamCodec
import ClawWork.TenantIsolation
import Mathlib.Data.List.Sort
import Mathlib.Data.String.Basic

/-!
# Following the history

The history of a user is read page by page, each with the cursor that the page before it has
given. As long as the sessions stay as they are, the pages list every matching session once, the
last update first, and come to an end.
-/

namespace HistoryPaging

open JavaScript TaskStore TasksService ServiceTables ServiceStore Isolation KeysetPaging
open ServiceCalls (ServiceSettings Request Reply Call HistoryQuery HistoryItem HistoryPage historyItem byUpdateDesc
  byCreationDesc inHistory decodeHistoryCursor encodeHistoryCursor)

/-- The answers to one page after the other, from a cursor on, until there is none. -/
inductive Followed (settings : ServiceSettings) (env : Nat → (r : Request) → Reply r) (s : Store) (userId : String)
    (filter : HistoryQuery) : Option String → List HistoryPage → Prop where
  | last {cursor : Option String} {page : HistoryPage}
      (hpage : (ServiceCalls.listHistory settings userId { filter with cursor }).run env 0 s = (.ok page, s))
      (hlast : page.nextCursor = none) : Followed settings env s userId filter cursor [page]
  | next {cursor : Option String} {page : HistoryPage} {next : String} {pages : List HistoryPage}
      (hpage : (ServiceCalls.listHistory settings userId { filter with cursor }).run env 0 s = (.ok page, s))
      (hnext : page.nextCursor = some next) (hpages : Followed settings env s userId filter (some next) pages) :
      Followed settings env s userId filter cursor (page :: pages)

/-- What `encodeHistoryCursor` writes of a session. -/
def cursorOf (row : SessionRow) : Json :=
  .obj [("updatedAt", .str (toISOString row.updatedAt)), ("id", .str row.id)]

/-- The library reads back what it has written for these sessions. -/
structure Codec (settings : ServiceSettings) (rows : List SessionRow) : Prop where
  encode : settings.base64urlEncode = Base64Url.encode
  decode : settings.base64urlDecode = Base64Url.decode
  stringify : ∀ row ∈ rows, settings.jsonStringify (cursorOf row) ≠ ""
  parse : ∀ row ∈ rows, settings.jsonParse (settings.jsonStringify (cursorOf row)) = some (cursorOf row)
  date : ∀ row ∈ rows, settings.parseDate (toISOString row.updatedAt) = some row.updatedAt

/-- A strict order of the texts. -/
structure TextOrder (lt : String → String → Bool) : Prop where
  irrefl : ∀ a, lt a a = false
  trans : ∀ a b c, lt a b = true → lt b c = true → lt a c = true
  total : ∀ a b, a ≠ b → lt a b = true ∨ lt b a = true

/-- Sessions have ids, no two the same, and each has a task. -/
structure Listed (s : Store) (rows : List SessionRow) : Prop where
  ids : (rows.map fun row => row.id).Nodup
  named : ∀ row ∈ rows, row.id ≠ ""
  tasks : ∀ row ∈ rows, s.sessionTasks row.id ≠ []

variable {settings : ServiceSettings} {s : Store} {userId : String}
  {filter : HistoryQuery} {rows : List SessionRow} {row : SessionRow} {a b c : SessionRow}

/-- `a` is listed before `b`: it was updated later, or it has the greater id. -/
def Comes (settings : ServiceSettings) (a b : SessionRow) : Prop :=
  b.updatedAt < a.updatedAt ∨ (b.updatedAt = a.updatedAt ∧ settings.textLt b.id a.id = true)

instance : DecidableRel (Comes settings) := fun a b =>
  inferInstanceAs (Decidable (b.updatedAt < a.updatedAt ∨ (b.updatedAt = a.updatedAt ∧
    settings.textLt b.id a.id = true)))

theorem TextOrder.asymm {lt : String → String → Bool} (h : TextOrder lt) {a b : String} (hab : lt a b = true) :
    lt b a = false := by
  cases hba : lt b a with
  | false => rfl
  | true => cases (h.trans a b a hab hba).symm.trans (h.irrefl a)

theorem comes_asymm (h : TextOrder settings.textLt) (a b : SessionRow) (hab : Comes settings a b) :
    ¬ Comes settings b a := by
  rintro (hlt | ⟨heq, hba⟩)
  · rcases hab with hlt' | ⟨heq', -⟩ <;> omega
  · rcases hab with hlt' | ⟨-, hlt⟩
    · omega
    · rw [h.asymm hba] at hlt
      cases hlt

/-- The order that the database sorts by. -/
def Sorts (settings : ServiceSettings) (a b : SessionRow) : Prop :=
  b.updatedAt < a.updatedAt ∨ (a.updatedAt = b.updatedAt ∧ settings.textLt a.id b.id = false)

instance : DecidableRel (Sorts settings) := fun a b =>
  inferInstanceAs (Decidable (b.updatedAt < a.updatedAt ∨ (a.updatedAt = b.updatedAt ∧
    settings.textLt a.id b.id = false)))

theorem sorts_total (h : TextOrder settings.textLt) (a b : SessionRow) : Sorts settings a b ∨
    Sorts settings b a := by
  rcases Nat.lt_trichotomy a.updatedAt b.updatedAt with hlt | heq | hlt
  · exact .inr (.inl hlt)
  · cases hab : settings.textLt a.id b.id with
    | false => exact .inl (.inr ⟨heq, hab⟩)
    | true => exact .inr (.inr ⟨heq.symm, h.asymm hab⟩)
  · exact .inl (.inl hlt)

theorem sorts_trans (h : TextOrder settings.textLt) (hab : Sorts settings a b) (hbc : Sorts settings b c) :
    Sorts settings a c := by
  rcases hab with hab | ⟨hab, hab'⟩ <;> rcases hbc with hbc | ⟨hbc, hbc'⟩
  · exact .inl (by omega)
  · exact .inl (by omega)
  · exact .inl (by omega)
  · refine .inr ⟨hab.trans hbc, ?_⟩
    cases hac : settings.textLt a.id c.id with
    | false => rfl
    | true =>
      by_cases hne : b.id = c.id
      · rw [← hne, hab'] at hac
        cases hac
      · have hcb := (h.total b.id c.id hne).resolve_left (by rw [hbc']; exact Bool.false_ne_true)
        rw [h.trans _ _ _ hac hcb] at hab'
        cases hab'

/-- Two sessions that are sorted are listed in this order, unless they are one. -/
theorem comes_of_sorts (h : TextOrder settings.textLt) (hab : Sorts settings a b) (hne : a.id ≠ b.id) :
    Comes settings a b := by
  rcases hab with hlt | ⟨heq, hid⟩
  · exact .inl hlt
  · exact .inr ⟨heq.symm, (h.total a.id b.id hne).resolve_left (by rw [hid]; exact Bool.false_ne_true)⟩

theorem pairwise_byUpdateDesc (h : TextOrder settings.textLt) (hids : (rows.map fun row => row.id).Nodup) :
    (byUpdateDesc settings rows).Pairwise (Comes settings) := by
  have : Std.Total (Sorts settings) := ⟨sorts_total h⟩
  have : IsTrans SessionRow (Sorts settings) := ⟨fun _ _ _ => sorts_trans h⟩
  have hperm : (byUpdateDesc settings rows).Perm rows := List.perm_insertionSort _ _
  have hsorted : (byUpdateDesc settings rows).Pairwise (Sorts settings) := List.pairwise_insertionSort _ _
  have hnodup : (byUpdateDesc settings rows).Pairwise fun a b => a.id ≠ b.id :=
    List.pairwise_map.mp ((hperm.map _).nodup_iff.mpr hids)
  exact (hsorted.and hnodup).imp fun hab => comes_of_sorts h hab.1 hab.2

/-- It makes no difference whether sessions are left out before they are sorted. -/
theorem byUpdateDesc_filter (h : TextOrder settings.textLt) (hids : (rows.map fun row => row.id).Nodup)
    (p : SessionRow → Bool) :
    byUpdateDesc settings (rows.filter p) = (byUpdateDesc settings rows).filter p := by
  have hperm : (byUpdateDesc settings rows).Perm rows := List.perm_insertionSort _ _
  have hfiltered : (byUpdateDesc settings (rows.filter p)).Perm (rows.filter p) := List.perm_insertionSort _ _
  refine (hfiltered.trans (hperm.filter p).symm).eq_of_pairwise (fun a b _ _ hab hba => ?_)
    (pairwise_byUpdateDesc h (hids.sublist (List.filter_sublist.map _))) ((pairwise_byUpdateDesc h hids).filter p)
  exact absurd hba (comes_asymm h a b hab)

/-! ## One page -/

/-- The sessions that a history shows, in its order. -/
def matching (settings : ServiceSettings) (s : Store) (userId : String) (filter : HistoryQuery) :
    List SessionRow :=
  byUpdateDesc settings ((s.sessionsOf userId).filter (inHistory settings filter none))

/-- A session as it is listed, with the last of its tasks. -/
def itemOf (s : Store) (row : SessionRow) : Option HistoryItem :=
  (byCreationDesc (s.sessionTasks row.id)).head?.map (historyItem row)

/-- The page that shows sessions, and what it says of those that are left over. -/
def pageOf (settings : ServiceSettings) (s : Store) (limit : Nat) (rows : List SessionRow) : HistoryPage where
  items := (rows.take limit).flatMap fun row => (itemOf s row).toList
  nextCursor :=
    if rows.length > limit then (rows.take limit).getLast?.map (encodeHistoryCursor settings) else none

theorem matching_subset (h : row ∈ matching settings s userId filter) : row ∈ s.sessionsOf userId :=
  List.mem_of_mem_filter ((List.perm_insertionSort _ _).mem_iff.mp h)

/-- A cursor is read back as the session that it was given for. -/
theorem decodeHistoryCursor_encode (h : Codec settings rows) (hrow : row ∈ rows) (hid : row.id ≠ "") :
    decodeHistoryCursor settings (some (encodeHistoryCursor settings row)) = some (some (row.updatedAt,
    row.id)) := by
  have htext : encodeHistoryCursor settings row = Base64Url.encode (settings.jsonStringify (cursorOf row)) := by
    rw [← h.encode]
    rfl
  have hne : encodeHistoryCursor settings row ≠ "" := by
    rw [htext]
    exact Base64Url.encode_ne_empty (h.stringify row hrow)
  have hparse : settings.jsonParse (settings.base64urlDecode (encodeHistoryCursor settings row)) =
      some (cursorOf row) := by
    rw [htext, h.decode, Base64Url.decode_encode, h.parse row hrow]
  unfold decodeHistoryCursor
  have htruthy : truthy (some (encodeHistoryCursor settings row)) = some (encodeHistoryCursor settings row) := by
    simp [truthy, hne]
  rw [htruthy]
  dsimp only
  rw [hparse]
  simp [cursorOf, member, hid, h.date row hrow]

/-- The sessions after one are those that the query of its cursor finds. -/
theorem matching_after (hcodec : TextOrder settings.textLt)
    (hids : ((s.sessionsOf userId).map fun row => row.id).Nodup) (start : Option SessionRow) :
    byUpdateDesc settings ((s.sessionsOf userId).filter
      (inHistory settings filter (start.map fun row => (row.updatedAt, row.id)))) =
      after (Comes settings) (matching settings s userId filter) start := by
  cases start with
  | none => rfl
  | some row =>
    have hids' := hids.sublist (List.filter_sublist (p := inHistory settings filter none)|>.map _)
    rw [after, matching, ← byUpdateDesc_filter hcodec hids', List.filter_filter]
    refine congrArg _ (List.filter_congr fun other _ => ?_)
    have hafter : decide (Comes settings row other) = (other.updatedAt < row.updatedAt ||
        (other.updatedAt = row.updatedAt && settings.textLt other.id row.id)) := by
      rw [Bool.eq_iff_iff, decide_eq_true_iff]
      simp [Comes]
    rw [hafter]
    simp [inHistory, Bool.and_comm]

theorem listHistory_returns (env : Nat → (r : Request) → Reply r) (horder : TextOrder settings.textLt)
    (hids : ((s.sessionsOf userId).map fun row => row.id).Nodup) {cursor : Option String}
    {start : Option SessionRow}
    (hdecode : decodeHistoryCursor settings cursor = some (start.map fun row => (row.updatedAt, row.id))) :
    Returns env s (ServiceCalls.listHistory settings userId { filter with cursor }) fun page =>
      page = pageOf settings s (filter.limit.getD 20) (after (Comes settings)
      (matching settings s userId filter) start) := by
  unfold ServiceCalls.listHistory
  refine (Returns.orThrow hdecode).bind fun decoded hdecoded => ?_
  subst hdecoded
  refine (Returns.read _).bind fun sessions hsessions => ?_
  subst hsessions
  refine Returns.pure ?_
  have hrows : byUpdateDesc settings ((s.sessionsOf userId).filter (inHistory settings { filter with cursor }
      (start.map fun row => (row.updatedAt, row.id)))) =
      after (Comes settings) (matching settings s userId filter) start := matching_after horder hids start
  dsimp only
  rw [hrows]
  generalize after (Comes settings) (matching settings s userId filter) start = rows
  generalize filter.limit.getD 20 = limit
  have hlength : ((rows.take (limit + 1)).map fun row => (row, (byCreationDesc
    (s.sessionTasks row.id)).head?)).length >
      limit ↔ rows.length > limit := by
    rw [List.length_map, List.length_take]
    omega
  have hpage : ((rows.take (limit + 1)).map fun row => (row, (byCreationDesc
    (s.sessionTasks row.id)).head?)).take limit =
      (rows.take limit).map fun row => (row, (byCreationDesc (s.sessionTasks row.id)).head?) := by
    rw [← List.map_take, List.take_take, Nat.min_eq_left (Nat.le_succ limit)]
  rw [hpage, pageOf, List.flatMap_map]
  congr 1
  by_cases hmore : rows.length > limit
  · rw [if_pos (hlength.mpr hmore), if_pos hmore, List.getLast?_map, Option.map_map]
    rfl
  · rw [if_neg fun h => hmore (hlength.mp h), if_neg hmore]
    rfl

/-- A page of sessions that all have tasks. -/
theorem items_pageOf {limit : Nat} (h : ∀ row ∈ rows, s.sessionTasks row.id ≠ []) :
    (pageOf settings s limit rows).items.map some = (rows.take limit).map (itemOf s) := by
  have hsome : ∀ row ∈ rows.take limit, ∃ item, itemOf s row = some item := by
    intro row hrow
    have hperm : (byCreationDesc (s.sessionTasks row.id)).Perm (s.sessionTasks row.id) :=
      List.perm_insertionSort _ _
    have hne : byCreationDesc (s.sessionTasks row.id) ≠ [] := by
      intro hnil
      rw [hnil] at hperm
      exact h row (List.mem_of_mem_take hrow) (List.perm_nil.mp hperm.symm)
    obtain ⟨task, tasks, htasks⟩ := List.exists_cons_of_ne_nil hne
    exact ⟨historyItem row task, by rw [itemOf, htasks]; rfl⟩
  unfold pageOf
  dsimp only
  generalize rows.take limit = shown at hsome
  induction shown with
  | nil => rfl
  | cons row shown ih =>
    obtain ⟨hrow, hshown⟩ := List.forall_mem_cons.mp hsome
    obtain ⟨item, hitem⟩ := hrow
    rw [List.flatMap_cons, List.map_append, ih hshown, List.map_cons, hitem]
    rfl

/-! ## All pages -/

/-- The pages of the list are those that the cursors lead through. -/
theorem followed_of_pages (env : Nat → (r : Request) → Reply r) (hcodec : Codec settings (s.sessionsOf userId))
    (horder : TextOrder settings.textLt)
    (hlisted : Listed s (s.sessionsOf userId)) {start : Option SessionRow} {pages : List (List SessionRow)}
    (h : Pages (Comes settings) (filter.limit.getD 20) (matching settings s userId filter) start pages)
    {cursor : Option String}
    (hdecode : decodeHistoryCursor settings cursor = some (start.map fun row => (row.updatedAt, row.id))) :
    ∃ answers, Followed settings env s userId filter cursor answers ∧
      answers.map (fun page => page.items.map some) = pages.map fun rows => rows.map (itemOf s) := by
  have hafter : ∀ start row, row ∈ after (Comes settings) (matching settings s userId filter) start →
      row ∈ s.sessionsOf userId := by
    intro start row hrow
    cases start with
    | none => exact matching_subset hrow
    | some a => exact matching_subset (List.mem_of_mem_filter hrow)
  induction h generalizing cursor with
  | @last start hend =>
    obtain ⟨page, hrun, hpage⟩ := listHistory_returns env horder hlisted.ids hdecode 0
    refine ⟨[page], .last hrun ?_, ?_⟩
    · rw [hpage, pageOf, if_neg (Nat.not_lt.mpr hend)]
    · rw [List.map_singleton, List.map_singleton, hpage,
        items_pageOf fun row hrow => hlisted.tasks row (hafter start row hrow), List.take_of_length_le hend]
  | @more start a pages hmore hlast hpages ih =>
    obtain ⟨page, hrun, hpage⟩ := listHistory_returns env horder hlisted.ids hdecode 0
    have ha : a ∈ s.sessionsOf userId :=
      hafter start a (List.mem_of_mem_take (List.mem_of_getLast? hlast))
    have hnext : page.nextCursor = some (encodeHistoryCursor settings a) := by
      rw [hpage, pageOf, if_pos hmore, hlast]
      rfl
    obtain ⟨answers, hfollowed, hitems⟩ := ih (decodeHistoryCursor_encode hcodec ha (hlisted.named a ha))
    refine ⟨page :: answers, .next hrun hnext hfollowed, ?_⟩
    rw [List.map_cons, List.map_cons, hitems, hpage,
      items_pageOf fun row hrow => hlisted.tasks row (hafter start row hrow)]

/-- There is only one way to follow the cursors. -/
theorem Followed.unique {env : Nat → (r : Request) → Reply r} {cursor : Option String} {pages pages' : List HistoryPage}
    (h : Followed settings env s userId filter cursor pages)
    (h' : Followed settings env s userId filter cursor pages') : pages' = pages := by
  induction h generalizing pages' with
  | last hpage hlast =>
    cases h' with
    | last hpage' _ =>
      cases hpage.symm.trans hpage'
      rfl
    | next hpage' hnext =>
      cases hpage.symm.trans hpage'
      cases hlast.symm.trans hnext
  | next hpage hnext _ ih =>
    cases h' with
    | last hpage' hlast =>
      cases hpage.symm.trans hpage'
      cases hlast.symm.trans hnext
    | next hpage' hnext' hpages' =>
      cases hpage.symm.trans hpage'
      cases hnext.symm.trans hnext'
      rw [ih hpages']

/-- **Paging.** Following the cursors ends after finitely many pages, and together they list every matching
session exactly once, in its order; each page but the last is full. -/
theorem history_partition (settings : ServiceSettings) (env : Nat → (r : Request) → Reply r) (s : Store)
    (userId : String) (filter : HistoryQuery) (hcodec : Codec settings (s.sessionsOf userId))
    (horder : TextOrder settings.textLt) (hlisted : Listed s (s.sessionsOf userId))
    (hlimit : 1 ≤ filter.limit.getD 20) :
    ∃ pages, (∀ answers, Followed settings env s userId filter none answers ↔ answers = pages) ∧
      (∀ page ∈ pages.dropLast, page.items.length = filter.limit.getD 20) ∧
      ∃ sessions : List SessionRow, (pages.flatMap HistoryPage.items).map some = sessions.map (itemOf s) ∧
        sessions.Perm ((s.sessionsOf userId).filter (inHistory settings filter none)) ∧
        sessions.Pairwise (Comes settings) := by
  have hids := hlisted.ids.sublist (List.filter_sublist (p := inHistory settings filter none) |>.map _)
  have hsorted : (matching settings s userId filter).Pairwise (Comes settings) := pairwise_byUpdateDesc horder hids
  obtain ⟨pages, hpages, hflatten, hfull⟩ := exists_pages (comes_asymm horder) hlimit hsorted
  have hfirst : decodeHistoryCursor settings none = some none := rfl
  obtain ⟨answers, hfollowed, hitems⟩ := followed_of_pages env hcodec horder hlisted hpages hfirst
  refine ⟨answers, fun answers' => ⟨hfollowed.unique, fun heq => heq ▸ hfollowed⟩, fun page hpage => ?_,
    matching settings s userId filter, ?_, List.perm_insertionSort _ _, hsorted⟩
  · have hmem := List.mem_map_of_mem (f := fun page : HistoryPage => page.items.map some) hpage
    rw [List.map_dropLast, hitems, ← List.map_dropLast] at hmem
    obtain ⟨rows, hrows, heq⟩ := List.mem_map.mp hmem
    have hlength := congrArg List.length heq
    rw [List.length_map, List.length_map, hfull rows hrows] at hlength
    exact hlength.symm
  · rw [List.map_flatMap, List.flatMap_def, hitems, ← hflatten, List.map_flatten]

theorem textOrder_string : TextOrder fun a b => decide (a < b) where
  irrefl a := decide_eq_false (lt_irrefl a)
  trans _ _ _ hab hbc := decide_eq_true (lt_trans (of_decide_eq_true hab) (of_decide_eq_true hbc))
  total _ _ hne := (lt_or_gt_of_ne hne).imp (fun h => decide_eq_true h) fun h => decide_eq_true h

def demoSession (id : String) (updatedAt : Nat) : SessionRow :=
  ⟨⟨id, "u", "weekly report", .completed, some (id ++ "-t")⟩, updatedAt⟩

def demoTask (sessionId : String) : TaskRow where
  id := sessionId ++ "-t"
  sessionId := sessionId
  userId := "u"
  parentTaskId := none
  status := .completed
  inputText := "weekly report"
  runId := none
  adapterStreamUrl := none
  errorCode := none
  errorMessage := none
  startedAt := none
  completedAt := none
  queueJobId := none
  attemptCount := 1
  taskType := "document_summary"
  preferredTone := "balanced"
  preferredLength := "standard"
  createdAt := 0
  updatedAt := 0

/-- Two of the sessions were updated at the same time. -/
def demoRows : List SessionRow := [demoSession "a" 1700000000000, demoSession "b" 1700000000000, demoSession "c" 5]

def demoStore : Store := { Store.empty with
  sessions := ((OrderedMap.empty.set "a" (demoSession "a" 1700000000000)).set "b"
    (demoSession "b" 1700000000000)).set "c" (demoSession "c" 5)
  tasks := ((OrderedMap.empty.set "a-t" (demoTask "a")).set "b-t" (demoTask "b")).set "c-t" (demoTask "c") }

def demoStringify (json : Json) : String := .ofList (JsonText.stringify StreamCodec.demoFormat json)

/-- A parser and a calendar that know the cursors of these sessions. -/
def demoSettings : ServiceSettings := { TenantIsolation.exampleSettings with
  base64urlEncode := Base64Url.encode
  base64urlDecode := Base64Url.decode
  jsonStringify := demoStringify
  jsonParse := fun text => (demoRows.find? fun row => demoStringify (cursorOf row) = text).map cursorOf
  parseDate := fun text => (demoRows.map fun row => row.updatedAt).find? fun clock => toISOString clock = text }

theorem jsonParse_demo (text : String) : demoSettings.jsonParse text =
    (demoRows.find? fun row => demoStringify (cursorOf row) = text).map cursorOf := rfl

theorem jsonStringify_demo (json : Json) : demoSettings.jsonStringify json = demoStringify json := rfl

def onePerPage : HistoryQuery := ⟨none, some 1, none, none⟩

/-- Pages of one session each lead through the tie. -/
theorem history_partition_tie :
    ∃ pages, (∀ answers, Followed demoSettings TenantIsolation.exampleReplies demoStore "u" onePerPage none answers ↔
        answers = pages) ∧
      (∀ page ∈ pages.dropLast, page.items.length = 1) ∧
      ∃ sessions : List SessionRow, (pages.flatMap HistoryPage.items).map some = sessions.map (itemOf demoStore) ∧
        sessions.Perm ((demoStore.sessionsOf "u").filter (inHistory demoSettings onePerPage none)) ∧
        sessions.Pairwise (Comes demoSettings) := by
  have hrows : demoStore.sessionsOf "u" = demoRows := by decide +kernel
  have hfind : ∀ row ∈ demoRows,
      (demoRows.find? fun other => demoStringify (cursorOf other) = demoStringify (cursorOf row)) = some row := by
    decide +kernel
  have hcodec : Codec demoSettings (demoStore.sessionsOf "u") := by
    rw [hrows]
    refine ⟨rfl, rfl, by decide +kernel, fun row hrow => ?_, by decide +kernel⟩
    rw [jsonStringify_demo, jsonParse_demo, hfind row hrow]
    rfl
  have hlisted : Listed demoStore (demoStore.sessionsOf "u") := by
    rw [hrows]
    exact ⟨by decide, by decide, by decide⟩
  exact history_partition demoSettings TenantIsolation.exampleReplies demoStore "u" ⟨none, some 1, none,
    none⟩ hcodec
    textOrder_string hlisted le_rfl

end HistoryPaging
