import ClawWork.OrderedMap
import ClawWork.Transition

/-!
# The devices of the users

A registration writes its token's row, lists the rows of the user that are older than
the ten seen last, and deletes these; other registrations, removals and notifications
come between. A registration that an error has stopped takes no further step. A
notification posts a message to the tokens that it read, and disables those whose
tickets say that the device is gone.
-/

namespace PushTokens

open Transition

/-- A row without its `token`, which no two rows share. -/
structure PushToken where
  id : Nat
  userId : String
  platform : String
  enabled : Bool
  lastSeenAt : Nat
  deriving DecidableEq

abbrev Rows := OrderedMap String PushToken

/-- The row of a token after `upsert`. -/
def upserted (rows : Rows) (token : String) (created : PushToken) : PushToken :=
  match rows.get token with
  | some row =>
    { row with
      userId := created.userId
      platform := created.platform
      enabled := true
      lastSeenAt := created.lastSeenAt }
  | none => created

def upsert (rows : Rows) (token : String) (created : PushToken) : Rows :=
  rows.set token (upserted rows token created)

/-- The row of a token is disabled. -/
def disable (rows : Rows) (token : String) : Rows :=
  match rows.get token with
  | some row => rows.set token { row with enabled := false }
  | none => rows

/-- The row of a token is disabled if it is the user's. -/
def disableOwn (rows : Rows) (userId token : String) : Rows :=
  if ((rows.get token).map PushToken.userId) = some userId then disable rows token else rows

/-- A call of `register` whose row is written. -/
structure Registration where
  userId : String
  /-- The rows that it is about to delete. -/
  stale : Option (List Nat)

structure Input where
  userId : String
  taskId : String
  status : String
  title : String
  message : String

structure Message where
  «to» : String
  sound : String
  channelId : String
  title : String
  body : String
  taskId : String
  status : String
  deriving DecidableEq

def Input.messages (input : Input) (tokens : List String) : List Message :=
  tokens.map fun token => ⟨token, "default", "tasks", input.title, input.message, input.taskId, input.status⟩

/-- `payload.data`: the error of each ticket, where it has one. -/
abbrev Tickets := List (Option String)

/-- The tokens whose tickets report that the device is gone. -/
def invalidTokens (tokens : List String) (data : Option Tickets) : List String :=
  (tokens.zipIdx.filter fun entry => (data.getD [])[entry.2]?.join = some "DeviceNotRegistered").map Prod.fst

/-- What the statements of the calls have done to the tokens. -/
inductive Statement where
  | registered (userId token : String)
  | removed (userId token : String)
  /-- The tokens were deleted with their rows. -/
  | deleted (tokens : List String)
  /-- The push service has reported that their devices are gone. -/
  | unregistered (tokens : List String)

structure System where
  rows : Rows
  registrations : OrderedMap Nat Registration
  /-- The tokens of the notifications that wait for their tickets. -/
  notifications : OrderedMap Nat (List String)
  /-- The requests to the push service. -/
  posted : List (List Message)
  log : List Statement

def System.init : System := ⟨.empty, .empty, .empty, [], []⟩

/-- Whether `EXPO_PUSH_ENABLED` asks for notifications. -/
def pushEnabled (value : Option String) : Bool :=
  value.map (fun text => text.toList.map Char.toLower) = some "true".toList

inductive Label where
  /-- The first statement of `register`. -/
  | upsert (i : Nat) (token : String) (created : PushToken)
  /-- Its second statement has found the rows in this order. -/
  | list (i : Nat) (found : List PushToken)
  | deleteStale (i : Nat)
  | remove (userId token : String)
  /-- A task has ended, and its user's tokens were found in this order. -/
  | notify (i : Nat) (input : Input) (found : List String)
  /-- The answer of the push service, if it has one. -/
  | answered (i : Nat) (data : Option Tickets)

def userRows (rows : Rows) (userId : String) : List PushToken :=
  rows.values.filter fun row => row.userId = userId

def enabledTokens (rows : Rows) (userId : String) : List String :=
  (rows.entries.filter fun entry => entry.2.userId = userId && entry.2.enabled).map Prod.fst

def System.upsert (s : System) (i : Nat) (token : String) (created : PushToken) : System :=
  { s with
    rows := PushTokens.upsert s.rows token created
    registrations := s.registrations.set i ⟨created.userId, none⟩
    log := s.log ++ [.registered created.userId token] }

/-- The rows after the first ten are stale. -/
def System.list (s : System) (i : Nat) (registration : Registration) (found : List PushToken) : System :=
  let stale := (found.drop 10).map PushToken.id
  if stale = [] then { s with registrations := s.registrations.delete i }
  else { s with registrations := s.registrations.set i { registration with stale := some stale } }

def System.deleteStale (s : System) (i : Nat) (stale : List Nat) : System :=
  { s with
    rows := s.rows.filter fun row => row.id ∉ stale
    registrations := s.registrations.delete i
    log := s.log ++ [.deleted ((s.rows.entries.filter fun entry => entry.2.id ∈ stale).map Prod.fst)] }

def System.remove (s : System) (userId token : String) : System :=
  { s with
    rows := disableOwn s.rows userId token
    log := s.log ++ [.removed userId token] }

def System.notify (s : System) (i : Nat) (input : Input) (found : List String) : System :=
  let tokens := found.take 100
  if tokens = [] then s
  else
    { s with
      notifications := s.notifications.set i tokens
      posted := s.posted ++ [input.messages tokens] }

def System.answered (s : System) (i : Nat) (tokens : List String) (data : Option Tickets) : System :=
  let invalid := invalidTokens tokens data
  { s with
    rows := invalid.foldl disable s.rows
    notifications := s.notifications.delete i
    log := s.log ++ [.unregistered invalid] }

def step (expoPushEnabled : Option String) (s : System) : Label → Option System
  | .upsert i token created =>
    if s.registrations.get i = none ∧ created.enabled ∧ created.id ∉ s.rows.values.map PushToken.id then
      some (s.upsert i token created)
    else none
  | .list i found => do
    let registration ← s.registrations.get i
    if registration.stale = none ∧ found.Perm (userRows s.rows registration.userId) ∧
        found.Pairwise (fun a b => b.lastSeenAt ≤ a.lastSeenAt) then
      some (s.list i registration found)
    else none
  | .deleteStale i => do
    let registration ← s.registrations.get i
    let stale ← registration.stale
    some (s.deleteStale i stale)
  | .remove userId token => some (s.remove userId token)
  | .notify i input found =>
    if s.notifications.get i = none ∧ found.Perm (enabledTokens s.rows input.userId) then
      some (if pushEnabled expoPushEnabled then s.notify i input found else s)
    else none
  | .answered i data => do
    let tokens ← s.notifications.get i
    some (s.answered i tokens data)

/-- The user that the statements leave a token with. -/
def Statement.apply (holder : String → Option String) : Statement → String → Option String
  | .registered userId token, t => if t = token then some userId else holder t
  | .removed userId token, t => if t = token ∧ holder t = some userId then none else holder t
  | .deleted tokens, t => if t ∈ tokens then none else holder t
  | .unregistered tokens, t => if t ∈ tokens then none else holder t

def holder (log : List Statement) : String → Option String :=
  log.foldl Statement.apply fun _ => none

/-- The registrations of a user that are in progress or were stopped by an error. -/
def System.unfinished (s : System) (userId : String) : Nat :=
  s.registrations.values.countP fun registration => registration.userId = userId

/-! ## What a token's row says of its holder -/

variable {rows : Rows} {s s' : System} {userId token t : String}

/-- The user whose notifications reach a token. -/
def heldBy (rows : Rows) (t : String) : Option String :=
  (rows.get t).bind fun row => if row.enabled then some row.userId else none

@[simp] theorem heldBy_set (row : PushToken) :
    heldBy (rows.set token row) t =
      if t = token then (if row.enabled then some row.userId else none) else heldBy rows t := by
  unfold heldBy
  rw [OrderedMap.get_set]
  split <;> rfl

theorem heldBy_upsert {created : PushToken} (henabled : created.enabled = true) :
    heldBy (upsert rows token created) t = if t = token then some created.userId else heldBy rows t := by
  rw [upsert, heldBy_set]
  congr 1
  unfold upserted
  cases rows.get token with
  | none => simp [henabled]
  | some row => rfl

theorem heldBy_disable : heldBy (disable rows token) t = if t = token then none else heldBy rows t := by
  unfold disable
  cases hget : rows.get token with
  | none =>
    by_cases ht : t = token
    · simp [ht, heldBy, hget]
    · simp [ht]
  | some row => simp

theorem heldBy_foldl_disable (tokens : List String) :
    heldBy (tokens.foldl disable rows) t = if t ∈ tokens then none else heldBy rows t := by
  induction tokens generalizing rows with
  | nil => simp
  | cons token tokens ih =>
    rw [List.foldl_cons, ih, heldBy_disable]
    by_cases htokens : t ∈ tokens <;> by_cases ht : t = token <;> simp [htokens, ht]

theorem heldBy_disableOwn :
    heldBy (disableOwn rows userId token) t =
      if t = token ∧ heldBy rows t = some userId then none else heldBy rows t := by
  unfold disableOwn
  by_cases ht : t = token
  · subst ht
    split
    · rename_i howner
      rw [heldBy_disable, if_pos rfl]
      obtain ⟨row, hget, hrow⟩ := Option.map_eq_some_iff.mp howner
      simp [heldBy, hget, hrow]
    · rename_i howner
      refine (if_neg fun hheld => howner ?_).symm
      obtain ⟨row, hget, hrow⟩ := Option.bind_eq_some_iff.mp hheld.2
      split at hrow
      · rw [hget, Option.map_some, Option.some.inj hrow]
      · cases hrow
  · simp only [ht, false_and, if_false]
    split
    · rw [heldBy_disable, if_neg ht]
    · rfl

theorem heldBy_deleteStale (stale : List Nat) :
    heldBy (rows.filter fun row => row.id ∉ stale) t =
      if t ∈ (rows.entries.filter fun entry => entry.2.id ∈ stale).map Prod.fst then none else heldBy rows t := by
  have hmem : t ∈ (rows.entries.filter fun entry => entry.2.id ∈ stale).map Prod.fst ↔
      ∃ row, rows.get t = some row ∧ row.id ∈ stale := by
    simp [OrderedMap.get_eq_some_iff]
  unfold heldBy
  rw [OrderedMap.get_filter]
  split
  · rename_i hdeleted
    obtain ⟨row, hget, hstale⟩ := hmem.mp hdeleted
    simp [hget, hstale]
  · rename_i hkept
    cases hget : rows.get t with
    | none => rfl
    | some row =>
      have hfresh : row.id ∉ stale := fun hstale => hkept (hmem.mpr ⟨row, hget, hstale⟩)
      simp only [Option.filter_some, hfresh, not_false_eq_true, decide_true, if_true]

theorem mem_enabledTokens : t ∈ enabledTokens rows userId ↔ heldBy rows t = some userId := by
  simp only [enabledTokens, heldBy, List.mem_map, List.mem_filter, Bool.and_eq_true, decide_eq_true_eq,
    Prod.exists, Option.bind_eq_some_iff, OrderedMap.get_eq_some_iff]
  constructor
  · rintro ⟨token, row, ⟨hmem, howner, henabled⟩, rfl⟩
    exact ⟨row, hmem, by rw [if_pos henabled, howner]⟩
  · rintro ⟨row, hmem, hrow⟩
    split at hrow
    · exact ⟨t, row, ⟨hmem, Option.some.inj hrow, by assumption⟩, rfl⟩
    · cases hrow

/-! ## The number of a user's rows -/

/-- The rows of a user whose ids pass the test. -/
def owned (rows : Rows) (userId : String) (q : Nat → Bool) : Nat :=
  rows.values.countP fun row => row.userId = userId && q row.id

/-- The registrations of a user without those of the set. -/
def others (registrations : OrderedMap Nat Registration) (userId : String) (without : Nat → Bool) : Nat :=
  (registrations.restrict fun i => !without i).values.countP fun registration => registration.userId = userId

/-- The set has registrations of the user that are about to delete rows, none of which passes the test. -/
def Deleting (registrations : OrderedMap Nat Registration) (userId : String) (i : Nat → Bool) (q : Nat → Bool) : Prop :=
  ∀ j, i j = true → ∃ stale, registrations.get j = some ⟨userId, some stale⟩ ∧ ∀ id ∈ stale, q id = false

section Counts

variable {registrations : OrderedMap Nat Registration} {without : Nat → Bool} {q : Nat → Bool} {i : Nat}

theorem owned_upsert_le (rows : Rows) (userId token : String) (q : Nat → Bool) (created : PushToken) :
    owned (upsert rows token created) userId q ≤ owned rows userId q + (created.userId = userId : Bool).toNat := by
  have hset := OrderedMap.countP_set (fun row : PushToken => row.userId = userId && q row.id) rows token
    (upserted rows token created)
  have howner : (upserted rows token created).userId = created.userId := by
    unfold upserted
    cases rows.get token <;> rfl
  rw [howner] at hset
  unfold owned upsert
  by_cases hcreated : created.userId = userId
  · simp only [hcreated, decide_true, Bool.true_and, Bool.toNat_true] at hset ⊢
    have hle := Bool.toNat_le (q (upserted rows token created).id)
    omega
  · simp only [hcreated, decide_false, Bool.false_and, Bool.toNat_false] at hset ⊢
    omega

theorem owned_disable : owned (disable rows token) userId q = owned rows userId q := by
  unfold disable
  cases hget : rows.get token with
  | none => rfl
  | some row =>
    have hset := OrderedMap.countP_set (fun row : PushToken => row.userId = userId && q row.id) rows token
      { row with enabled := false }
    simp only [hget, Option.map_some, Option.getD_some] at hset
    exact Nat.add_right_cancel hset

theorem owned_disableOwn (owner : String) :
    owned (disableOwn rows owner token) userId q = owned rows userId q := by
  unfold disableOwn
  split
  · exact owned_disable
  · rfl

theorem owned_foldl_disable (tokens : List String) :
    owned (tokens.foldl disable rows) userId q = owned rows userId q := by
  induction tokens generalizing rows with
  | nil => rfl
  | cons token tokens ih => rw [List.foldl_cons, ih, owned_disable]

theorem owned_deleteStale (stale : List Nat) :
    owned (rows.filter fun row => row.id ∉ stale) userId q = owned rows userId fun id => q id && id ∉ stale := by
  have hvalues : (rows.filter fun row => row.id ∉ stale).values = rows.values.filter fun row => row.id ∉ stale := by
    simp only [OrderedMap.values, OrderedMap.filter, List.filter_map, Function.comp_def]
  simp only [owned, hvalues, List.countP_filter, Bool.and_assoc]

/-- A test that no stale row passes leaves no more than ten rows of the user. -/
theorem owned_le_of_listed {found : List PushToken} (hfound : found.Perm (userRows rows userId))
    (hstale : ∀ id ∈ (found.drop 10).map PushToken.id, q id = false) : owned rows userId q ≤ 10 := by
  have hcount : owned rows userId q = found.countP fun row => q row.id := by
    rw [hfound.countP_eq, userRows, List.countP_filter]
    exact List.countP_congr fun row _ => by rw [Bool.and_comm]
  have hdrop : (found.drop 10).countP (fun row => q row.id) = 0 := by
    refine List.countP_eq_zero.mpr fun row hrow => ?_
    simp [hstale row.id (List.mem_map_of_mem hrow)]
  calc owned rows userId q
      = (found.take 10 ++ found.drop 10).countP fun row => q row.id := by rw [List.take_append_drop, hcount]
    _ = (found.take 10).countP fun row => q row.id := by rw [List.countP_append, hdrop, Nat.add_zero]
    _ ≤ (found.take 10).length := List.countP_le_length
    _ ≤ 10 := List.length_take_le 10 found

theorem others_set (registrations : OrderedMap Nat Registration) (userId : String) (hwithout : without i = false)
    (registration : Registration) :
    others (registrations.set i registration) userId without +
        ((registrations.get i).map fun old => (old.userId = userId : Bool).toNat).getD 0 =
      others registrations userId without + (registration.userId = userId : Bool).toNat := by
  have hin : (!without i) = true := by rw [hwithout]; rfl
  have hset := OrderedMap.countP_set (fun registration : Registration => registration.userId = userId)
    (registrations.restrict fun i => !without i) i registration
  rw [OrderedMap.get_restrict, if_pos hin] at hset
  rw [others, OrderedMap.restrict_set_of_pos registrations (fun i => !without i) registration hin]
  exact hset

theorem others_delete (registrations : OrderedMap Nat Registration) (userId : String) (hwithout : without i = false) :
    others (registrations.delete i) userId without +
        ((registrations.get i).map fun old => (old.userId = userId : Bool).toNat).getD 0 =
      others registrations userId without := by
  have hin : (!without i) = true := by rw [hwithout]; rfl
  have hdelete := OrderedMap.countP_delete (fun registration : Registration => registration.userId = userId)
    (registrations.restrict fun i => !without i) i
  rw [OrderedMap.get_restrict, if_pos hin] at hdelete
  rw [others, OrderedMap.restrict_delete]
  exact hdelete

/-- A registration that is deleted is not among the others. -/
theorem others_delete_eq (i : Nat) :
    others (registrations.delete i) userId without =
      others registrations userId fun j => without j || decide (j = i) := by
  unfold others
  congr 2
  apply OrderedMap.ext_entries
  simp only [OrderedMap.restrict, OrderedMap.delete, List.filter_filter]
  refine List.filter_congr fun entry _ => ?_
  by_cases hentry : entry.1 = i <;> simp [hentry]

theorem Deleting.of_set {registration : Registration} (hwithout : without i = false)
    (h : Deleting (registrations.set i registration) userId without q) : Deleting registrations userId without q := by
  intro j hj
  have hne : j ≠ i := fun hji => by rw [hji, hwithout] at hj; cases hj
  obtain ⟨stale, hget, hq⟩ := h j hj
  rw [OrderedMap.get_set_other _ _ hne] at hget
  exact ⟨stale, hget, hq⟩

/-- A registration that is deleted is not in the set. -/
theorem Deleting.of_delete (h : Deleting (registrations.delete i) userId without q) :
    without i = false ∧ Deleting registrations userId without q := by
  have hwithout : without i = false := by
    by_contra hi
    obtain ⟨stale, hget, -⟩ := h i (Bool.eq_true_of_not_eq_false hi)
    simp at hget
  refine ⟨hwithout, fun j hj => ?_⟩
  have hne : j ≠ i := fun hji => by rw [hji, hwithout] at hj; cases hj
  obtain ⟨stale, hget, hq⟩ := h j hj
  rw [OrderedMap.get_delete_other _ hne] at hget
  exact ⟨stale, hget, hq⟩

end Counts

/-! ## Every run -/

structure Inv (s : System) : Prop where
  held : ∀ t, holder s.log t = heldBy s.rows t
  /-- Without the rows that some of a user's registrations are about to delete, the user has ten
  and one for each of the other registrations. -/
  bounded : ∀ userId without q, Deleting s.registrations userId without q →
    owned s.rows userId q ≤ 10 + others s.registrations userId without

theorem holder_append (log : List Statement) (statement : Statement) :
    holder (log ++ [statement]) = statement.apply (holder log) := by
  rw [holder, List.foldl_append]
  rfl

theorem inv_init : Inv .init where
  held _ := rfl
  bounded _ _ _ _ := Nat.zero_le _

variable {i : Nat} {registration : Registration}

theorem inv_upsert (h : Inv s) (hi : s.registrations.get i = none) {created : PushToken}
    (henabled : created.enabled = true) : Inv (s.upsert i token created) where
  held t := by
    rw [System.upsert, holder_append, heldBy_upsert henabled, Statement.apply, h.held]
  bounded userId without q hdeleting := by
    have hwithout : without i = false := by
      by_contra hi'
      obtain ⟨stale, hget, -⟩ := hdeleting i (Bool.eq_true_of_not_eq_false hi')
      simp [System.upsert] at hget
    have hbound := h.bounded userId without q (hdeleting.of_set hwithout)
    have hrows := owned_upsert_le s.rows userId token q created
    have hothers := others_set s.registrations userId hwithout ⟨created.userId, none⟩
    rw [hi, Option.map_none, Option.getD_none, Nat.add_zero] at hothers
    simp only [System.upsert, hothers]
    omega

theorem inv_list (h : Inv s) (hget : s.registrations.get i = some registration) {found : List PushToken}
    (hfound : found.Perm (userRows s.rows registration.userId)) : Inv (s.list i registration found) := by
  by_cases hstale : (found.drop 10).map PushToken.id = []
  · rw [System.list, if_pos hstale]
    refine ⟨h.held, fun userId without q hdeleting => ?_⟩
    obtain ⟨hwithout, hbefore⟩ := hdeleting.of_delete
    by_cases howner : registration.userId = userId
    · subst howner
      have hlisted := owned_le_of_listed (q := q) hfound (by rw [hstale]; simp)
      dsimp only
      omega
    · have hothers := others_delete s.registrations userId hwithout
      rw [hget, Option.map_some, Option.getD_some, decide_eq_false howner, Bool.toNat_false, Nat.add_zero] at hothers
      rw [hothers]
      exact h.bounded userId without q hbefore
  · rw [System.list, if_neg hstale]
    refine ⟨h.held, fun userId without q hdeleting => ?_⟩
    cases hwithout : without i with
    | true =>
      obtain ⟨stale, hlisted, hq⟩ := hdeleting i hwithout
      rw [OrderedMap.get_set_same, Option.some.injEq, Registration.mk.injEq, Option.some.injEq] at hlisted
      obtain ⟨rfl, rfl⟩ := hlisted
      have hlisted := owned_le_of_listed hfound hq
      dsimp only
      omega
    | false =>
      have hothers := others_set s.registrations userId hwithout
        { registration with stale := some ((found.drop 10).map PushToken.id) }
      rw [hget, Option.map_some, Option.getD_some] at hothers
      rw [Nat.add_right_cancel hothers]
      exact h.bounded userId without q (hdeleting.of_set hwithout)

theorem inv_deleteStale (h : Inv s) {stale : List Nat}
    (hget : s.registrations.get i = some ⟨userId, some stale⟩) : Inv (s.deleteStale i stale) where
  held t := by
    rw [System.deleteStale, holder_append, heldBy_deleteStale, Statement.apply, h.held]
  bounded owner without q hdeleting := by
    dsimp only [System.deleteStale] at hdeleting ⊢
    rw [owned_deleteStale]
    obtain ⟨hwithout, hbefore⟩ := hdeleting.of_delete
    have hkept : Deleting s.registrations owner without fun id => q id && id ∉ stale := by
      intro j hj
      obtain ⟨named, hnamed, hq⟩ := hbefore j hj
      exact ⟨named, hnamed, fun id hid => by simp [hq id hid]⟩
    by_cases howner : userId = owner
    · -- its own rows were left out of the count before
      subst howner
      rw [others_delete_eq]
      refine h.bounded userId _ _ fun j hj => ?_
      by_cases hji : j = i
      · subst hji
        exact ⟨stale, hget, fun id hid => by simp [hid]⟩
      · rw [decide_eq_false hji, Bool.or_false] at hj
        exact hkept j hj
    · have hothers := others_delete s.registrations owner hwithout
      rw [hget, Option.map_some, Option.getD_some, decide_eq_false howner, Bool.toNat_false, Nat.add_zero] at hothers
      rw [hothers]
      exact h.bounded owner without _ hkept

theorem inv_remove (h : Inv s) (userId token : String) : Inv (s.remove userId token) where
  held t := by
    rw [System.remove, holder_append, heldBy_disableOwn, Statement.apply, h.held]
  bounded owner without q hdeleting := by
    rw [System.remove, owned_disableOwn]
    exact h.bounded owner without q hdeleting

theorem inv_answered (h : Inv s) (i : Nat) (tokens : List String) (data : Option Tickets) :
    Inv (s.answered i tokens data) where
  held t := by
    rw [System.answered, holder_append, heldBy_foldl_disable, Statement.apply, h.held]
  bounded owner without q hdeleting := by
    rw [System.answered, owned_foldl_disable]
    exact h.bounded owner without q hdeleting

theorem inv_notify (h : Inv s) (i : Nat) (input : Input) (found : List String) : Inv (s.notify i input found) := by
  unfold System.notify
  dsimp only
  split
  · exact h
  · exact ⟨h.held, h.bounded⟩

variable {expoPushEnabled : Option String} {ls : List Label}

theorem inv_step (h : Inv s) {label : Label} (hstep : step expoPushEnabled s label = some s') : Inv s' := by
  cases label with
  | upsert i token created =>
    simp only [step] at hstep
    split at hstep
    · rename_i hnew
      rw [← Option.some.inj hstep]
      exact inv_upsert h hnew.1 hnew.2.1
    · cases hstep
  | list i found =>
    obtain ⟨registration, hget, hstep⟩ := Option.bind_eq_some_iff.mp hstep
    split at hstep
    · rename_i hlisted
      rw [← Option.some.inj hstep]
      exact inv_list h hget hlisted.2.1
    · cases hstep
  | deleteStale i =>
    obtain ⟨⟨userId, named⟩, hget, hstep⟩ := Option.bind_eq_some_iff.mp hstep
    obtain ⟨stale, rfl, hstep⟩ := Option.bind_eq_some_iff.mp hstep
    rw [← Option.some.inj hstep]
    exact inv_deleteStale h hget
  | remove userId token =>
    rw [← Option.some.inj hstep]
    exact inv_remove h userId token
  | notify i input found =>
    simp only [step] at hstep
    split at hstep
    · rw [← Option.some.inj hstep]
      split
      · exact inv_notify h i input found
      · exact h
    · cases hstep
  | answered i data =>
    obtain ⟨tokens, -, hstep⟩ := Option.bind_eq_some_iff.mp hstep
    rw [← Option.some.inj hstep]
    exact inv_answered h i tokens data

theorem inv_run (hrun : run (step expoPushEnabled) .init ls = some s) : Inv s :=
  invariant_run (fun _ _ _ h => inv_step h) inv_init hrun

theorem Inv.userRows_le (h : Inv s) (userId : String) : (userRows s.rows userId).length ≤ 10 + s.unfinished userId := by
  have hbound := h.bounded userId (fun _ => false) (fun _ => true) fun j hj => by cases hj
  have hrows : owned s.rows userId (fun _ => true) = (userRows s.rows userId).length := by
    simp only [owned, userRows, Bool.and_true, List.countP_eq_length_filter]
  have hothers : others s.registrations userId (fun _ => false) = s.unfinished userId := by
    unfold others System.unfinished
    congr 2
    exact OrderedMap.ext_entries (List.filter_eq_self.mpr fun _ _ => rfl)
  rwa [hrows, hothers] at hbound

/-- However registrations, removals and notifications are interleaved, a user has no more than ten
devices and one for each of the user's registrations that are in progress or have failed. -/
theorem devices_bounded (hrun : run (step expoPushEnabled) .init ls = some s) (userId : String) :
    (userRows s.rows userId).length ≤ 10 + s.unfinished userId :=
  (inv_run hrun).userRows_le userId

def device (n : Nat) : PushToken := ⟨n, "u1", "ios", true, n⟩

/-- Eleven devices of one user, of which the first is deleted, and a twelfth that has not listed the others. -/
def twelveDevices : List Label :=
  ((List.range 11).flatMap fun n =>
    [.upsert n (toString n) (device n), .list n ((List.range (n + 1)).reverse.map device)]) ++
    [.deleteStale 10, .upsert 11 "11" (device 11)]

theorem devices_bounded_twelveDevices : ∃ s, run (step none) .init twelveDevices = some s ∧
    s.rows.get "0" = none ∧ s.unfinished "u1" = 1 ∧ (userRows s.rows "u1").length ≤ 11 := by
  have hrun : (run (step none) .init twelveDevices).any
      (fun s => s.rows.get "0" = none ∧ s.unfinished "u1" = 1) = true := by
    decide +kernel
  obtain ⟨s, hrun, hs⟩ := (Option.any_eq_true _ _).mp hrun
  obtain ⟨hfirst, hunfinished⟩ := of_decide_eq_true hs
  have hbounded := devices_bounded hrun "u1"
  rw [hunfinished] at hbounded
  exact ⟨s, hrun, hfirst, hunfinished, hbounded⟩

/-- A notification is posted for no token but those that their last statements have left with its user,
and for all of them while fewer than ninety of the user's registrations are unfinished. -/
theorem notified_holders (hrun : run (step expoPushEnabled) .init ls = some s) {i : Nat} {input : Input}
    {found : List String} (hstep : step expoPushEnabled s (.notify i input found) = some s') :
    ∃ tokens, s'.posted = s.posted ++
        (if pushEnabled expoPushEnabled ∧ tokens ≠ [] then [input.messages tokens] else []) ∧
      tokens.Nodup ∧ tokens.length ≤ 100 ∧ (∀ t ∈ tokens, holder s.log t = some input.userId) ∧
      (s.unfinished input.userId ≤ 90 → ∀ t, holder s.log t = some input.userId → t ∈ tokens) := by
  have hinv := inv_run hrun
  simp only [step] at hstep
  split at hstep
  · rename_i hfound
    obtain ⟨-, hperm⟩ := hfound
    refine ⟨found.take 100, ?_, ?_, List.length_take_le 100 found, fun t ht => ?_, fun hunfinished t ht => ?_⟩
    · rw [← Option.some.inj hstep]
      by_cases henabled : pushEnabled expoPushEnabled = true
      · by_cases hnone : found.take 100 = []
        · simp [System.notify, hnone]
        · simp [System.notify, hnone, henabled]
      · simp [henabled]
    · refine (List.take_sublist 100 found).nodup (hperm.nodup_iff.mpr ?_)
      exact s.rows.nodup.sublist (List.filter_sublist.map Prod.fst)
    · rw [hinv.held, ← mem_enabledTokens]
      exact hperm.mem_iff.mp (List.mem_of_mem_take ht)
    · have hlength : found.length ≤ (userRows s.rows input.userId).length := by
        rw [hperm.length_eq, enabledTokens, userRows, OrderedMap.values, List.length_map, List.filter_map,
          List.length_map]
        refine (List.monotone_filter_right _ fun entry hentry => ?_).length_le
        exact (Bool.and_eq_true _ _ ▸ hentry).1
      have hbounded := hinv.userRows_le input.userId
      rw [List.take_of_length_le (by omega)]
      exact hperm.mem_iff.mpr (mem_enabledTokens.mpr (hinv.held t ▸ ht))
  · cases hstep

/-- A device that its next user has taken over before the notification of the user before. -/
def takenOver : List Label :=
  [.upsert 0 "phone" ⟨0, "u1", "ios", true, 0⟩, .list 0 [⟨0, "u1", "ios", true, 0⟩],
    .upsert 1 "tablet" ⟨1, "u1", "ios", true, 1⟩, .upsert 2 "phone" ⟨2, "u2", "ios", true, 2⟩]

theorem notified_holders_takenOver : ∃ s s', run (step (some "TRUE")) .init takenOver = some s ∧
    step (some "TRUE") s (.notify 0 ⟨"u1", "t1", "completed", "report", "done"⟩ ["tablet"]) = some s' ∧
    holder s.log "phone" = some "u2" ∧
    s'.posted = [[⟨"tablet", "default", "tasks", "report", "done", "t1", "completed"⟩]] ∧
    ∃ tokens : List String, tokens.Nodup ∧ ∀ t ∈ tokens, holder s.log t = some "u1" := by
  have hrun : (run (step (some "TRUE")) .init takenOver).any (fun s => holder s.log "phone" = some "u2" ∧
      (step (some "TRUE") s (.notify 0 ⟨"u1", "t1", "completed", "report", "done"⟩ ["tablet"])).any fun s' =>
        s'.posted = [[⟨"tablet", "default", "tasks", "report", "done", "t1", "completed"⟩]]) = true := by
    decide +kernel
  obtain ⟨s, hrun, hs⟩ := (Option.any_eq_true _ _).mp hrun
  obtain ⟨hholder, hs⟩ := of_decide_eq_true hs
  obtain ⟨s', hstep, hs'⟩ := (Option.any_eq_true _ _).mp hs
  obtain ⟨tokens, -, hnodup, -, hheld, -⟩ := notified_holders hrun hstep
  exact ⟨s, s', hrun, hstep, hholder, of_decide_eq_true hs', tokens, hnodup, hheld⟩

end PushTokens
