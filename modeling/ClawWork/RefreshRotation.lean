import ClawWork.AuthService
import ClawWork.Transition

/-!
# The rotation of refresh tokens

A refresh token gives at most one session, and none once a logout has revoked it:
the claim of a refresh call tests the row again under its lock, so of all the
updates of a row only one can find it unrevoked.
-/

namespace RefreshRotation

open ReadCommitted AuthService Transition

variable {settings : AuthSettings} {s s' : System} {i j : Nat} {table table' : TokenTable}
  {server server' : TokenServer} {token : String} {call : Call}

/-- The call presents the token, and its claim has succeeded. -/
def Claims (token : String) (call : Call) : Prop :=
  call.request = .refresh token ∧
    match call.phase with
    | .entering _ | .creatingSession _ _ | .returned _ => True
    | _ => False

/-- The refresh call has claimed the token, and has not failed since. -/
def Claimed (s : System) (i : Nat) (token : String) : Prop := ∃ call ∈ s.calls.get i, Claims token call

/-- The refresh call has got a session from the token. -/
def Refreshed (s : System) (i : Nat) (token : String) : Prop :=
  ∃ call ∈ s.calls.get i, call.request = .refresh token ∧ ∃ session, call.phase = .returned session

/-- The step commits the update of a logout, which has changed the row of the token. -/
def LogsOut (s : System) (token : String) (l : Label) : Prop :=
  ∃ i call userId update, s.calls.get i = some call ∧ (l = .advance i .statement ∨ l = .advance i .lost) ∧
    call.request = .logout userId token ∧ call.phase = .revoking update ∧ update.rows = some [] ∧ update.count ≠ 0

/-! ## Rows -/

/-- Rows keep their hash, and what is revoked stays revoked. -/
def Ages (table table' : TokenTable) : Prop := ∀ id row, table.rows.get id = some row →
  ∃ row', table'.rows.get id = some row' ∧ row'.tokenHash = row.tokenHash ∧
    (row.revokedAt ≠ none → row'.revokedAt ≠ none)

theorem Ages.refl (table : TokenTable) : Ages table table :=
  fun _ row hget => ⟨row, hget, rfl, fun h => h⟩

theorem Ages.trans {table'' : TokenTable} (h : Ages table table') (h' : Ages table' table'') :
    Ages table table'' := by
  intro id row hget
  obtain ⟨row', hget', hhash, hrevoked⟩ := h id row hget
  obtain ⟨row'', hget'', hhash', hrevoked'⟩ := h' id row' hget'
  exact ⟨row'', hget'', hhash'.trans hhash, fun hne => hrevoked' (hrevoked hne)⟩

theorem revoke_get (id k : String) (now : Nat) (table : TokenTable) :
    (table.revoke id now).rows.get k =
      if k = id then (table.rows.get k).map fun row => { row with revokedAt := some now }
      else table.rows.get k := by
  unfold TokenTable.revoke
  dsimp only
  by_cases hk : k = id
  · rw [if_pos hk, hk]
    cases hget : table.rows.get id with
    | none => exact hget
    | some row => exact OrderedMap.get_set_same _ _ _
  · rw [if_neg hk]
    cases hget : table.rows.get id with
    | none => rfl
    | some row => exact OrderedMap.get_set_other _ _ hk

theorem ages_revoke (id : String) (now : Nat) (table : TokenTable) : Ages table (table.revoke id now) := by
  intro k row hget
  rw [revoke_get]
  split
  · rw [hget]
    exact ⟨_, rfl, rfl, fun _ => by simp⟩
  · exact ⟨row, hget, rfl, fun h => h⟩

theorem create_get {id : String} {new : RefreshToken} (h : table.create id new = some table') {k : String}
    {row : RefreshToken} (hget : table.rows.get k = some row) : table'.rows.get k = some row := by
  unfold TokenTable.create at h
  split at h
  · rename_i hfree
    cases h
    have hne : k ≠ id := by
      intro heq
      rw [heq, hfree.2] at hget
      cases hget
    exact (OrderedMap.get_set_other _ _ hne).trans hget
  · cases h

theorem ages_create {id : String} {new : RefreshToken} (h : table.create id new = some table') :
    Ages table table' :=
  fun _ row hget => ⟨row, create_get h hget, rfl, fun hne => hne⟩

/-- The pending writes of every transaction revoke rows that it has locked. -/
def Guarded (server : TokenServer) : Prop := ∀ i, ∀ w ∈ server.writes i,
  ∃ id now, w = .revoke id now ∧ server.locks id = some i

/-- What writes of this kind do to the rows. -/
theorem applyWrites_revoke {ws : List (TokenTable → TokenTable)} {keys : String → Prop}
    (h : ∀ w ∈ ws, ∃ id now, w = .revoke id now ∧ keys id) (table : TokenTable) :
    Ages table (applyWrites ws table) ∧
      ∀ k, ¬ keys k → (applyWrites ws table).rows.get k = table.rows.get k := by
  induction ws generalizing table with
  | nil => exact ⟨.refl table, fun _ _ => rfl⟩
  | cons w ws ih =>
    obtain ⟨id, now, rfl, hid⟩ := h w List.mem_cons_self
    obtain ⟨hages, hkept⟩ := ih (fun w hw => h w (List.mem_cons_of_mem _ hw)) (table.revoke id now)
    rw [applyWrites_cons]
    refine ⟨(ages_revoke id now table).trans hages, fun k hk => ?_⟩
    have hne : k ≠ id := fun heq => hk (heq ▸ hid)
    rw [hkept k hk, revoke_get, if_neg hne]

theorem ages_view (h : Guarded server) (i : Nat) : Ages server.db (server.view i) :=
  (applyWrites_revoke (h i) server.db).1

theorem view_get (h : Guarded server) {k : String} (hfree : server.locks k ≠ some i) :
    (server.view i).rows.get k = server.db.rows.get k :=
  (applyWrites_revoke (h i) server.db).2 k hfree

/-- A row that a pending write revokes is revoked in the view of its transaction. -/
theorem revoked_view (h : Guarded server) {id : String} {now : Nat} {row : RefreshToken}
    (hget : server.db.rows.get id = some row) (hw : TokenTable.revoke id now ∈ server.writes i) :
    ∃ row', (server.view i).rows.get id = some row' ∧ row'.tokenHash = row.tokenHash ∧ row'.revokedAt ≠ none := by
  obtain ⟨before, after, hsplit⟩ := List.append_of_mem hw
  have hguarded := h i
  rw [hsplit] at hguarded
  have hbefore := (applyWrites_revoke (fun w hw => hguarded w (List.mem_append_left _ hw)) server.db).1
  have hafter : ∀ table, Ages table (applyWrites after table) := fun table => (applyWrites_revoke
    (fun w hw => hguarded w (List.mem_append_right _ (List.mem_cons_of_mem _ hw))) table).1
  obtain ⟨row₁, hget₁, hhash₁, -⟩ := hbefore id row hget
  have hget₂ : ((applyWrites before server.db).revoke id now).rows.get id =
      some { row₁ with revokedAt := some now } := by
    rw [revoke_get, if_pos rfl, hget₁]
    rfl
  obtain ⟨row₃, hget₃, hhash₃, hrevoked⟩ := hafter _ id _ hget₂
  refine ⟨row₃, ?_, hhash₃.trans hhash₁, hrevoked (by simp)⟩
  rw [Server.view, hsplit, applyWrites_append]
  exact hget₃

/-! ## What a call does to the tokens -/

/-- The other transactions keep their writes and their locks, and the rows that call `i` has not locked stay. -/
structure Moves (i : Nat) (server server' : TokenServer) : Prop where
  ages : Ages server.db server'.db
  writes : ∀ j, j ≠ i → server'.writes j = server.writes j
  locks : ∀ j k, j ≠ i → server.locks k = some j → server'.locks k = some j
  stays : ∀ k row, server.db.rows.get k = some row → server.locks k ≠ some i → server'.db.rows.get k = some row

theorem Moves.refl (i : Nat) (server : TokenServer) : Moves i server server where
  ages := .refl _
  writes := fun _ _ => rfl
  locks := fun _ _ _ h => h
  stays := fun _ _ h _ => h

theorem Guarded.rollback (h : Guarded server) (i : Nat) : Guarded (server.rollback i) := by
  intro j w hw
  rw [Server.rollback_writes] at hw
  split at hw
  · cases hw
  · rename_i hne
    obtain ⟨id, now, heq, hlock⟩ := h j w hw
    exact ⟨id, now, heq, Server.rollback_locks_other hne hlock⟩

theorem moves_rollback (i : Nat) (server : TokenServer) : Moves i server (server.rollback i) where
  ages := .refl _
  writes := fun j hne => by rw [Server.rollback_writes, if_neg hne]
  locks := fun _ _ hne hlock => Server.rollback_locks_other hne hlock
  stays := fun _ _ hget _ => hget

theorem moves_commit (h : Guarded server) (i : Nat) : Moves i server (server.commit i) where
  ages := ages_view h i
  writes := (moves_rollback i server).writes
  locks := (moves_rollback i server).locks
  stays := fun _ _ hget hfree => (view_get h hfree).trans hget

theorem moves_create {id : String} {new : RefreshToken} (h : server.db.create id new = some table) :
    Moves i server (server.direct fun _ => table) where
  ages := ages_create h
  writes := fun _ _ => rfl
  locks := fun _ _ _ hlock => hlock
  stays := fun _ _ hget _ => create_get h hget

/-- The row is locked and revoked by the call. -/
theorem revoke_locked (now : Nat) (h : Guarded server) {locked : TokenServer} {id : String}
    (hlocked : server.acquire i id = some locked) :
    Guarded (locked.write i (.revoke id now)) ∧ Moves i server (locked.write i (.revoke id now)) ∧
      locked.locks id = some i := by
  obtain ⟨hdb, hwrites, hlocks⟩ := Server.acquire_eq_some hlocked
  have hheld : locked.locks id = some i := by rw [hlocks, Function.update_self]
  refine ⟨fun j w hw => ?_, ⟨?_, fun j hne => ?_, fun j k _ hlock => ?_, fun k row hget _ => ?_⟩, hheld⟩
  · rw [Server.write_writes] at hw
    split at hw
    · rename_i hji
      rcases List.mem_append.mp hw with hold | hnew
      · rw [hwrites] at hold
        obtain ⟨k, t, heq, hlock⟩ := h i w hold
        rw [hji]
        exact ⟨k, t, heq, Server.acquire_keeps hlocked hlock⟩
      · rw [List.mem_singleton.mp hnew, hji]
        exact ⟨id, now, rfl, hheld⟩
    · rw [hwrites] at hw
      obtain ⟨k, t, heq, hlock⟩ := h j w hw
      exact ⟨k, t, heq, Server.acquire_keeps hlocked hlock⟩
  · rw [Server.write_db, hdb]
    exact .refl _
  · rw [Server.write_writes, if_neg hne, hwrites]
  · exact Server.acquire_keeps hlocked hlock
  · rw [Server.write_db, hdb]
    exact hget

/-! ## An update of the tokens -/

/-- What one move of an `updateMany` is. -/
inductive Moved (i : Nat) (server : TokenServer) (update : UpdateMany) :
    TokenServer × (UpdateMany ⊕ Nat) → Prop
  | chosen (hrows : update.rows = none) : Moved i server update (server, .inl (update.choose server.db))
  | changed {id : String} {rest : List String} {locked : TokenServer} {row : RefreshToken}
      (hrows : update.rows = some (id :: rest)) (hlocked : server.acquire i id = some locked)
      (hget : (locked.view i).rows.get id = some row) (hholds : update.clause.holds id row = true) :
      Moved i server update (locked.write i (.revoke id update.revokedAt),
        .inl { update with rows := some rest, count := update.count + 1 })
  | skipped {id : String} {rest : List String} (hrows : update.rows = some (id :: rest)) :
      Moved i server update (server, .inl { update with rows := some rest })
  | committed (hrows : update.rows = some []) : Moved i server update (server.commit i, .inr update.count)

theorem next_moved {update : UpdateMany} {result : TokenServer × (UpdateMany ⊕ Nat)}
    (h : update.next i server = some result) : Moved i server update result := by
  unfold UpdateMany.next at h
  split at h
  · rename_i hrows
    cases h
    exact .chosen hrows
  · rename_i id rest hrows
    obtain ⟨⟨server', update'⟩, hlock, rfl⟩ := Option.map_eq_some_iff.mp h
    obtain ⟨locked, hlocked, hlock⟩ := Option.bind_eq_some_iff.mp hlock
    split at hlock
    · rename_i row hget
      split at hlock <;> cases hlock
      · rename_i hholds
        exact .changed hrows hlocked hget hholds
      · exact .skipped hrows
    · cases hlock
      exact .skipped hrows
  · rename_i hrows
    cases h
    exact .committed hrows

/-- The rows that the clause chooses have the hash. -/
def About (hash : String) (table : TokenTable) : Clause → Prop
  | .record id _ => ∃ row, table.rows.get id = some row ∧ row.tokenHash = hash
  | .token _ tokenHash => tokenHash = hash

theorem About.ages {hash : String} {clause : Clause} (h : About hash table clause) (hages : Ages table table') :
    About hash table' clause := by
  cases clause with
  | record id now =>
    obtain ⟨row, hget, hhash⟩ := h
    obtain ⟨row', hget', hhash', -⟩ := hages id row hget
    exact ⟨row', hget', hhash'.trans hhash⟩
  | token userId tokenHash => exact h

theorem About.row {hash id : String} {clause : Clause} {row : RefreshToken} (h : About hash table clause)
    (hget : table.rows.get id = some row) (hholds : clause.holds id row = true) :
    row.tokenHash = hash ∧ row.revokedAt = none := by
  cases clause with
  | record key now =>
    simp only [Clause.holds, Bool.and_eq_true, decide_eq_true_eq] at hholds
    obtain ⟨row', hget', hhash⟩ := h
    rw [← hholds.1.1, hget, Option.some.injEq] at hget'
    exact ⟨hget' ▸ hhash, hholds.1.2⟩
  | token userId tokenHash =>
    simp only [Clause.holds, Bool.and_eq_true, decide_eq_true_eq] at hholds
    exact ⟨hholds.1.2.trans h, hholds.2⟩

/-- The row of the hash is not revoked. -/
def Live (hash : String) (table : TokenTable) : Prop :=
  ∃ id row, table.rows.get id = some row ∧ row.tokenHash = hash ∧ row.revokedAt = none

def Revoked (hash : String) (table : TokenTable) : Prop :=
  ∃ id row, table.rows.get id = some row ∧ row.tokenHash = hash ∧ row.revokedAt ≠ none

theorem Revoked.not_live {hash : String} (h : Revoked hash table) : ¬ Live hash table := by
  rintro ⟨id, row, hget, hhash, hlive⟩
  obtain ⟨id', row', hget', hhash', hrevoked⟩ := h
  have heq := table.unique id id' row row' hget hget' (hhash.trans hhash'.symm)
  rw [heq, hget', Option.some.injEq] at hget
  exact hrevoked (hget ▸ hlive)

theorem Revoked.ages {hash : String} (h : Revoked hash table) (hages : Ages table table') :
    Revoked hash table' := by
  obtain ⟨id, row, hget, hhash, hrevoked⟩ := h
  obtain ⟨row', hget', hhash', hrevoked'⟩ := hages id row hget
  exact ⟨id, row', hget', hhash'.trans hhash, hrevoked' hrevoked⟩

/-- The update has locked the row of the hash, and will revoke it. -/
def Takes (hash : String) (server : TokenServer) (i : Nat) : Prop :=
  ∃ id row now, TokenTable.revoke id now ∈ server.writes i ∧ server.locks id = some i ∧
    server.db.rows.get id = some row ∧ row.tokenHash = hash ∧ row.revokedAt = none

/-- An update for the row of the hash has changed nothing yet, or has taken the row. -/
def Updating (hash : String) (server : TokenServer) (i : Nat) (update : UpdateMany) : Prop :=
  About hash server.db update.clause ∧
    ((update.count = 0 ∧ server.writes i = []) ∨ Takes hash server i)

theorem Takes.live {hash : String} (h : Takes hash server i) : Live hash server.db := by
  obtain ⟨id, row, -, -, -, hget, hhash, hlive⟩ := h
  exact ⟨id, row, hget, hhash, hlive⟩

/-- What the others do leaves the row to the update. -/
theorem Takes.moves {hash : String} (h : Takes hash server i) (hmoves : Moves j server server') (hne : i ≠ j) :
    Takes hash server' i := by
  obtain ⟨id, row, now, hw, hlock, hget, hhash, hlive⟩ := h
  refine ⟨id, row, now, ?_, hmoves.locks i id hne hlock, hmoves.stays id row hget ?_, hhash, hlive⟩
  · rw [hmoves.writes i hne]
    exact hw
  · rw [hlock]
    exact fun heq => hne (Option.some.inj heq)

theorem Updating.moves {hash : String} {update : UpdateMany} (h : Updating hash server i update)
    (hmoves : Moves j server server') (hne : i ≠ j) : Updating hash server' i update := by
  refine ⟨h.1.ages hmoves.ages, h.2.imp (fun hnone => ⟨hnone.1, ?_⟩) fun htakes => htakes.moves hmoves hne⟩
  rw [hmoves.writes i hne]
  exact hnone.2

theorem Takes.commit {hash : String} (h : Takes hash server i) (hguarded : Guarded server) :
    Revoked hash (server.commit i).db := by
  obtain ⟨id, row, now, hw, -, hget, hhash, -⟩ := h
  obtain ⟨row', hget', hhash', hrevoked⟩ := revoked_view hguarded hget hw
  exact ⟨id, row', hget', hhash'.trans hhash, hrevoked⟩

/-- A move of an update that has not committed. -/
theorem updating_moved {hash : String} {update update' : UpdateMany} (hguarded : Guarded server)
    (h : Updating hash server i update) (hmoved : Moved i server update (server', .inl update')) :
    Guarded server' ∧ Moves i server server' ∧ Updating hash server' i update' := by
  generalize hresult : (server', Sum.inl update') = result at hmoved
  cases hmoved with
  | chosen hrows =>
    cases hresult
    exact ⟨hguarded, .refl _ _, h⟩
  | @changed id rest locked row hrows hlocked hget hholds =>
    cases hresult
    obtain ⟨hguarded', hmoves, hheld⟩ := revoke_locked update.revokedAt hguarded hlocked
    obtain ⟨hdb, hwrites, -⟩ := Server.acquire_eq_some hlocked
    refine ⟨hguarded', hmoves, h.1.ages hmoves.ages, .inr ?_⟩
    rcases h.2 with ⟨-, hnone⟩ | ⟨id', row', now', hw, hlock, hget', hhash, hlive⟩
    · rw [Server.view_of_writes_nil (by rw [hwrites, hnone]), hdb] at hget
      obtain ⟨hhash, hlive⟩ := h.1.row hget hholds
      refine ⟨id, row, update.revokedAt, ?_, hheld, ?_, hhash, hlive⟩
      · rw [Server.write_writes, if_pos rfl]
        exact List.mem_append_right _ List.mem_cons_self
      · rw [Server.write_db, hdb]
        exact hget
    · refine ⟨id', row', now', ?_, Server.acquire_keeps hlocked hlock, ?_, hhash, hlive⟩
      · rw [Server.write_writes, if_pos rfl, hwrites]
        exact List.mem_append_left _ hw
      · rw [Server.write_db, hdb]
        exact hget'
  | skipped hrows =>
    cases hresult
    exact ⟨hguarded, .refl _ _, h⟩
  | committed hrows => cases hresult

theorem updating_committed {hash : String} {update : UpdateMany} {count : Nat}
    (h : Updating hash server i update) (hmoved : Moved i server update (server', .inr count)) :
    server' = server.commit i ∧ (count ≠ 0 → Takes hash server i) := by
  generalize hresult : (server', Sum.inr count) = result at hmoved
  cases hmoved with
  | committed hrows =>
    cases hresult
    exact ⟨rfl, fun hne => h.2.resolve_left fun hnone => hne hnone.1⟩
  | chosen hrows => cases hresult
  | changed hrows hlocked hget hholds => cases hresult
  | skipped hrows => cases hresult

/-! ## The calls -/

/-- What is known of a call in each phase. -/
def CallInv (settings : AuthSettings) (server : TokenServer) (i : Nat) (call : Call) : Prop :=
  match call.phase with
  | .findingToken _ tokenHash => ∃ token, call.request = .refresh token ∧ tokenHash =
      settings.hashRefreshToken token
  | .foundToken _ record => ∃ token, call.request = .refresh token ∧ ∀ id row user, record = some (id, row, user) →
      ∃ row', server.db.rows.get id = some row' ∧ row'.tokenHash = settings.hashRefreshToken token
  | .claiming _ update => ∃ token, call.request = .refresh token ∧
      Updating (settings.hashRefreshToken token) server i update
  | .revoking update => ∃ userId token, call.request = .logout userId token ∧
      Updating (settings.hashRefreshToken token) server i update
  | .entering _ | .creatingSession _ _ | .returned _ =>
    ∀ token, call.request = .refresh token → Revoked (settings.hashRefreshToken token) server.db
  | .loggedOut _ | .rejected _ | .threw => True
  | _ => ∀ token, call.request ≠ .refresh token

theorem CallInv.moves (h : CallInv settings server i call) (hmoves : Moves j server server') (hne : i ≠ j) :
    CallInv settings server' i call := by
  unfold CallInv at h ⊢
  split at h <;> try exact h
  · obtain ⟨token, hrequest, hrow⟩ := h
    refine ⟨token, hrequest, fun id row user hrecord => ?_⟩
    obtain ⟨row', hget, hhash⟩ := hrow id row user hrecord
    obtain ⟨row'', hget', hhash', -⟩ := hmoves.ages id row' hget
    exact ⟨row'', hget', hhash'.trans hhash⟩
  · obtain ⟨token, hrequest, hupdating⟩ := h
    exact ⟨token, hrequest, hupdating.moves hmoves hne⟩
  · obtain ⟨userId, token, hrequest, hupdating⟩ := h
    exact ⟨userId, token, hrequest, hupdating.moves hmoves hne⟩
  all_goals exact fun token hrequest => (h token hrequest).ages hmoves.ages

/-- What a step of call `i` keeps, and that it claims no token but an unrevoked one. -/
structure Advances (settings : AuthSettings) (i : Nat) (server server' : TokenServer) (call call' : Call) :
    Prop where
  guarded : Guarded server'
  moves : Moves i server server'
  inv : CallInv settings server' i call'
  idle : call'.phase.isUpdating = false → server'.writes i = []
  fresh : ∀ token, Claims token call' → Claims token call ∨ Live (settings.hashRefreshToken token) server.db

/-- A step that leaves the tokens alone and claims nothing. -/
theorem advances_same {phase : Phase} (hguarded : Guarded server)
    (hidle : server.writes i = []) (hinv : CallInv settings server i { call with phase })
    (hfresh : ∀ token, Claims token { call with phase } → Claims token call) :
    Advances settings i server server call { call with phase } where
  guarded := hguarded
  moves := .refl _ _
  inv := hinv
  idle := fun _ => hidle
  fresh := fun token h => .inl (hfresh token h)

theorem advances_threw (hguarded : Guarded server) :
    Advances settings i server (server.rollback i) call { call with phase := .threw } where
  guarded := hguarded.rollback i
  moves := moves_rollback i server
  inv := trivial
  idle := fun _ => by rw [Server.rollback_writes, if_pos rfl]
  fresh := fun _ h => h.2.elim

/-- An update that commits ends its transaction. -/
theorem advances_commit {phase : Phase} (hguarded : Guarded server)
    (hinv : CallInv settings (server.commit i) i { call with phase })
    (hfresh : ∀ token, Claims token { call with phase } → Live (settings.hashRefreshToken token) server.db) :
    Advances settings i server (server.commit i) call { call with phase } where
  guarded := hguarded.rollback i
  moves := moves_commit hguarded i
  inv := hinv
  idle := fun _ => by rw [Server.commit_writes, Server.rollback_writes, if_pos rfl]
  fresh := fun token h => .inr (hfresh token h)

/-- A call that has not begun to update has no pending write. -/
def Idle (server : TokenServer) (i : Nat) (call : Call) : Prop :=
  call.phase.isUpdating = false → server.writes i = []

theorem findUnique_row {tokenHash id : String} {row : RefreshToken}
    (h : table.findUnique tokenHash = some (id, row)) : table.rows.get id = some row ∧ row.tokenHash =
    tokenHash := by
  have hmem := List.mem_of_find?_eq_some h
  have hhash := List.find?_some h
  exact ⟨(OrderedMap.get_eq_some_iff _ _ _).mpr hmem, of_decide_eq_true hhash⟩

theorem advances_statement {clock : Nat} {store store' : Store} {phase : Phase} (hguarded : Guarded store.tokens)
    (hidle : Idle store.tokens i call) (hinv : CallInv settings store.tokens i call)
    (hnext : call.statement settings i clock store = some (store', phase)) :
    Advances settings i store.tokens store'.tokens call { call with phase } := by
  obtain ⟨request, draws, old⟩ := call
  cases old with
  | registering email nickname passwordHash passwordSalt =>
    simp only [Call.statement] at hnext
    split at hnext <;> cases hnext
    · rename_i hregister
      unfold Store.register at hregister
      split at hregister <;> cases hregister
      exact advances_same hguarded (hidle rfl) (fun token h => absurd h (hinv token))
        fun token h => absurd h.1 (hinv token)
    · exact advances_same hguarded (hidle rfl) trivial fun _ h => h.2.elim
  | findingUser email password =>
    cases hnext
    exact advances_same hguarded (hidle rfl) hinv fun _ h => h.2.elim
  | countingFailure userId failedAttempts lockedUntil evaluatedAt =>
    simp only [Call.statement] at hnext
    split at hnext <;> cases hnext
    · rename_i hupdate
      obtain ⟨credential, -, hupdate⟩ := Option.bind_eq_some_iff.mp hupdate
      cases hupdate
      exact advances_same hguarded (hidle rfl) trivial fun _ h => h.2.elim
    · exact advances_same hguarded (hidle rfl) trivial fun _ h => h.2.elim
  | resettingFailures user =>
    simp only [Call.statement] at hnext
    split at hnext <;> cases hnext
    · rename_i hupdate
      obtain ⟨credential, -, hupdate⟩ := Option.bind_eq_some_iff.mp hupdate
      cases hupdate
      exact advances_same hguarded (hidle rfl) (fun token h => absurd h (hinv token))
        fun token h => absurd h.1 (hinv token)
    · exact advances_same hguarded (hidle rfl) trivial fun _ h => h.2.elim
  | findingToken sub tokenHash =>
    cases hnext
    refine advances_same hguarded (hidle rfl) ?_ fun _ h => h.2.elim
    obtain ⟨token, hrequest, rfl⟩ := hinv
    refine ⟨token, hrequest, fun id row user hfound => ?_⟩
    obtain ⟨⟨id', row'⟩, hfind, hfound⟩ := Option.bind_eq_some_iff.mp hfound
    obtain ⟨user', -, hfound⟩ := Option.bind_eq_some_iff.mp hfound
    cases hfound
    exact ⟨row, findUnique_row hfind⟩
  | claiming user update =>
    obtain ⟨token, hrequest, hupdating⟩ := hinv
    simp only [Call.statement] at hnext
    split at hnext
    · rename_i tokens update' hmove
      cases hnext
      obtain ⟨hguarded', hmoves, hupdating'⟩ := updating_moved hguarded hupdating (next_moved hmove)
      exact ⟨hguarded', hmoves, ⟨token, hrequest, hupdating'⟩, fun h => (by cases h), fun _ h => h.2.elim⟩
    · rename_i tokens count hmove
      cases hnext
      obtain ⟨rfl, htakes⟩ := updating_committed hupdating (next_moved hmove)
      by_cases hone : count = 1
      · have htakes := htakes (by omega)
        rw [if_pos hone]
        refine advances_commit hguarded (fun other hother => ?_) fun other hother => ?_
        · cases hrequest.symm.trans hother
          exact htakes.commit hguarded
        · cases hrequest.symm.trans hother.1
          exact htakes.live
      · rw [if_neg hone]
        exact advances_commit hguarded trivial fun _ h => h.2.elim
    · cases hnext
  | revoking update =>
    obtain ⟨userId, token, hrequest, hupdating⟩ := hinv
    simp only [Call.statement] at hnext
    split at hnext
    · rename_i tokens update' hmove
      cases hnext
      obtain ⟨hguarded', hmoves, hupdating'⟩ := updating_moved hguarded hupdating (next_moved hmove)
      exact ⟨hguarded', hmoves, ⟨userId, token, hrequest, hupdating'⟩, fun h => (by cases h), fun _ h => h.2.elim⟩
    · rename_i tokens count hmove
      cases hnext
      obtain ⟨rfl, -⟩ := updating_committed hupdating (next_moved hmove)
      exact advances_commit hguarded trivial fun _ h => h.2.elim
    · cases hnext
  | creatingSession user expiresAt =>
    simp only [Call.statement] at hnext
    split at hnext <;> cases hnext
    · rename_i table hcreate
      have hmoves : Moves i store.tokens (store.tokens.direct fun _ => table) := moves_create hcreate
      exact ⟨hguarded, hmoves, fun token hrequest => (hinv token hrequest).ages hmoves.ages, fun _ => hidle rfl,
        fun _ h => .inl ⟨h.1, trivial⟩⟩
    · exact advances_same hguarded (hidle rfl) trivial fun _ h => h.2.elim
  | _ => cases hnext

theorem advances_resume {clock : Nat} {phase : Phase} (hguarded : Guarded server)
    (hidle : Idle server i call) (hinv : CallInv settings server i call)
    (hnext : call.resume settings clock = some phase) :
    Advances settings i server server call { call with phase } := by
  obtain ⟨request, draws, old⟩ := call
  cases old with
  | foundUser password found readAt =>
    simp only [Call.resume] at hnext
    split at hnext
    · split at hnext <;> cases hnext
      · exact advances_same hguarded (hidle rfl) trivial fun _ h => h.2.elim
      · exact advances_same hguarded (hidle rfl) hinv fun _ h => h.2.elim
    · cases hnext
      exact advances_same hguarded (hidle rfl) trivial fun _ h => h.2.elim
  | verifying password user credential =>
    simp only [Call.resume] at hnext
    split at hnext <;> cases hnext <;> exact advances_same hguarded (hidle rfl) hinv fun _ h => h.2.elim
  | foundToken sub record =>
    obtain ⟨token, hrequest, hrow⟩ := hinv
    simp only [Call.resume] at hnext
    split at hnext
    · rename_i id record user
      split at hnext <;> cases hnext
      · exact advances_same hguarded (hidle rfl) trivial fun _ h => h.2.elim
      · obtain ⟨row, hget, hhash⟩ := hrow id record user rfl
        refine ⟨hguarded, .refl _ _, ⟨token, hrequest, ⟨row, hget, hhash⟩, .inl ⟨rfl, hidle rfl⟩⟩,
          fun h => (by cases h), fun _ h => h.2.elim⟩
    · cases hnext
      exact advances_same hguarded (hidle rfl) trivial fun _ h => h.2.elim
  | entering user =>
    cases hnext
    exact advances_same hguarded (hidle rfl) hinv fun _ h => ⟨h.1, trivial⟩
  | _ => cases hnext

theorem advances_next {clock : Nat} {store store' : Store} {phase : Phase} {answer : Answer}
    (hguarded : Guarded store.tokens) (hidle : Idle store.tokens i call)
    (hinv : CallInv settings store.tokens i call)
    (hnext : call.next settings i clock store answer = some (store', phase)) :
    Advances settings i store.tokens store'.tokens call { call with phase } := by
  cases answer with
  | statement => exact advances_statement hguarded hidle hinv hnext
  | lost =>
    obtain ⟨⟨store₁, phase₁⟩, hstatement, hnext⟩ := Option.bind_eq_some_iff.mp hnext
    have hmade := advances_statement hguarded hidle hinv hstatement
    dsimp only at hnext
    split at hnext
    · cases hnext
    · rename_i hended
      cases hnext
      exact ⟨hmade.guarded, hmade.moves, trivial, fun _ => hmade.idle (Bool.eq_false_iff.mpr hended),
        fun _ h => h.2.elim⟩
  | failed =>
    simp only [Call.next] at hnext
    split at hnext <;> cases hnext
    exact advances_threw hguarded
  | resume =>
    obtain ⟨phase', hresume, hnext⟩ := Option.map_eq_some_iff.mp hnext
    cases hnext
    exact advances_resume hguarded hidle hinv hresume

/-! ## The service -/

structure Inv (settings : AuthSettings) (s : System) : Prop where
  guarded : Guarded s.store.tokens
  idle : ∀ i, (∀ call ∈ s.calls.get i, call.phase.isUpdating = false) → s.store.tokens.writes i = []
  calls : ∀ i call, s.calls.get i = some call → CallInv settings s.store.tokens i call
  alone : ∀ token i j, Claimed s i token → Claimed s j token → i = j

theorem inv_start (settings : AuthSettings) (users : OrderedMap String User)
    (credentials : OrderedMap String PasswordCredential) (tokens : TokenTable) :
    Inv settings (start users credentials tokens) where
  guarded := fun _ _ hw => by cases hw
  idle := fun _ _ => rfl
  calls := fun _ _ h => by cases h
  alone := fun _ _ _ h => by
    obtain ⟨call, hget, -⟩ := h
    cases hget

/-- The step of a call, with what it does to the tokens. -/
theorem advance_cases {answer : Answer} (h : Inv settings s)
    (hstep : step settings s (.advance i answer) = some s') :
    ∃ call phase store, s.calls.get i = some call ∧
      s' = { s with store, calls := s.calls.set i { call with phase } } ∧
      call.next settings i s.clock s.store answer = some (store, phase) ∧
      Advances settings i s.store.tokens store.tokens call { call with phase } := by
  obtain ⟨call, hget, hstep⟩ := Option.bind_eq_some_iff.mp hstep
  obtain ⟨⟨store, phase⟩, hnext, hstep⟩ := Option.bind_eq_some_iff.mp hstep
  cases hstep
  have hidle : Idle s.store.tokens i call := by
    refine fun hphase => h.idle i fun other hother => ?_
    rw [hget, Option.mem_some_iff] at hother
    rw [← hother]
    exact hphase
  exact ⟨call, phase, store, hget, rfl, hnext, advances_next h.guarded hidle (h.calls i call hget) hnext⟩

/-- A call claims a token only while the token's row is not revoked. -/
theorem claimed_step (h : Inv settings s) {l : Label} (hstep : step settings s l = some s')
    (hclaimed : Claimed s' i token) : Claimed s i token ∨
      Live (settings.hashRefreshToken token) s.store.tokens.db ∧ ∃ answer, l = .advance i answer := by
  obtain ⟨call, hget, hclaims⟩ := hclaimed
  cases l with
  | call j request draws =>
    simp only [step] at hstep
    split at hstep <;> cases hstep
    dsimp only at hget
    rw [OrderedMap.get_set, Option.mem_def] at hget
    split at hget
    · cases hget
      cases request with
      | refresh refreshToken =>
        obtain ⟨-, hphase⟩ := hclaims
        unfold Request.start at hphase
        dsimp only at hphase
        cases hverify : settings.verifyRefreshToken refreshToken s.clock with
        | none => simp [hverify, invalidToken] at hphase
        | some sub => simp [hverify] at hphase
      | _ => cases hclaims.1
    · exact .inl ⟨call, hget, hclaims⟩
  | advance j answer =>
    obtain ⟨old, phase, store, hold, rfl, -, hadvances⟩ := advance_cases h hstep
    dsimp only at hget
    rw [OrderedMap.get_set, Option.mem_def] at hget
    split at hget
    · rename_i heq
      cases hget
      rw [heq]
      exact (hadvances.fresh token hclaims).imp (fun hold' => ⟨old, hold, hold'⟩) fun hlive => ⟨hlive, answer, rfl⟩
    · exact .inl ⟨call, hget, hclaims⟩
  | tick ms =>
    cases hstep
    exact .inl ⟨call, hget, hclaims⟩

theorem claimed_revoked (h : Inv settings s) (hclaimed : Claimed s i token) :
    Revoked (settings.hashRefreshToken token) s.store.tokens.db := by
  obtain ⟨call, hget, hrequest, hphase⟩ := hclaimed
  have hinv := h.calls i call hget
  unfold CallInv at hinv
  split at hphase
  · rename_i hentering
    rw [hentering] at hinv
    exact hinv token hrequest
  · rename_i hcreating
    rw [hcreating] at hinv
    exact hinv token hrequest
  · rename_i hreturned
    rw [hreturned] at hinv
    exact hinv token hrequest
  · exact hphase.elim

/-- What is revoked stays revoked. -/
theorem ages_step (h : Inv settings s) {l : Label} (hstep : step settings s l = some s') :
    Ages s.store.tokens.db s'.store.tokens.db := by
  cases l with
  | call j request draws =>
    simp only [step] at hstep
    split at hstep <;> cases hstep
    exact .refl _
  | advance j answer =>
    obtain ⟨old, phase, store, -, rfl, -, hadvances⟩ := advance_cases h hstep
    exact hadvances.moves.ages
  | tick ms =>
    cases hstep
    exact .refl _

theorem alone_step (h : Inv settings s) {l : Label} (hstep : step settings s l = some s')
    (hi : Claimed s' i token) (hj : Claimed s' j token) : i = j := by
  rcases claimed_step h hstep hi with hold | ⟨hlive, answer, hl⟩
  · rcases claimed_step h hstep hj with hold' | ⟨hlive, -⟩
    · exact h.alone token i j hold hold'
    · exact absurd hlive (claimed_revoked h hold).not_live
  · rcases claimed_step h hstep hj with hold' | ⟨-, answer', hl'⟩
    · exact absurd hlive (claimed_revoked h hold').not_live
    · cases hl.symm.trans hl'
      rfl

theorem inv_call {request : Request} {draws : Draws} (h : Inv settings s)
    (hstep : step settings s (.call i request draws) = some s') : Inv settings s' := by
  have halone : ∀ token j k, Claimed s' j token → Claimed s' k token → j = k := fun _ _ _ => alone_step h hstep
  simp only [step] at hstep
  split at hstep
  · rename_i hfree
    cases hstep
    have hwrites : s.store.tokens.writes i = [] := h.idle i fun call hget => by
      rw [hfree] at hget
      cases hget
    refine ⟨h.guarded, fun j hidle => ?_, fun j call hget => ?_, halone⟩
    · by_cases hji : j = i
      · rw [hji]
        exact hwrites
      · refine h.idle j fun call hget => hidle call ?_
        exact (OrderedMap.get_set_other _ _ hji).trans hget
    · dsimp only at hget
      rw [OrderedMap.get_set] at hget
      split at hget
      · rename_i hji
        cases hget
        rw [hji]
        cases request with
        | refresh refreshToken =>
          unfold CallInv Request.start
          dsimp only
          cases settings.verifyRefreshToken refreshToken s.clock with
          | none => trivial
          | some sub => exact ⟨refreshToken, rfl, rfl⟩
        | logout userId refreshToken => exact ⟨userId, refreshToken, rfl, rfl, .inl ⟨rfl, hwrites⟩⟩
        | _ => exact fun token hrequest => by cases hrequest
      · exact h.calls j call hget
  · cases hstep

theorem inv_advance {answer : Answer} (h : Inv settings s)
    (hstep : step settings s (.advance i answer) = some s') : Inv settings s' := by
  have halone : ∀ token j k, Claimed s' j token → Claimed s' k token → j = k := fun _ _ _ => alone_step h hstep
  obtain ⟨old, phase, store, hold, rfl, -, hadvances⟩ := advance_cases h hstep
  refine ⟨hadvances.guarded, fun j hidle => ?_, fun j call hget => ?_, halone⟩
  · by_cases hji : j = i
    · rw [hji]
      refine hadvances.idle (hidle _ ?_)
      rw [hji]
      exact OrderedMap.get_set_same _ _ _
    · refine (hadvances.moves.writes j hji).trans (h.idle j fun call hget => hidle call ?_)
      exact (OrderedMap.get_set_other _ _ hji).trans hget
  · dsimp only at hget
    rw [OrderedMap.get_set] at hget
    split at hget
    · rename_i hji
      cases hget
      rw [hji]
      exact hadvances.inv
    · rename_i hji
      exact (h.calls j call hget).moves hadvances.moves hji

theorem inv_step {l : Label} (h : Inv settings s) (hstep : step settings s l = some s') : Inv settings s' := by
  cases l with
  | call i request draws => exact inv_call h hstep
  | advance i answer => exact inv_advance h hstep
  | tick ms =>
    cases hstep
    exact ⟨h.guarded, h.idle, h.calls, h.alone⟩

/-- The token's row is revoked, and the call has not claimed it. -/
structure Spent (settings : AuthSettings) (token : String) (i : Nat) (s : System) : Prop where
  inv : Inv settings s
  revoked : Revoked (settings.hashRefreshToken token) s.store.tokens.db
  unclaimed : ¬ Claimed s i token

theorem spent_step {l : Label} (h : Spent settings token i s) (hstep : step settings s l = some s') :
    Spent settings token i s' := by
  refine ⟨inv_step h.inv hstep, h.revoked.ages (ages_step h.inv hstep), fun hclaimed => ?_⟩
  rcases claimed_step h.inv hstep hclaimed with hold | ⟨hlive, -⟩
  · exact h.unclaimed hold
  · exact h.revoked.not_live hlive

/-- The commit of a logout's update leaves the row revoked. -/
theorem spent_of_logsOut {l : Label} (h : Inv settings s) (hlogs : LogsOut s token l)
    (hstep : step settings s l = some s') (hunclaimed : ¬ Claimed s i token) : Spent settings token i s' := by
  obtain ⟨k, call, userId, update, hget, hl, hrequest, hphase, hrows, hcount⟩ := hlogs
  have hinv := h.calls k call hget
  unfold CallInv at hinv
  rw [hphase] at hinv
  obtain ⟨userId', token', hrequest', hupdating⟩ := hinv
  cases hrequest.symm.trans hrequest'
  have htakes := hupdating.2.resolve_left fun hnone => hcount hnone.1
  have hcommit : call.statement settings k s.clock s.store =
      some ({ s.store with tokens := s.store.tokens.commit k }, .loggedOut update.count) := by
    simp only [Call.statement, hphase, UpdateMany.next, hrows]
  have hstore : s'.store.tokens = s.store.tokens.commit k := by
    rcases hl with rfl | rfl <;> obtain ⟨call', phase, store, hget', rfl, hnext, -⟩ := advance_cases h hstep <;>
      cases hget.symm.trans hget'
    · cases hcommit.symm.trans hnext
      rfl
    · simp only [Call.next, hcommit] at hnext
      cases hnext
      rfl
  refine ⟨inv_step h hstep, ?_, fun hclaimed => ?_⟩
  · rw [hstore]
    exact htakes.commit h.guarded
  · rcases claimed_step h hstep hclaimed with hold | ⟨-, answer, hanswer⟩
    · exact hunclaimed hold
    · rw [hanswer] at hstep hl
      have hik : i = k := by rcases hl with hl | hl <;> cases hl <;> rfl
      obtain ⟨other, hother, hclaims⟩ := hclaimed
      obtain ⟨call', phase, store, hget', rfl, -, -⟩ := advance_cases h hstep
      rw [hik] at hget'
      cases hget.symm.trans hget'
      dsimp only at hother
      rw [OrderedMap.get_set_same, Option.mem_some_iff] at hother
      rw [← hother] at hclaims
      cases hrequest.symm.trans hclaims.1

theorem Refreshed.claimed (h : Refreshed s i token) : Claimed s i token := by
  obtain ⟨call, hget, hrequest, session, hphase⟩ := h
  refine ⟨call, hget, hrequest, ?_⟩
  rw [hphase]
  trivial

/-- At most one refresh call gets a session from a token, and none whose claim comes after the update
of a logout. -/
theorem refresh_once (settings : AuthSettings) (users : OrderedMap String User)
    (credentials : OrderedMap String PasswordCredential) (tokens : TokenTable) {ls : List Label}
    (hrun : run (step settings) (start users credentials tokens) ls = some s) (token : String) :
    (∀ i j, Refreshed s i token → Refreshed s j token → i = j) ∧
      ∀ before l after u, ls = before ++ l :: after →
        run (step settings) (start users credentials tokens) before = some u → LogsOut u token l →
        ∀ i, ¬ Claimed u i token → ¬ Refreshed s i token := by
  have hstep : ∀ s l t, Inv settings s → step settings s l = some t → Inv settings t :=
    fun _ _ _ => inv_step
  have hstart := inv_start settings users credentials tokens
  have hinv := invariant_run hstep hstart hrun
  refine ⟨fun i j hi hj => hinv.alone token i j hi.claimed hj.claimed, ?_⟩
  intro before l after u hls hbefore hlogs i hunclaimed hrefreshed
  rw [hls, run_append, hbefore, Option.bind_some, run_cons] at hrun
  obtain ⟨v, hv, hafter⟩ := Option.bind_eq_some_iff.mp hrun
  have hu := invariant_run hstep hstart hbefore
  have hspent := invariant_run (fun _ _ _ => spent_step) (spent_of_logsOut hu hlogs hv hunclaimed) hafter
  exact hspent.unclaimed hrefreshed.claimed

def demoUser : User := ⟨"user", none, "Nick"⟩

def demoUsers : OrderedMap String User := .set .empty "user" demoUser

/-- Tokens are their own hashes here, and belong to the one user. -/
def demoSettings : AuthSettings where
  toLowerCase := fun s => s
  verifyPassword := fun password hash _ => password = hash
  verifyRefreshToken := fun _ _ => some "user"
  hashRefreshToken := fun token => token

def demoDraws (n : Nat) : Draws := ⟨"user", s!"id{n}", s!"access{n}", s!"refresh{n}"⟩

/-- A session is opened; two calls refresh it at the same time, and a logout comes in between. -/
def demoRun : List Label :=
  [.call 0 (.devLogin demoUser) (demoDraws 0), .advance 0 .resume, .advance 0 .statement,
    .call 1 (.refresh "refresh0") (demoDraws 1), .call 2 (.refresh "refresh0") (demoDraws 2),
    .advance 1 .statement, .advance 2 .statement, .advance 1 .resume, .advance 2 .resume,
    .advance 1 .statement, .advance 2 .statement, .advance 1 .statement, .advance 1 .statement,
    .advance 2 .statement, .advance 2 .statement, .advance 1 .resume, .advance 1 .statement,
    .call 3 (.logout "user" "refresh1") (demoDraws 3), .call 4 (.refresh "refresh1") (demoDraws 4),
    .advance 4 .statement, .advance 4 .resume, .advance 3 .statement, .advance 3 .statement, .advance 3 .statement,
    .advance 4 .statement, .advance 4 .statement]

theorem refresh_once_demoRun : ∃ s, run (step demoSettings) (start demoUsers .empty .empty) demoRun = some s ∧
    Refreshed s 1 "refresh0" ∧ ∀ j, Refreshed s j "refresh0" → j = 1 := by
  have hcall : ((run (step demoSettings) (start demoUsers .empty .empty) demoRun).bind fun s => s.calls.get 1) =
      some ⟨.refresh "refresh0", demoDraws 1, .returned ⟨"access1", "refresh1", demoUser⟩⟩ := by
    decide +kernel
  obtain ⟨s, hrun, hget⟩ := Option.bind_eq_some_iff.mp hcall
  have hfirst : Refreshed s 1 "refresh0" := ⟨_, hget, rfl, _, rfl⟩
  have honce := (refresh_once demoSettings demoUsers .empty .empty hrun "refresh0").1
  exact ⟨s, hrun, hfirst, fun j hj => honce j 1 hj hfirst⟩

end RefreshRotation
