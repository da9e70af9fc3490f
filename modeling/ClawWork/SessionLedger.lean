import ClawWork.RefreshRotation

/-!
# The ledger of sessions

A session goes on from one refresh token to the next. Sign-ins open sessions; logouts end them,
and so do refresh calls that fail between the token they have revoked and the one they create.
Nothing else changes how many sessions a user has.
-/

namespace SessionLedger

open ReadCommitted AuthService RefreshRotation Transition

variable {settings : AuthSettings} {s s' : System} {i j : Nat} {table table' : TokenTable}
  {server server' : TokenServer} {userId : String} {call : Call} {update update' : UpdateMany}

/-! ## What is counted -/

/-- The refresh tokens of the user that are not revoked. -/
def live (userId : String) (table : TokenTable) : Nat :=
  table.rows.values.countP fun row => decide (row.userId = userId) && row.revokedAt.isNone

def isRefresh : Request → Bool
  | .refresh _ => true
  | _ => false

/-- The call has revoked a token of the user, and has not created the next one yet. -/
def carries (userId : String) (call : Call) : Bool :=
  isRefresh call.request &&
    match call.phase with
    | .entering user | .creatingSession user _ => decide (user.id = userId)
    | _ => false

/-- The sessions of the user that go on. -/
def sessions (userId : String) (s : System) : Nat :=
  live userId s.store.tokens.db + s.calls.values.countP (carries userId)

/-- The row that a call creates for its session. -/
def newRow (settings : AuthSettings) (call : Call) (user : User) (expiresAt : Nat) : RefreshToken :=
  ⟨user.id, settings.hashRefreshToken call.draws.refreshToken, expiresAt, none⟩

/-- The statement of a call is made. -/
def isMade (answer : Answer) : Bool := answer = .statement || answer = .lost

/-- A sign-in creates its token. -/
def opensSession (settings : AuthSettings) (userId : String) (table : TokenTable) (call : Call)
    (answer : Answer) : Bool :=
  isMade answer && !isRefresh call.request &&
    match call.phase with
    | .creatingSession user expiresAt =>
      decide (user.id = userId) && (table.create call.draws.tokenId (newRow settings call user expiresAt)).isSome
    | _ => false

/-- The update has changed a row, and commits now. -/
def commitsOne (update : UpdateMany) : Bool := update.rows = some [] && update.count = 1

/-- A logout revokes its token, or a refresh call has revoked a token and creates none. -/
def endsSession (settings : AuthSettings) (userId : String) (table : TokenTable) (call : Call)
    (answer : Answer) : Bool :=
  match call.phase with
  | .revoking update =>
    isMade answer && commitsOne update &&
      match call.request with
      | .logout user _ => decide (user = userId)
      | _ => false
  | .claiming user update => decide (answer = .lost) && commitsOne update && decide (user.id = userId)
  | .creatingSession user expiresAt =>
    isRefresh call.request && decide (user.id = userId) &&
      (decide (answer = .failed) ||
        isMade answer && (table.create call.draws.tokenId (newRow settings call user expiresAt)).isNone)
  | _ => false

/-- The step opens a session of the user. -/
def opens (settings : AuthSettings) (userId : String) (s : System) : Label → Bool
  | .advance i answer => (s.calls.get i).any fun call => opensSession settings userId s.store.tokens.db call answer
  | _ => false

/-- The step ends a session of the user. -/
def ends (settings : AuthSettings) (userId : String) (s : System) : Label → Bool
  | .advance i answer => (s.calls.get i).any fun call => endsSession settings userId s.store.tokens.db call answer
  | _ => false

/-! ## Rows -/

/-- The rows that are there keep their users. -/
def Keeps (table table' : TokenTable) : Prop := ∀ id row, table.rows.get id = some row →
  ∃ row', table'.rows.get id = some row' ∧ row'.userId = row.userId

theorem Keeps.refl (table : TokenTable) : Keeps table table := fun _ row hget => ⟨row, hget, rfl⟩

theorem keeps_revoke (id : String) (now : Nat) (table : TokenTable) : Keeps table (table.revoke id now) := by
  intro k row hget
  rw [revoke_get]
  split
  · rw [hget]
    exact ⟨_, rfl, rfl⟩
  · exact ⟨row, hget, rfl⟩

theorem keeps_create {id : String} {new : RefreshToken} (h : table.create id new = some table') :
    Keeps table table' :=
  fun _ row hget => ⟨row, create_get h hget, rfl⟩

theorem live_create {id : String} {new : RefreshToken} (h : table.create id new = some table')
    (hnew : new.revokedAt = none) (userId : String) :
    live userId table' = live userId table + (decide (new.userId = userId)).toNat := by
  unfold TokenTable.create at h
  split at h
  · rename_i hfree
    cases h
    have hcount := OrderedMap.countP_set
      (fun row : RefreshToken => decide (row.userId = userId) && row.revokedAt.isNone) table.rows id new
    rw [hfree.2] at hcount
    simpa [live, hnew] using hcount
  · cases h

theorem live_revoke {id : String} {row : RefreshToken} (hget : table.rows.get id = some row)
    (hlive : row.revokedAt = none) (now : Nat) (userId : String) :
    live userId (table.revoke id now) + (decide (row.userId = userId)).toNat = live userId table := by
  have hcount := OrderedMap.countP_set
    (fun row : RefreshToken => decide (row.userId = userId) && row.revokedAt.isNone) table.rows id
    { row with revokedAt := some now }
  rw [hget] at hcount
  have hrows : (table.revoke id now).rows = table.rows.set id { row with revokedAt := some now } := by
    simp only [TokenTable.revoke, hget]
  rw [live, hrows]
  simpa [live, hlive] using hcount

/-! ## Updates -/

/-- The clause is about rows of this user. -/
def Belongs (userId : String) (table : TokenTable) : Clause → Prop
  | .record id _ => ∃ row, table.rows.get id = some row ∧ row.userId = userId
  | .token user _ => user = userId

/-- The row is the only one that the clause is about. -/
def Picks (id : String) (row : RefreshToken) : Clause → Prop
  | .record key _ => key = id
  | .token _ tokenHash => row.tokenHash = tokenHash

/-- The update has changed nothing yet, or it has locked one row, which its commit will revoke. -/
structure Changes (server : TokenServer) (i : Nat) (userId : String) (update : UpdateMany) : Prop where
  belongs : Belongs userId server.db update.clause
  taken : (update.count = 0 ∧ server.writes i = []) ∨
    update.count = 1 ∧ ∃ id now row, server.writes i = [.revoke id now] ∧ server.locks id = some i ∧
      server.db.rows.get id = some row ∧ row.userId = userId ∧ row.revokedAt = none ∧ Picks id row update.clause

theorem Belongs.keeps {clause : Clause} (h : Belongs userId table clause) (hkeeps : Keeps table table') :
    Belongs userId table' clause := by
  cases clause with
  | record id now =>
    obtain ⟨row, hget, huser⟩ := h
    obtain ⟨row', hget', huser'⟩ := hkeeps id row hget
    exact ⟨row', hget', huser'.trans huser⟩
  | token user tokenHash => exact h

theorem Belongs.row {clause : Clause} (h : Belongs userId table clause) {id : String} {row : RefreshToken}
    (hget : table.rows.get id = some row) (hholds : clause.holds id row = true) :
    row.userId = userId ∧ row.revokedAt = none ∧ Picks id row clause := by
  cases clause with
  | record key now =>
    simp only [Clause.holds, Bool.and_eq_true, decide_eq_true_eq] at hholds
    obtain ⟨⟨rfl, hlive⟩, -⟩ := hholds
    obtain ⟨row', hget', huser⟩ := h
    rw [hget, Option.some.injEq] at hget'
    exact ⟨hget' ▸ huser, hlive, rfl⟩
  | token user tokenHash =>
    simp only [Clause.holds, Bool.and_eq_true, decide_eq_true_eq] at hholds
    exact ⟨hholds.1.1.trans h, hholds.2, hholds.1.2⟩

/-- The clause is about no second row. -/
theorem Picks.unique {clause : Clause} {id k : String} {row other : RefreshToken} (h : Picks id row clause)
    (hget : table.rows.get id = some row) (hother : table.rows.get k = some other)
    (hholds : clause.holds k other = true) : k = id := by
  cases clause with
  | record key now =>
    simp only [Clause.holds, Bool.and_eq_true, decide_eq_true_eq] at hholds
    exact hholds.1.1.trans h
  | token user tokenHash =>
    simp only [Clause.holds, Bool.and_eq_true, decide_eq_true_eq] at hholds
    exact table.unique k id other row hother hget (hholds.1.2.trans h.symm)

/-- What another call does leaves the row of the update to it. -/
theorem Changes.moves (h : Changes server i userId update) (hmoves : Moves j server server')
    (hkeeps : Keeps server.db server'.db) (hne : i ≠ j) : Changes server' i userId update := by
  refine ⟨h.belongs.keeps hkeeps, ?_⟩
  rw [hmoves.writes i hne]
  refine h.taken.imp_right fun ⟨hone, id, now, row, hwrites, hlock, hget, hrest⟩ => ?_
  refine ⟨hone, id, now, row, hwrites, hmoves.locks i id hne hlock, hmoves.stays id row hget ?_, hrest⟩
  rw [hlock]
  exact fun heq => hne (Option.some.inj heq)

theorem changes_start (hidle : server.writes i = []) {clause : Clause} (now : Nat)
    (h : Belongs userId server.db clause) : Changes server i userId (.start clause now) :=
  ⟨h, .inl ⟨rfl, hidle⟩⟩

/-- A move of an update that has not committed. -/
theorem changes_moved (h : Changes server i userId update)
    (hmoved : Moved i server update (server', .inl update')) :
    Changes server' i userId update' ∧ server'.db = server.db ∧ commitsOne update = false := by
  generalize hresult : (server', Sum.inl update') = result at hmoved
  cases hmoved with
  | chosen hrows =>
    cases hresult
    exact ⟨⟨h.belongs, h.taken⟩, rfl, by simp [commitsOne, hrows]⟩
  | @changed id rest locked row hrows hlocked hget hholds =>
    cases hresult
    obtain ⟨hdb, hwrites, hlocks⟩ := Server.acquire_eq_some hlocked
    have hheld : locked.locks id = some i := by rw [hlocks, Function.update_self]
    refine ⟨⟨?_, .inr ?_⟩, hdb, by simp [commitsOne, hrows]⟩
    · rw [Server.write_db, hdb]
      exact h.belongs
    · rcases h.taken with ⟨hzero, hnone⟩ | ⟨-, id', now, row', hone, hlock, hget', -, -, hpicks⟩
      · rw [Server.view_of_writes_nil (by rw [hwrites, hnone]), hdb] at hget
        obtain ⟨huser, hlive, hpicks⟩ := h.belongs.row hget hholds
        refine ⟨by simp [hzero], id, update.revokedAt, row, ?_, hheld, ?_, huser, hlive, hpicks⟩
        · rw [Server.write_writes, if_pos rfl, hwrites, hnone, List.nil_append]
        · rw [Server.write_db, hdb]
          exact hget
      · -- the row that it has taken is revoked in its view, and there is no other
        rw [Server.view, hwrites, hone, hdb, applyWrites_cons, applyWrites_nil, revoke_get] at hget
        split at hget
        · rename_i hid
          rw [hid] at hholds
          obtain ⟨old, hold, rfl⟩ := Option.map_eq_some_iff.mp hget
          cases hclause : update.clause <;> simp [hclause, Clause.holds] at hholds
        · rename_i hid
          exact absurd (hpicks.unique hget' hget hholds) hid
  | skipped hrows =>
    cases hresult
    exact ⟨⟨h.belongs, h.taken⟩, rfl, by simp [commitsOne, hrows]⟩
  | committed hrows => cases hresult

/-- The commit of an update revokes as many tokens as it has counted. -/
theorem changes_committed {count : Nat} (h : Changes server i userId update)
    (hmoved : Moved i server update (server', .inr count)) :
    server' = server.commit i ∧ update.rows = some [] ∧ count = update.count ∧ count ≤ 1 ∧
      Keeps server.db server'.db ∧
      ∀ other, live other server'.db + (decide (count = 1) && decide (userId = other)).toNat =
        live other server.db := by
  generalize hresult : (server', Sum.inr count) = result at hmoved
  cases hmoved with
  | committed hrows =>
    cases hresult
    rcases h.taken with ⟨hzero, hnone⟩ | ⟨hone, id, now, row, hwrites, -, hget, huser, hlive, -⟩
    · have hdb : (server.commit i).db = server.db := Server.view_of_writes_nil hnone
      refine ⟨rfl, hrows, rfl, by omega, hdb ▸ .refl _, fun other => ?_⟩
      rw [hdb, hzero]
      rfl
    · have hdb : (server.commit i).db = server.db.revoke id now := by
        rw [Server.commit_db, Server.view, hwrites]
        rfl
      refine ⟨rfl, hrows, rfl, by omega, hdb ▸ keeps_revoke _ _ _, fun other => ?_⟩
      rw [hdb, hone, ← huser]
      simpa using live_revoke hget hlive now other
  | chosen hrows => cases hresult
  | changed hrows hlocked hget hholds => cases hresult
  | skipped hrows => cases hresult

/-! ## The calls -/

/-- Users are stored under their ids. -/
def Keyed (users : OrderedMap String User) : Prop := ∀ id user, users.get id = some user → user.id = id

/-- Whose rows a call is about. -/
def Fits (server : TokenServer) (i : Nat) (call : Call) : Prop :=
  match call.phase with
  | .foundToken _ record => ∀ id row user, record = some (id, row, user) →
      ∃ row', server.db.rows.get id = some row' ∧ row'.userId = user.id
  | .claiming user update => Changes server i user.id update
  | .revoking update => ∃ userId token, call.request = .logout userId token ∧ Changes server i userId update
  | _ => True

theorem Fits.moves (h : Fits server i call) (hmoves : Moves j server server')
    (hkeeps : Keeps server.db server'.db) (hne : i ≠ j) : Fits server' i call := by
  unfold Fits at h ⊢
  split at h
  · intro id row user hrecord
    obtain ⟨row', hget, huser⟩ := h id row user hrecord
    obtain ⟨row'', hget', huser'⟩ := hkeeps id row' hget
    exact ⟨row'', hget', huser'.trans huser⟩
  · exact h.moves hmoves hkeeps hne
  · obtain ⟨userId, token, hrequest, hchanges⟩ := h
    exact ⟨userId, token, hrequest, hchanges.moves hmoves hkeeps hne⟩
  · trivial

/-- What a step of a call does to the rows and to the sessions of every user. -/
structure Accounts (settings : AuthSettings) (i : Nat) (server server' : TokenServer) (call call' : Call)
    (answer : Answer) : Prop where
  keeps : Keeps server.db server'.db
  fits : Fits server' i call'
  ledger : ∀ userId, live userId server'.db + (carries userId call').toNat +
      (endsSession settings userId server.db call answer).toNat =
    live userId server.db + (carries userId call).toNat +
      (opensSession settings userId server.db call answer).toNat

theorem carries_of_not_refresh (h : ∀ token, call.request ≠ .refresh token) (userId : String) :
    carries userId call = false := by
  obtain ⟨request, draws, phase⟩ := call
  cases request with
  | refresh token => exact absurd rfl (h token)
  | _ => rfl

/-- A step that leaves the tokens alone and is none of those that open or end a session. -/
theorem accounts_same {phase : Phase} {answer : Answer} (hfits : Fits server i { call with phase })
    (hcarries : ∀ userId, carries userId { call with phase } = carries userId call)
    (hends : ∀ userId, endsSession settings userId server.db call answer = false)
    (hopens : ∀ userId, opensSession settings userId server.db call answer = false) :
    Accounts settings i server server call { call with phase } answer where
  keeps := .refl _
  fits := hfits
  ledger userId := by rw [hcarries, hends, hopens]

/-- How a statement that is made ends for the call: its answer comes, or is lost. -/
inductive Told (phase : Phase) : Answer → Phase → Prop
  | statement : Told phase .statement phase
  | lost (hended : phase.isUpdating = false) : Told phase .lost .threw

theorem Told.made {phase phase' : Phase} {answer : Answer} (h : Told phase answer phase') : isMade answer = true := by
  cases h <;> rfl

theorem accounts_creating {phase' : Phase} {answer : Answer} {clock : Nat} {store store' : Store} {phase : Phase}
    {user : User} {expiresAt : Nat} (hphase : call.phase = .creatingSession user expiresAt)
    (hnext : call.statement settings i clock store = some (store', phase)) (htold : Told phase answer phase') :
    Accounts settings i store.tokens store'.tokens call { call with phase := phase' } answer := by
  have hmade := htold.made
  have hfailed : answer ≠ .failed := by
    rintro rfl
    cases htold
  simp only [Call.statement, hphase] at hnext
  split at hnext
  · rename_i table hcreate
    cases hnext
    have hcarries : ∀ userId, carries userId { call with phase := phase' } = false := by
      intro userId
      cases htold <;> simp [carries]
    refine ⟨keeps_create hcreate, by cases htold <;> trivial, fun userId => ?_⟩
    have hlive := live_create hcreate rfl userId
    rw [hcarries, Server.direct_db, hlive]
    have hrow : store.tokens.db.create call.draws.tokenId (newRow settings call user expiresAt) = some table := hcreate
    cases hrefresh : isRefresh call.request <;>
      simp [carries, endsSession, opensSession, hphase, hrefresh, hmade, hrow, hfailed]
  · rename_i hcreate
    cases hnext
    have hcarries : ∀ userId, carries userId { call with phase := phase' } = false := by
      intro userId
      cases htold <;> simp [carries]
    have hrow : store.tokens.db.create call.draws.tokenId (newRow settings call user expiresAt) = none := hcreate
    refine ⟨.refl _, by cases htold <;> trivial, fun userId => ?_⟩
    rw [hcarries]
    simp [carries, endsSession, opensSession, hphase, hmade, hrow]

theorem accounts_claiming {phase' : Phase} {answer : Answer} {clock : Nat} {store store' : Store} {phase : Phase}
    {user : User} (hphase : call.phase = .claiming user update) (hrefresh : isRefresh call.request = true)
    (hchanges : Changes store.tokens i user.id update)
    (hnext : call.statement settings i clock store = some (store', phase)) (htold : Told phase answer phase') :
    Accounts settings i store.tokens store'.tokens call { call with phase := phase' } answer := by
  simp only [Call.statement, hphase] at hnext
  split at hnext
  · rename_i tokens update' hmove
    cases hnext
    obtain ⟨hchanges', hdb, -⟩ := changes_moved hchanges (next_moved hmove)
    cases htold with
    | statement =>
      refine ⟨hdb ▸ .refl _, hchanges', fun userId => ?_⟩
      rw [hdb]
      simp [carries, endsSession, opensSession, hphase]
    | lost hended => cases hended
  · rename_i tokens count hmove
    cases hnext
    obtain ⟨rfl, hrows, rfl, -, hkeeps, hlive⟩ := changes_committed hchanges (next_moved hmove)
    refine ⟨hkeeps, ?_, fun userId => ?_⟩
    · cases htold with
      | statement => split <;> trivial
      | lost hended => trivial
    · have hcount := hlive userId
      cases htold with
      | statement =>
        by_cases hone : update.count = 1 <;>
          simp_all [carries, endsSession, opensSession, invalidToken]
      | lost hended =>
        by_cases hone : update.count = 1 <;>
          simp_all [carries, endsSession, opensSession, commitsOne]
  · cases hnext

theorem accounts_revoking {phase' : Phase} {answer : Answer} {clock : Nat} {store store' : Store} {phase : Phase}
    {user token : String} (hphase : call.phase = .revoking update) (hrequest : call.request = .logout user token)
    (hchanges : Changes store.tokens i user update)
    (hnext : call.statement settings i clock store = some (store', phase)) (htold : Told phase answer phase') :
    Accounts settings i store.tokens store'.tokens call { call with phase := phase' } answer := by
  have hmade := htold.made
  simp only [Call.statement, hphase] at hnext
  split at hnext
  · rename_i tokens update' hmove
    cases hnext
    obtain ⟨hchanges', hdb, hnot⟩ := changes_moved hchanges (next_moved hmove)
    cases htold with
    | statement =>
      refine ⟨hdb ▸ .refl _, ⟨user, token, hrequest, hchanges'⟩, fun userId => ?_⟩
      rw [hdb]
      simp [carries, endsSession, opensSession, hphase, hnot]
    | lost hended => cases hended
  · rename_i tokens count hmove
    cases hnext
    obtain ⟨rfl, hrows, rfl, -, hkeeps, hlive⟩ := changes_committed hchanges (next_moved hmove)
    refine ⟨hkeeps, by cases htold <;> trivial, fun userId => ?_⟩
    have hcount := hlive userId
    cases htold <;> simp_all [carries, endsSession, opensSession, commitsOne]
  · cases hnext

/-- A step of a call that is no refresh call, and is not about tokens. -/
theorem accounts_signIn {phase : Phase} {answer : Answer} (hrequest : ∀ token, call.request ≠ .refresh token)
    (hfits : Fits server i { call with phase })
    (hends : ∀ userId, endsSession settings userId server.db call answer = false)
    (hopens : ∀ userId, opensSession settings userId server.db call answer = false) :
    Accounts settings i server server call { call with phase } answer := by
  refine accounts_same hfits (fun userId => ?_) hends hopens
  have hafter : ∀ token, ({ call with phase } : Call).request ≠ .refresh token := hrequest
  rw [carries_of_not_refresh hafter userId, carries_of_not_refresh hrequest userId]

theorem accounts_statement {clock : Nat} {store store' : Store} {phase phase' : Phase} {answer : Answer}
    (hkeyed : Keyed store.users) (hinv : CallInv settings store.tokens i call) (hfits : Fits store.tokens i call)
    (hnext : call.statement settings i clock store = some (store', phase)) (htold : Told phase answer phase') :
    Accounts settings i store.tokens store'.tokens call { call with phase := phase' } answer := by
  obtain ⟨request, draws, old⟩ := call
  cases old with
  | registering email nickname passwordHash passwordSalt =>
    simp only [Call.statement] at hnext
    split at hnext <;> cases hnext
    · rename_i hregister
      unfold Store.register at hregister
      split at hregister <;> cases hregister
      exact accounts_signIn hinv (by cases htold <;> trivial) (fun _ => rfl) fun _ => by simp [opensSession]
    · exact accounts_signIn hinv (by cases htold <;> trivial) (fun _ => rfl) fun _ => by simp [opensSession]
  | findingUser email password =>
    cases hnext
    exact accounts_signIn hinv (by cases htold <;> trivial) (fun _ => rfl) fun _ => by simp [opensSession]
  | countingFailure userId failedAttempts lockedUntil evaluatedAt =>
    simp only [Call.statement] at hnext
    split at hnext <;> cases hnext
    · rename_i hupdate
      obtain ⟨credential, -, hupdate⟩ := Option.bind_eq_some_iff.mp hupdate
      cases hupdate
      exact accounts_signIn hinv (by cases htold <;> trivial) (fun _ => rfl) fun _ => by simp [opensSession]
    · exact accounts_signIn hinv (by cases htold <;> trivial) (fun _ => rfl) fun _ => by simp [opensSession]
  | resettingFailures user =>
    simp only [Call.statement] at hnext
    split at hnext <;> cases hnext
    · rename_i hupdate
      obtain ⟨credential, -, hupdate⟩ := Option.bind_eq_some_iff.mp hupdate
      cases hupdate
      exact accounts_signIn hinv (by cases htold <;> trivial) (fun _ => rfl) fun _ => by simp [opensSession]
    · exact accounts_signIn hinv (by cases htold <;> trivial) (fun _ => rfl) fun _ => by simp [opensSession]
  | findingToken sub tokenHash =>
    cases hnext
    refine accounts_same ?_ (fun userId => by cases htold <;> simp [carries]) (fun _ => rfl)
      fun _ => by simp [opensSession]
    cases htold with
    | lost hended => trivial
    | statement =>
      -- the user of a record is stored under the user id of its row
      intro id row user hfound
      obtain ⟨⟨id', row'⟩, hfind, hfound⟩ := Option.bind_eq_some_iff.mp hfound
      obtain ⟨user', huser, hfound⟩ := Option.bind_eq_some_iff.mp hfound
      cases hfound
      exact ⟨row, (findUnique_row hfind).1, (hkeyed _ _ huser).symm⟩
  | claiming user update =>
    obtain ⟨token, hrequest, -⟩ := hinv
    have hrefresh : isRefresh request = true := by
      dsimp only at hrequest
      rw [hrequest]
      rfl
    exact accounts_claiming rfl hrefresh hfits hnext htold
  | revoking update =>
    obtain ⟨userId, token, hrequest, hchanges⟩ := hfits
    exact accounts_revoking rfl hrequest hchanges hnext htold
  | creatingSession user expiresAt => exact accounts_creating rfl hnext htold
  | _ => cases hnext

theorem accounts_resume {clock : Nat} {phase : Phase} (hidle : Idle server i call)
    (hinv : CallInv settings server i call) (hfits : Fits server i call)
    (hnext : call.resume settings clock = some phase) :
    Accounts settings i server server call { call with phase } .resume := by
  obtain ⟨request, draws, old⟩ := call
  cases old with
  | foundUser password found readAt =>
    have hrejected : Accounts settings i server server ⟨request, draws, .foundUser password found readAt⟩
        ⟨request, draws, incorrectPassword⟩ .resume := accounts_signIn hinv trivial (fun _ => rfl) fun _ => rfl
    simp only [Call.resume] at hnext
    split at hnext
    · split at hnext <;> cases hnext
      · exact hrejected
      · exact accounts_signIn hinv trivial (fun _ => rfl) fun _ => rfl
    · cases hnext
      exact hrejected
  | verifying password user credential =>
    simp only [Call.resume] at hnext
    split at hnext <;> cases hnext <;> exact accounts_signIn hinv trivial (fun _ => rfl) fun _ => rfl
  | foundToken sub record =>
    have hrejected : Accounts settings i server server ⟨request, draws, .foundToken sub record⟩
        ⟨request, draws, invalidToken⟩ .resume :=
      accounts_same trivial (fun userId => by simp [carries, invalidToken]) (fun _ => rfl) fun _ => rfl
    simp only [Call.resume] at hnext
    split at hnext
    · rename_i id record user
      split at hnext <;> cases hnext
      · exact hrejected
      · have hbelongs : Belongs user.id server.db (.record id clock) := hfits id record user rfl
        have hchanges := changes_start (hidle rfl) clock hbelongs
        exact accounts_same hchanges (fun userId => by simp [carries]) (fun _ => rfl) fun _ => rfl
    · cases hnext
      exact hrejected
  | entering user =>
    cases hnext
    exact accounts_same trivial (fun _ => rfl) (fun _ => rfl) fun _ => rfl
  | _ => cases hnext

theorem accounts_failed (hwaiting : call.phase.isWaiting = true) :
    Accounts settings i server (server.rollback i) call { call with phase := .threw } .failed where
  keeps := .refl _
  fits := trivial
  ledger userId := by
    obtain ⟨request, draws, old⟩ := call
    cases old <;> simp_all [Phase.isWaiting, carries, endsSession, opensSession, isMade]

theorem accounts_next {clock : Nat} {store store' : Store} {phase : Phase} {answer : Answer}
    (hkeyed : Keyed store.users) (hidle : Idle store.tokens i call) (hinv : CallInv settings store.tokens i call)
    (hfits : Fits store.tokens i call) (hnext : call.next settings i clock store answer = some (store', phase)) :
    Accounts settings i store.tokens store'.tokens call { call with phase } answer := by
  cases answer with
  | statement => exact accounts_statement hkeyed hinv hfits hnext .statement
  | lost =>
    obtain ⟨⟨store₁, phase₁⟩, hstatement, hnext⟩ := Option.bind_eq_some_iff.mp hnext
    dsimp only at hnext
    split at hnext
    · cases hnext
    · rename_i hended
      cases hnext
      exact accounts_statement hkeyed hinv hfits hstatement (.lost (Bool.eq_false_iff.mpr hended))
  | failed =>
    simp only [Call.next] at hnext
    split at hnext <;> cases hnext
    exact accounts_failed ‹_›
  | resume =>
    obtain ⟨phase', hresume, hnext⟩ := Option.map_eq_some_iff.mp hnext
    cases hnext
    exact accounts_resume hidle hinv hfits hresume

theorem keyed_statement {clock : Nat} {store store' : Store} {phase : Phase} (hkeyed : Keyed store.users)
    (hnext : call.statement settings i clock store = some (store', phase)) : Keyed store'.users := by
  obtain ⟨request, draws, old⟩ := call
  cases old with
  | registering email nickname passwordHash passwordSalt =>
    simp only [Call.statement] at hnext
    split at hnext <;> cases hnext
    · rename_i hregister
      unfold Store.register at hregister
      split at hregister <;> cases hregister
      intro id user hget
      dsimp only at hget
      rw [OrderedMap.get_set] at hget
      split at hget
      · rename_i hid
        cases hget
        exact hid.symm
      · exact hkeyed id user hget
    · exact hkeyed
  | countingFailure userId failedAttempts lockedUntil evaluatedAt =>
    simp only [Call.statement] at hnext
    split at hnext <;> cases hnext
    · rename_i hupdate
      obtain ⟨credential, -, hupdate⟩ := Option.bind_eq_some_iff.mp hupdate
      cases hupdate
      exact hkeyed
    · exact hkeyed
  | resettingFailures user =>
    simp only [Call.statement] at hnext
    split at hnext <;> cases hnext
    · rename_i hupdate
      obtain ⟨credential, -, hupdate⟩ := Option.bind_eq_some_iff.mp hupdate
      cases hupdate
      exact hkeyed
    · exact hkeyed
  | findingUser email password =>
    cases hnext
    exact hkeyed
  | findingToken sub tokenHash =>
    cases hnext
    exact hkeyed
  | claiming user update | revoking update | creatingSession user expiresAt =>
    simp only [Call.statement] at hnext
    split at hnext <;> cases hnext <;> exact hkeyed
  | _ => cases hnext

theorem keyed_next {clock : Nat} {store store' : Store} {phase : Phase} {answer : Answer} (hkeyed : Keyed store.users)
    (hnext : call.next settings i clock store answer = some (store', phase)) : Keyed store'.users := by
  cases answer with
  | statement => exact keyed_statement hkeyed hnext
  | lost =>
    obtain ⟨⟨store₁, phase₁⟩, hstatement, hnext⟩ := Option.bind_eq_some_iff.mp hnext
    dsimp only at hnext
    split at hnext <;> cases hnext
    exact keyed_statement hkeyed hstatement
  | failed =>
    simp only [Call.next] at hnext
    split at hnext <;> cases hnext
    exact hkeyed
  | resume =>
    obtain ⟨phase', -, hnext⟩ := Option.map_eq_some_iff.mp hnext
    cases hnext
    exact hkeyed

/-! ## The service -/

structure Inv (settings : AuthSettings) (s : System) : Prop where
  rotation : RefreshRotation.Inv settings s
  keyed : Keyed s.store.users
  fits : ∀ i call, s.calls.get i = some call → Fits s.store.tokens i call

/-- A step of a call, with what it does to the rows and to the sessions. -/
theorem advance_accounts {answer : Answer} (h : Inv settings s)
    (hstep : step settings s (.advance i answer) = some s') :
    ∃ call phase store, s.calls.get i = some call ∧ s' = { s with store, calls := s.calls.set i { call with phase } } ∧
      Keyed store.users ∧ Moves i s.store.tokens store.tokens ∧
      Accounts settings i s.store.tokens store.tokens call { call with phase } answer := by
  obtain ⟨call, phase, store, hget, heq, hnext, hadvances⟩ := advance_cases h.rotation hstep
  have hidle : Idle s.store.tokens i call := by
    refine fun hphase => h.rotation.idle i fun other hother => ?_
    rw [hget, Option.mem_some_iff] at hother
    exact hother ▸ hphase
  exact ⟨call, phase, store, hget, heq, keyed_next h.keyed hnext, hadvances.moves,
    accounts_next h.keyed hidle (h.rotation.calls i call hget) (h.fits i call hget) hnext⟩

/-- A new call is about no row yet. -/
theorem fits_start {request : Request} {draws : Draws} {clock : Nat} (hidle : server.writes i = []) :
    Fits server i ⟨request, draws, request.start settings clock⟩ := by
  cases request with
  | logout userId refreshToken => exact ⟨userId, refreshToken, rfl, changes_start hidle clock rfl⟩
  | refresh refreshToken =>
    unfold Request.start Fits
    dsimp only
    cases settings.verifyRefreshToken refreshToken clock <;> trivial
  | _ => trivial

/-- A new call has revoked no token. -/
theorem carries_start {request : Request} {draws : Draws} {clock : Nat} (userId : String) :
    carries userId ⟨request, draws, request.start settings clock⟩ = false := by
  cases request with
  | refresh refreshToken =>
    unfold carries Request.start
    dsimp only
    cases settings.verifyRefreshToken refreshToken clock <;> rfl
  | _ => rfl

theorem inv_step {l : Label} (h : Inv settings s) (hstep : step settings s l = some s') : Inv settings s' := by
  have hrotation := RefreshRotation.inv_step h.rotation hstep
  cases l with
  | call j request draws =>
    simp only [step] at hstep
    split at hstep <;> cases hstep
    rename_i hfree
    refine ⟨hrotation, h.keyed, fun i call hget => ?_⟩
    dsimp only at hget
    rw [OrderedMap.get_set] at hget
    split at hget
    · rename_i hij
      cases hget
      refine hij ▸ fits_start (h.rotation.idle i fun call hget => ?_)
      rw [hij, hfree] at hget
      cases hget
    · exact h.fits i call hget
  | advance j answer =>
    obtain ⟨old, phase, store, hold, rfl, hkeyed, hmoves, haccounts⟩ := advance_accounts h hstep
    refine ⟨hrotation, hkeyed, fun i call hget => ?_⟩
    dsimp only at hget
    rw [OrderedMap.get_set] at hget
    split at hget
    · rename_i hij
      cases hget
      exact hij ▸ haccounts.fits
    · rename_i hij
      exact (h.fits i call hget).moves hmoves haccounts.keeps hij
  | tick ms =>
    cases hstep
    exact ⟨hrotation, h.keyed, h.fits⟩

/-- A step changes the number of sessions by those that it opens and ends. -/
theorem sessions_step {l : Label} (h : Inv settings s) (hstep : step settings s l = some s') (userId : String) :
    sessions userId s' + (ends settings userId s l).toNat =
      sessions userId s + (opens settings userId s l).toNat := by
  cases l with
  | call j request draws =>
    simp only [step] at hstep
    split at hstep <;> cases hstep
    rename_i hfree
    have hcount := OrderedMap.countP_set (carries userId) s.calls j ⟨request, draws, request.start settings s.clock⟩
    rw [hfree, carries_start] at hcount
    simpa [sessions, ends, opens] using hcount
  | advance j answer =>
    obtain ⟨call, phase, store, hget, rfl, -, -, haccounts⟩ := advance_accounts h hstep
    have hcount := OrderedMap.countP_set (carries userId) s.calls j { call with phase }
    have hledger := haccounts.ledger userId
    rw [hget, Option.map_some, Option.getD_some] at hcount
    simp only [sessions, ends, opens, hget, Option.any_some]
    omega
  | tick ms =>
    cases hstep
    rfl

/-- In every run the sessions of a user are those from before it and those that sign-ins have opened, but for
those that have ended; refresh calls never add one. -/
theorem sessions_conserved (settings : AuthSettings) (users : OrderedMap String User)
    (credentials : OrderedMap String PasswordCredential) (tokens : TokenTable) (hkeyed : Keyed users)
    {ls : List Label} (hrun : run (step settings) (start users credentials tokens) ls = some s) (userId : String) :
    live userId s.store.tokens.db + s.calls.values.countP (carries userId) +
        tally (step settings) (ends settings userId) (start users credentials tokens) ls =
      live userId tokens + tally (step settings) (opens settings userId) (start users credentials tokens) ls := by
  have hstart : Inv settings (start users credentials tokens) :=
    ⟨inv_start settings users credentials tokens, hkeyed, fun _ _ h => by cases h⟩
  exact ledger_run (fun _ _ _ => inv_step) (fun _ _ _ h hstep => sessions_step h hstep userId) hstart hrun

/-- The one session goes on through a refresh call until the logout ends it. -/
theorem sessions_conserved_demoRun :
    ∃ s, run (step demoSettings) (start demoUsers .empty .empty) demoRun = some s ∧
      live "user" s.store.tokens.db + s.calls.values.countP (carries "user") + 1 = 1 := by
  have hsome : (run (step demoSettings) (start demoUsers .empty .empty) demoRun).isSome = true := by decide +kernel
  obtain ⟨s, hrun⟩ := Option.isSome_iff_exists.mp hsome
  have hkeyed : Keyed demoUsers := by
    intro id user hget
    rw [demoUsers, OrderedMap.get_set] at hget
    split at hget
    · rename_i hid
      cases hget
      exact hid.symm
    · cases hget
  have hledger := sessions_conserved demoSettings demoUsers .empty .empty hkeyed hrun "user"
  have hends : tally (step demoSettings) (ends demoSettings "user") (start demoUsers .empty .empty) demoRun = 1 := by
    decide +kernel
  have hopens : tally (step demoSettings) (opens demoSettings "user") (start demoUsers .empty .empty) demoRun = 1 := by
    decide +kernel
  rw [hends, hopens] at hledger
  exact ⟨s, hrun, hledger⟩

end SessionLedger
