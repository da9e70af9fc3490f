import ClawWork.JavaScript
import ClawWork.OrderedMap
import ClawWork.ReadCommitted

/-!
# Signing in

`AuthService` over the tables of users, password credentials and refresh tokens,
statement by statement. A read sees what is committed. `updateMany` chooses its
rows from what is committed when it starts, waits for the lock of each of them, and
tests the row again once the lock is free. What a call does between two statements
it does with what it has read, at the time that its clock shows then.
-/

namespace AuthService

open JavaScript ReadCommitted

structure User where
  id : String
  email : Option String
  nickname : String
  deriving DecidableEq, Repr

structure PasswordCredential where
  passwordHash : String
  passwordSalt : String
  failedAttempts : Nat
  lockedUntil : Option Nat
  deriving DecidableEq, Repr

structure RefreshToken where
  userId : String
  tokenHash : String
  expiresAt : Nat
  revokedAt : Option Nat
  deriving DecidableEq, Repr

/-- The refresh tokens by id; `tokenHash` is unique. -/
structure TokenTable where
  rows : OrderedMap String RefreshToken
  unique : ∀ j k row row', rows.get j = some row → rows.get k = some row' → row.tokenHash = row'.tokenHash → j = k

namespace TokenTable

def empty : TokenTable := ⟨.empty, fun _ _ _ _ h => by cases h⟩

def findUnique (table : TokenTable) (tokenHash : String) : Option (String × RefreshToken) :=
  table.rows.entries.find? fun entry => entry.2.tokenHash = tokenHash

/-- `data: { revokedAt }` for the row with the id. -/
def revoke (id : String) (now : Nat) (table : TokenTable) : TokenTable where
  rows := match table.rows.get id with
    | some row => table.rows.set id { row with revokedAt := some now }
    | none => table.rows
  unique := by
    have hkept : ∀ k row, (match table.rows.get id with
        | some row => table.rows.set id { row with revokedAt := some now }
        | none => table.rows).get k = some row →
          ∃ old, table.rows.get k = some old ∧ old.tokenHash = row.tokenHash := by
      intro k row hget
      split at hget
      · rename_i old hold
        rw [OrderedMap.get_set] at hget
        split at hget
        · rename_i heq
          cases hget
          exact ⟨old, heq ▸ hold, rfl⟩
        · exact ⟨row, hget, rfl⟩
      · exact ⟨row, hget, rfl⟩
    intro j k row row' hj hk hhash
    obtain ⟨old, hold, heq⟩ := hkept j row hj
    obtain ⟨old', hold', heq'⟩ := hkept k row' hk
    exact table.unique j k old old' hold hold' (heq.trans (hhash.trans heq'.symm))

/-- A new row, unless its id or its hash is taken. -/
def create (id : String) (new : RefreshToken) (table : TokenTable) : Option TokenTable :=
  if h : (∀ row ∈ table.rows.values, row.tokenHash ≠ new.tokenHash) ∧ table.rows.get id = none then
    some {
      rows := table.rows.set id new
      unique := by
        have hother : ∀ k row, (table.rows.set id new).get k = some row → row.tokenHash = new.tokenHash →
            k = id := by
          intro k row hget hhash
          rw [OrderedMap.get_set] at hget
          split at hget
          · assumption
          · exact absurd hhash (h.1 row ((OrderedMap.mem_values_iff _ _).mpr ⟨k, hget⟩))
        intro j k row row' hj hk hhash
        by_cases hjid : j = id
        · rw [hjid, OrderedMap.get_set_same, Option.some.injEq] at hj
          rw [hjid]
          exact (hother k row' hk (by rw [← hhash, ← hj])).symm
        · by_cases hkid : k = id
          · rw [hkid, OrderedMap.get_set_same, Option.some.injEq] at hk
            rw [hkid]
            exact hother j row hj (by rw [hhash, ← hk])
          · rw [OrderedMap.get_set_other _ _ hjid] at hj
            rw [OrderedMap.get_set_other _ _ hkid] at hk
            exact table.unique j k row row' hj hk hhash }
  else none

end TokenTable

/-- The `where` of an `updateMany` that revokes refresh tokens. -/
inductive Clause where
  | record (id : String) (now : Nat)
  | token (userId tokenHash : String)
  deriving DecidableEq, Repr

def Clause.holds : Clause → String → RefreshToken → Bool
  | .record id now, key, row => key = id && row.revokedAt = none && now < row.expiresAt
  | .token userId tokenHash, _, row => row.userId = userId && row.tokenHash = tokenHash && row.revokedAt = none

abbrev TokenServer : Type := Server TokenTable String

/-- An `updateMany` under way: the rows that are left of those it has chosen, and how many it has changed. -/
structure UpdateMany where
  clause : Clause
  revokedAt : Nat
  rows : Option (List String)
  count : Nat
  deriving DecidableEq, Repr

namespace UpdateMany

def start (clause : Clause) (now : Nat) : UpdateMany := ⟨clause, now, none, 0⟩

/-- The statement chooses its rows. -/
def choose (update : UpdateMany) (table : TokenTable) : UpdateMany :=
  let rows := (table.rows.entries.filter fun entry => update.clause.holds entry.1 entry.2).map Prod.fst
  { update with rows := some rows }

/-- The next row, once its lock is free; a row that no longer meets the clause is left alone. -/
def lockRow (update : UpdateMany) (i : Nat) (server : TokenServer) (id : String) (rest : List String) :
    Option (TokenServer × UpdateMany) := do
  let locked ← server.acquire i id
  match (locked.view i).rows.get id with
  | some row =>
    if update.clause.holds id row then
      some (locked.write i (.revoke id update.revokedAt),
        { update with rows := some rest, count := update.count + 1 })
    else some (server, { update with rows := some rest })
  | none => some (server, { update with rows := some rest })

/-- One move of the statement: a count once it has committed. -/
def next (update : UpdateMany) (i : Nat) (server : TokenServer) :
    Option (TokenServer × (UpdateMany ⊕ Nat)) :=
  match update.rows with
  | none => some (server, .inl (update.choose server.db))
  | some (id :: rest) => (update.lockRow i server id rest).map fun (server, update) => (server, .inl update)
  | some [] => some (server.commit i, .inr update.count)

end UpdateMany

/-- What is not in the repository: case mapping, password hashing and signed tokens. -/
structure AuthSettings where
  toLowerCase : String → String
  verifyPassword : String → String → String → Bool
  verifyRefreshToken : String → Nat → Option String
  hashRefreshToken : String → String

inductive Request where
  | register (email nickname passwordHash passwordSalt : String)
  | login (email password : String)
  /-- `devLogin` once it has its user. -/
  | devLogin (user : User)
  | refresh (refreshToken : String)
  | logout (userId refreshToken : String)
  deriving DecidableEq, Repr

/-- What a call draws at random: the ids of its rows and its tokens. -/
structure Draws where
  userId : String
  tokenId : String
  accessToken : String
  refreshToken : String
  deriving DecidableEq, Repr

structure Session where
  accessToken : String
  refreshToken : String
  user : User
  deriving DecidableEq, Repr

/-- Where a call is; the `find…` phases and those with an update wait for the database. -/
inductive Phase where
  | registering (email nickname passwordHash passwordSalt : String)
  | findingUser (email password : String)
  | foundUser (password : String) (found : Option (User × PasswordCredential)) (readAt : Nat)
  | verifying (password : String) (user : User) (credential : PasswordCredential)
  | countingFailure (userId : String) (failedAttempts : Nat) (lockedUntil : Option Nat) (evaluatedAt : Nat)
  | resettingFailures (user : User)
  | findingToken (sub tokenHash : String)
  | foundToken (sub : String) (record : Option (String × RefreshToken × User))
  | claiming (user : User) (update : UpdateMany)
  | revoking (update : UpdateMany)
  | entering (user : User)
  | creatingSession (user : User) (expiresAt : Nat)
  | returned (session : Session)
  | loggedOut (count : Nat)
  | rejected (message : String)
  | threw
  deriving DecidableEq, Repr

structure Call where
  request : Request
  draws : Draws
  phase : Phase
  deriving DecidableEq, Repr

def refreshTokenLifetimeMs : Nat := 30 * 24 * 60 * 60 * 1000

def lockMs : Nat := 15 * 60 * 1000

def incorrectPassword : Phase := .rejected "email or password is incorrect"

def invalidToken : Phase := .rejected "refresh token is invalid or expired"

/-- What a call does before its first statement. -/
def Request.start (settings : AuthSettings) (clock : Nat) : Request → Phase
  | .register email nickname passwordHash passwordSalt =>
    .registering (settings.toLowerCase (trim email)) (trim nickname) passwordHash passwordSalt
  | .login email password => .findingUser (settings.toLowerCase (trim email)) password
  | .devLogin user => .entering user
  | .refresh refreshToken =>
    match settings.verifyRefreshToken refreshToken clock with
    | some sub => .findingToken sub (settings.hashRefreshToken refreshToken)
    | none => invalidToken
  | .logout userId refreshToken =>
    .revoking (.start (.token userId (settings.hashRefreshToken refreshToken)) clock)

/-- How a login attempt has ended for its account. -/
inductive Outcome where
  | wrong (evaluatedAt : Nat)
  | right
  deriving DecidableEq, Repr

/-- The database, and with it the outcomes of the login attempts in the order of their updates. -/
structure Store where
  users : OrderedMap String User
  credentials : OrderedMap String PasswordCredential
  tokens : TokenServer
  outcomes : List (String × Outcome)

namespace Store

/-- The transaction of `register`. -/
def register (store : Store) (user : User) (credential : PasswordCredential) : Option Store :=
  if (store.users.values.all fun other => other.email ≠ user.email) ∧ store.users.get user.id = none ∧
      store.credentials.get user.id = none then
    some { store with
      users := store.users.set user.id user
      credentials := store.credentials.set user.id credential }
  else none

def findUser (store : Store) (email : String) : Option (User × PasswordCredential) := do
  let user ← store.users.values.find? fun user => user.email = some email
  let credential ← store.credentials.get user.id
  some (user, credential)

/-- The record of a refresh token with its user. -/
def findToken (store : Store) (tokenHash : String) : Option (String × RefreshToken × User) := do
  let (id, record) ← store.tokens.db.findUnique tokenHash
  let user ← store.users.get record.userId
  some (id, record, user)

/-- `update` of a password credential, which must be there. -/
def updateCredential (store : Store) (userId : String) (failedAttempts : Nat) (lockedUntil : Option Nat)
    (outcome : Outcome) : Option Store := do
  let credential ← store.credentials.get userId
  some { store with
    credentials := store.credentials.set userId { credential with failedAttempts, lockedUntil }
    outcomes := store.outcomes ++ [(userId, outcome)] }

end Store

/-- A statement of the call; `none` while it waits for a lock. -/
def Call.statement (settings : AuthSettings) (i clock : Nat) (store : Store) (call : Call) :
    Option (Store × Phase) :=
  match call.phase with
  | .registering email nickname passwordHash passwordSalt =>
    let user : User := ⟨call.draws.userId, some email, nickname⟩
    match store.register user ⟨passwordHash, passwordSalt, 0, none⟩ with
    | some store => some (store, .entering user)
    | none => some (store, .rejected "email is already registered")
  | .findingUser email password => some (store, .foundUser password (store.findUser email) clock)
  | .countingFailure userId failedAttempts lockedUntil evaluatedAt =>
    match store.updateCredential userId failedAttempts lockedUntil (.wrong evaluatedAt) with
    | some store => some (store, incorrectPassword)
    | none => some (store, .threw)
  | .resettingFailures user =>
    match store.updateCredential user.id 0 none .right with
    | some store => some (store, .entering user)
    | none => some (store, .threw)
  | .findingToken sub tokenHash => some (store, .foundToken sub (store.findToken tokenHash))
  | .claiming user update =>
    match update.next i store.tokens with
    | some (tokens, .inl update) => some ({ store with tokens }, .claiming user update)
    | some (tokens, .inr count) =>
      some ({ store with tokens }, if count = 1 then .entering user else invalidToken)
    | none => none
  | .revoking update =>
    match update.next i store.tokens with
    | some (tokens, .inl update) => some ({ store with tokens }, .revoking update)
    | some (tokens, .inr count) => some ({ store with tokens }, .loggedOut count)
    | none => none
  | .creatingSession user expiresAt =>
    let row : RefreshToken := ⟨user.id, settings.hashRefreshToken call.draws.refreshToken, expiresAt, none⟩
    match store.tokens.db.create call.draws.tokenId row with
    | some table =>
      some ({ store with tokens := store.tokens.direct fun _ => table },
        .returned ⟨call.draws.accessToken, call.draws.refreshToken, user⟩)
    | none => some (store, .threw)
  | _ => none

/-- The call goes on after an `await`. -/
def Call.resume (settings : AuthSettings) (clock : Nat) (call : Call) : Option Phase :=
  match call.phase with
  | .foundUser password found _ =>
    match found with
    | some (user, credential) =>
      if ∃ lock ∈ credential.lockedUntil, clock < lock then some incorrectPassword
      else some (.verifying password user credential)
    | none => some incorrectPassword
  | .verifying password user credential =>
    if settings.verifyPassword password credential.passwordHash credential.passwordSalt then
      some (.resettingFailures user)
    else
      let failedAttempts := credential.failedAttempts + 1
      let lockedUntil := if 5 ≤ failedAttempts then some (clock + lockMs) else none
      some (.countingFailure user.id failedAttempts lockedUntil clock)
  | .foundToken sub record =>
    match record with
    | some (id, record, user) =>
      if record.userId ≠ sub ∨ record.revokedAt.isSome = true ∨ record.expiresAt ≤ clock then some invalidToken
      else some (.claiming user (.start (.record id clock) clock))
    | none => some invalidToken
  | .entering user => some (.creatingSession user (clock + refreshTokenLifetimeMs))
  | _ => none

/-- The phases inside an `updateMany`. -/
def Phase.isUpdating : Phase → Bool
  | .claiming _ _ | .revoking _ => true
  | _ => false

/-- The phases that wait for a statement. -/
def Phase.isWaiting : Phase → Bool
  | .registering _ _ _ _ | .findingUser _ _ | .countingFailure _ _ _ _ | .resettingFailures _
  | .findingToken _ _ | .claiming _ _ | .revoking _ | .creatingSession _ _ => true
  | _ => false

/-- What happens to a call: its next statement is made, its answer may be lost, or it fails and leaves nothing. -/
inductive Answer where
  | statement
  | lost
  | failed
  | resume
  deriving DecidableEq, Repr

def Call.next (settings : AuthSettings) (i clock : Nat) (store : Store) (call : Call) :
    Answer → Option (Store × Phase)
  | .statement => call.statement settings i clock store
  | .lost => do
    let (store, phase) ← call.statement settings i clock store
    if phase.isUpdating then none else some (store, .threw)
  | .failed =>
    if call.phase.isWaiting then some ({ store with tokens := store.tokens.rollback i }, .threw) else none
  | .resume => (call.resume settings clock).map fun phase => (store, phase)

structure System where
  clock : Nat
  store : Store
  calls : OrderedMap Nat Call

inductive Label where
  | call (i : Nat) (request : Request) (draws : Draws)
  | advance (i : Nat) (answer : Answer)
  | tick (ms : Nat)
  deriving DecidableEq, Repr

def step (settings : AuthSettings) (s : System) : Label → Option System
  | .call i request draws =>
    if s.calls.get i = none then
      some { s with calls := s.calls.set i ⟨request, draws, request.start settings s.clock⟩ }
    else none
  | .advance i answer => do
    let call ← s.calls.get i
    let (store, phase) ← call.next settings i s.clock s.store answer
    some { s with store, calls := s.calls.set i { call with phase } }
  | .tick ms => some { s with clock := s.clock + ms }

/-- The service over a database, with no call under way and no attempt counted. -/
def start (users : OrderedMap String User) (credentials : OrderedMap String PasswordCredential)
    (tokens : TokenTable) : System :=
  ⟨0, ⟨users, credentials, .start tokens, []⟩, .empty⟩

end AuthService
