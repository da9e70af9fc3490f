import ClawWork.JavaScript
import ClawWork.OrderedMap

/-!
# The session of the phone

`authStore`, the requests of the API client and the refresh that they share, with
`login` and `logout` on top. Every `await` is a place where another step may come in
between. Beside the store stands what it is for: the session that the user is in.
-/

namespace MobileSession

structure StoredSession where
  accessToken : Option String
  refreshToken : Option String
  userId : Option String
  email : Option String
  nickname : Option String
  deriving DecidableEq, Repr

structure AuthState extends StoredSession where
  hydrated : Bool
  deriving DecidableEq, Repr

structure AuthUser where
  id : String
  email : Option String
  nickname : String
  deriving DecidableEq, Repr

structure AuthResponse where
  accessToken : String
  refreshToken : String
  user : AuthUser
  deriving DecidableEq, Repr

/-- `authStore.setSession` with the members of an answer. -/
def setSession (session : AuthResponse) : AuthState where
  accessToken := some session.accessToken
  refreshToken := some session.refreshToken
  userId := some session.user.id
  email := session.user.email
  nickname := some session.user.nickname
  hydrated := true

/-- `authStore.clear`. -/
def clear : AuthState := ⟨⟨none, none, none, none, none⟩, true⟩

/-! ## What the store is for -/

/-- The sessions of the user one after the other, and what the store should hold. -/
structure Account where
  session : Nat
  store : AuthState
  deriving DecidableEq, Repr

namespace Account

def signIn (account : Account) (session : AuthResponse) : Account := ⟨account.session + 1, setSession session⟩

def signOut (account : Account) : Account := ⟨account.session + 1, clear⟩

/-- New tokens are for the session in which they were asked for. -/
def refreshed (account : Account) (session : Nat) (answer : AuthResponse) : Account :=
  if session = account.session then { account with store := setSession answer } else account

/-- Refused tokens end the session in which they were refused. -/
def refused (account : Account) (session : Nat) : Account :=
  if session = account.session then account.signOut else account

end Account

/-! ## The client -/

/-- A refresh: its fetch, its answer being read, and its outcome before and after `finally`. -/
inductive RefreshPhase where
  | fetching
  | reading
  | settled (refreshed : Bool)
  | finished (refreshed : Bool)
  deriving DecidableEq, Repr

/-- `session` is the one that the user was in when the refresh was started. -/
structure Refresh where
  refreshToken : String
  session : Nat
  phase : RefreshPhase
  deriving DecidableEq, Repr

/-- What a request is for; the two requests of `logout` come one after the other. -/
inductive Purpose where
  | api
  | login
  | unregister (refreshToken : Option String)
  | logout
  deriving DecidableEq, Repr

inductive RequestPhase where
  | fetching (allowRefresh : Bool)
  | refreshing (refresh : Nat)
  | rejecting
  | reading
  | finished
  deriving DecidableEq, Repr

/-- `baseUrls` are the one in use and those that are left to try. -/
structure Request where
  purpose : Purpose
  baseUrls : List String
  phase : RequestPhase
  deriving DecidableEq, Repr

/-- What `fetch` gives. An error is tried again at the next base URL when its text says so. -/
inductive Reply where
  | thrown (again : Bool)
  | unauthorized (again : Bool)
  | refused (again : Bool)
  | ok
  deriving DecidableEq, Repr

structure Phone where
  store : AuthState
  refreshPromise : Option Nat
  refreshes : List Refresh
  requests : OrderedMap Nat Request
  account : Account

namespace Phone

/-- A store that the app has read at its start. -/
def start (store : AuthState) : Phone := ⟨store, none, [], .empty, ⟨0, store⟩⟩

def putRequest (s : Phone) (i : Nat) (request : Request) : Phone :=
  { s with requests := s.requests.set i request }

def putRefresh (s : Phone) (r : Nat) (refresh : Refresh) : Phone :=
  { s with refreshes := s.refreshes.set r refresh }

/-- The end of `logout`. -/
def signOut (s : Phone) : Phone := { s with store := clear, account := s.account.signOut }

/-- The second request of `logout`, if it has a token to revoke. -/
def revoke (baseUrls : List String) (s : Phone) (i : Nat) (refreshToken : Option String) : Phone :=
  if refreshToken.any (· ≠ "") then s.putRequest i ⟨.logout, baseUrls, .fetching true⟩
  else (s.putRequest i ⟨.logout, baseUrls, .finished⟩).signOut

/-- What follows a request that has ended, with the body of its answer if it has one. -/
def finish (baseUrls : List String) (s : Phone) (i : Nat) (request : Request) (body : Option AuthResponse) :
    Phone :=
  let ended := s.putRequest i { request with phase := .finished }
  match request.purpose with
  | .api => ended
  | .login =>
    match body with
    | some session => { ended with store := setSession session, account := s.account.signIn session }
    | none => ended
  | .unregister refreshToken => s.revoke baseUrls i refreshToken
  | .logout => ended.signOut

/-- A request that throws; `again` says that the next base URL is to be tried. -/
def throw (baseUrls : List String) (s : Phone) (i : Nat) (request : Request) (again : Bool) : Phone :=
  match request.baseUrls with
  | _ :: next :: rest =>
    if again then s.putRequest i { request with baseUrls := next :: rest, phase := .fetching true }
    else s.finish baseUrls i request none
  | _ => s.finish baseUrls i request none

/-- `refreshSession` up to its `await`; `none` where it returns false at once. -/
def joinRefresh (s : Phone) : Option (Phone × Nat) :=
  match s.store.refreshToken with
  | none => none
  | some refreshToken =>
    if refreshToken = "" then none
    else
      match s.refreshPromise with
      | some r => some (s, r)
      | none =>
        let r := s.refreshes.length
        some ({ s with
          refreshPromise := some r
          refreshes := s.refreshes ++ [⟨refreshToken, s.account.session, .fetching⟩] }, r)

/-- A request gets what its `fetch` gives. -/
def respond (baseUrls : List String) (s : Phone) (i : Nat) (request : Request) (allowRefresh : Bool) :
    Reply → Phone
  | .thrown again | .refused again => s.throw baseUrls i request again
  | .unauthorized again =>
    if allowRefresh then
      match s.joinRefresh with
      | some (s, r) => s.putRequest i { request with phase := .refreshing r }
      | none => s.throw baseUrls i request again
    else s.throw baseUrls i request again
  | .ok => s.putRequest i { request with phase := .reading }

/-- A request goes on after the refresh that it has waited for. -/
def resume (s : Phone) (i : Nat) (request : Request) (refresh : Refresh) (refreshed : Bool) : Phone :=
  if refreshed then s.putRequest i { request with phase := .fetching false }
  else
    { s.putRequest i { request with phase := .rejecting } with
      store := clear
      account := s.account.refused refresh.session }

/-- The answer of a refresh is read: tokens, or something that has none. -/
def refreshRead (s : Phone) (r : Nat) (refresh : Refresh) : Option AuthResponse → Phone
  | some session =>
    { s.putRefresh r { refresh with phase := .settled true } with
      store := setSession session
      account := s.account.refreshed refresh.session session }
  | none => s.putRefresh r { refresh with phase := .settled false }

end Phone

/-- The body of an answer; of a login it should hold a session. -/
inductive Body where
  | unreadable (again : Bool)
  | readable (session : Option AuthResponse)
  deriving DecidableEq, Repr

inductive Label where
  | request (i : Nat)
  | login (i : Nat)
  | logout (i : Nat) (registered : Bool)
  | respond (i : Nat) (reply : Reply)
  | read (i : Nat) (body : Body)
  | resume (i : Nat)
  | reject (i : Nat) (again : Bool)
  | refreshRespond (r : Nat) (ok : Bool)
  | refreshRead (r : Nat) (body : Option AuthResponse)
  | refreshFinally (r : Nat)
  deriving DecidableEq, Repr

def step (baseUrls : List String) (s : Phone) : Label → Option Phone
  | .request i =>
    if s.requests.get i = none then some (s.putRequest i ⟨.api, baseUrls, .fetching true⟩) else none
  | .login i =>
    if s.requests.get i = none then some (s.putRequest i ⟨.login, baseUrls, .fetching true⟩) else none
  | .logout i registered =>
    if s.requests.get i = none then
      if registered then some (s.putRequest i ⟨.unregister s.store.refreshToken, baseUrls, .fetching true⟩)
      else some (s.revoke baseUrls i s.store.refreshToken)
    else none
  | .respond i reply => do
    let request ← s.requests.get i
    match request.phase with
    | .fetching allowRefresh => some (s.respond baseUrls i request allowRefresh reply)
    | _ => none
  | .read i body => do
    let request ← s.requests.get i
    match request.phase, body with
    | .reading, .readable session => some (s.finish baseUrls i request session)
    | .reading, .unreadable again => some (s.throw baseUrls i request again)
    | _, _ => none
  | .resume i => do
    let request ← s.requests.get i
    match request.phase with
    | .refreshing r =>
      let refresh ← s.refreshes[r]?
      match refresh.phase with
      | .finished refreshed => some (s.resume i request refresh refreshed)
      | _ => none
    | _ => none
  | .reject i again => do
    let request ← s.requests.get i
    match request.phase with
    | .rejecting => some (s.throw baseUrls i request again)
    | _ => none
  | .refreshRespond r ok => do
    let refresh ← s.refreshes[r]?
    match refresh.phase with
    | .fetching => some (s.putRefresh r { refresh with phase := if ok then .reading else .settled false })
    | _ => none
  | .refreshRead r body => do
    let refresh ← s.refreshes[r]?
    match refresh.phase with
    | .reading => some (s.refreshRead r refresh body)
    | _ => none
  | .refreshFinally r => do
    let refresh ← s.refreshes[r]?
    match refresh.phase with
    | .settled refreshed =>
      some { s.putRefresh r { refresh with phase := .finished refreshed } with refreshPromise := none }
    | _ => none

end MobileSession
