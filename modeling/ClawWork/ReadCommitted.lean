import Mathlib.Logic.Function.Basic

/-!
# Transactions under READ COMMITTED

A server keeps the committed database, the owner of every lock, and for every
open transaction the writes that nobody else sees yet. A statement reads the
committed database with the writes of its own transaction on top; a lock is held
to the end of its transaction. Nothing here fixes the order of the statements of
different transactions.
-/

namespace ReadCommitted

/-- `δ` is the type of databases and `κ` the type of what can be locked; transactions are numbered. -/
structure Server (δ κ : Type*) where
  db : δ
  locks : κ → Option Nat
  writes : Nat → List (δ → δ)

variable {δ κ : Type*}

/-- The writes in turn. -/
def applyWrites (ws : List (δ → δ)) (db : δ) : δ := ws.foldl (fun db w => w db) db

@[simp] theorem applyWrites_nil (db : δ) : applyWrites [] db = db := rfl

@[simp] theorem applyWrites_cons (w : δ → δ) (ws : List (δ → δ)) (db : δ) :
    applyWrites (w :: ws) db = applyWrites ws (w db) := rfl

@[simp] theorem applyWrites_append (vs ws : List (δ → δ)) (db : δ) :
    applyWrites (vs ++ ws) db = applyWrites ws (applyWrites vs db) := by
  simp [applyWrites, List.foldl_append]

namespace Server

def start (db : δ) : Server δ κ := ⟨db, fun _ => none, fun _ => []⟩

/-- What a statement of the transaction sees. -/
def view (s : Server δ κ) (i : Nat) : δ := applyWrites (s.writes i) s.db

/-- The transaction takes a lock, unless another one holds it. -/
def acquire [DecidableEq κ] (s : Server δ κ) (i : Nat) (k : κ) : Option (Server δ κ) :=
  match s.locks k with
  | none => some { s with locks := Function.update s.locks k (some i) }
  | some j => if j = i then some s else none

def write (s : Server δ κ) (i : Nat) (w : δ → δ) : Server δ κ :=
  { s with writes := Function.update s.writes i (s.writes i ++ [w]) }

/-- A change that is committed at once: a transaction of one statement, or a sequence. -/
def direct (s : Server δ κ) (f : δ → δ) : Server δ κ := { s with db := f s.db }

def rollback (s : Server δ κ) (i : Nat) : Server δ κ where
  db := s.db
  locks k := if s.locks k = some i then none else s.locks k
  writes := Function.update s.writes i []

def commit (s : Server δ κ) (i : Nat) : Server δ κ := { s.rollback i with db := s.view i }

variable {s s' : Server δ κ} {i j : Nat} {k : κ}

theorem acquire_eq_some [DecidableEq κ] (h : s.acquire i k = some s') :
    s'.db = s.db ∧ s'.writes = s.writes ∧ s'.locks = Function.update s.locks k (some i) := by
  unfold acquire at h
  split at h
  · cases h
    exact ⟨rfl, rfl, rfl⟩
  · rename_i j hj
    split at h
    · rename_i hji
      cases h
      refine ⟨rfl, rfl, ?_⟩
      rw [← hji, ← hj, Function.update_eq_self]
    · cases h

/-- What is held stays held when a lock is taken. -/
theorem acquire_keeps [DecidableEq κ] (h : s.acquire i k = some s') {k' : κ}
    (hheld : s.locks k' = some j) : s'.locks k' = some j := by
  rw [(acquire_eq_some h).2.2, Function.update_apply]
  split
  · rename_i heq
    rw [heq] at hheld
    rw [acquire, hheld] at h
    by_cases hji : j = i
    · rw [hji]
    · simp [hji] at h
  · exact hheld

@[simp] theorem write_db (s : Server δ κ) (i : Nat) (w : δ → δ) : (s.write i w).db = s.db := rfl

@[simp] theorem write_locks (s : Server δ κ) (i : Nat) (w : δ → δ) :
    (s.write i w).locks = s.locks := rfl

theorem write_writes (s : Server δ κ) (i j : Nat) (w : δ → δ) :
    (s.write i w).writes j = if j = i then s.writes i ++ [w] else s.writes j := by
  simp [write, Function.update_apply]

@[simp] theorem view_write (s : Server δ κ) (i : Nat) (w : δ → δ) :
    (s.write i w).view i = w (s.view i) := by
  simp [view, write_writes]

@[simp] theorem direct_db (s : Server δ κ) (f : δ → δ) : (s.direct f).db = f s.db := rfl

@[simp] theorem direct_writes (s : Server δ κ) (f : δ → δ) : (s.direct f).writes = s.writes := rfl

@[simp] theorem rollback_db (s : Server δ κ) (i : Nat) : (s.rollback i).db = s.db := rfl

theorem rollback_writes (s : Server δ κ) (i j : Nat) :
    (s.rollback i).writes j = if j = i then [] else s.writes j := by
  simp [rollback, Function.update_apply]

/-- The locks of the others stay held. -/
theorem rollback_locks_other (hne : j ≠ i) (h : s.locks k = some j) : (s.rollback i).locks k = some j := by
  have hother : s.locks k ≠ some i := by
    rw [h]
    exact fun heq => hne (Option.some.inj heq)
  rw [rollback]
  exact (if_neg hother).trans h

@[simp] theorem commit_db (s : Server δ κ) (i : Nat) : (s.commit i).db = s.view i := rfl

@[simp] theorem commit_writes (s : Server δ κ) (i : Nat) :
    (s.commit i).writes = (s.rollback i).writes := rfl

/-- A transaction that has written nothing sees the committed database. -/
theorem view_of_writes_nil (h : s.writes i = []) : s.view i = s.db := by
  simp [view, h]

end Server

end ReadCommitted
