import ClawWork.OrderedMap

/-!
# The daily counters

The scripts of the abuse protection that reserve and release a task of the day.
A script is atomic; each call takes the day from its own reading of the clock. A
counter expires forty-eight hours after the first reservation on it.
-/

namespace DailyQuota

def msPerDay : Nat := 24 * 60 * 60 * 1000

/-- The days since 1970-01-01 as year, month and day of the calendar. -/
def civil (days : Nat) : Nat × Nat × Nat :=
  let z := days + 719468
  let era := z / 146097
  let doe := z % 146097
  let yoe := (doe - doe / 1460 + doe / 36524 - doe / 146096) / 365
  let doy := doe - (365 * yoe + yoe / 4 - yoe / 100)
  -- the years of the algorithm begin in March
  let mp := (5 * doy + 2) / 153
  let m := if mp < 10 then mp + 3 else mp - 9
  (yoe + era * 400 + (if m ≤ 2 then 1 else 0), m, doy - (153 * mp + 2) / 5 + 1)

/-- `String(n).padStart(width, "0")`. -/
def padStart (width n : Nat) : List Char :=
  let digits := Nat.toDigits 10 n
  List.replicate (width - digits.length) '0' ++ digits

/-- `new Date().toISOString().slice(0, 10)`; years of more than four digits have six and a sign. -/
def isoDay (clock : Nat) : String :=
  let (year, month, day) := civil (clock / msPerDay)
  let yearText := if year ≤ 9999 then padStart 4 year else '+' :: padStart 6 year
  .ofList ((yearText ++ '-' :: padStart 2 month ++ '-' :: padStart 2 day).take 10)

/-- The key is made of the user's id and the day. -/
abbrev Key : Type := String × String

structure Counter where
  value : Nat
  expiresAt : Nat
  deriving DecidableEq

structure Redis where
  now : Nat
  counters : OrderedMap Key Counter

namespace Redis

def init : Redis := ⟨0, .empty⟩

/-- `GET`, with zero for a key that does not exist. -/
def value (redis : Redis) (key : Key) : Nat := ((redis.counters.get key).map Counter.value).getD 0

/-- The script of `reserveDailyTask`: `true` when the reservation is within the limit. -/
def reserve (redis : Redis) (limit : Nat) (key : Key) : Bool × Redis :=
  let n := redis.value key + 1
  let expiresAt :=
    match redis.counters.get key with
    | some counter => if n = 1 then redis.now + 2 * msPerDay else counter.expiresAt
    | none => redis.now + 2 * msPerDay
  if limit < n then (false, { redis with counters := redis.counters.set key ⟨n - 1, expiresAt⟩ })
  else (true, { redis with counters := redis.counters.set key ⟨n, expiresAt⟩ })

/-- The script of `releaseDailyTask`. -/
def release (redis : Redis) (key : Key) : Redis :=
  match redis.counters.get key with
  | some counter =>
    if 0 < counter.value then
      { redis with counters := redis.counters.set key { counter with value := counter.value - 1 } }
    else redis
  | none => redis

/-- Time passes, and the keys whose time has come expire. -/
def wait (redis : Redis) (ms : Nat) : Redis where
  now := redis.now + ms
  counters := redis.counters.filter fun counter => redis.now + ms < counter.expiresAt

variable (redis : Redis) (limit : Nat) (key other : Key)

theorem value_reserve : (redis.reserve limit key).2.value other =
    redis.value other + if other = key ∧ (redis.reserve limit key).1 = true then 1 else 0 := by
  unfold reserve
  by_cases hkey : other = key
  · dsimp only
    split <;> simp [value, hkey]
  · dsimp only
    split <;> simp [value, hkey]

/-- A reservation is refused when the counter has reached the limit. -/
theorem reserve_le (h : (redis.reserve limit key).1 = true) : redis.value key < limit := by
  unfold reserve at h
  dsimp only at h
  split at h
  · cases h
  · omega

theorem value_release : (redis.release key).value other =
    redis.value other - if other = key then 1 else 0 := by
  unfold release
  cases h : redis.counters.get key with
  | some counter =>
    dsimp only
    split
    · by_cases hkey : other = key
      · simp [value, hkey, h]
      · simp [value, hkey]
    · rename_i hzero
      by_cases hkey : other = key
      · simp only [value, hkey, h, Option.map_some, Option.getD_some, if_true]
        omega
      · simp [hkey]
  | none =>
    by_cases hkey : other = key
    · simp [value, hkey, h]
    · simp [hkey]

/-- Waiting leaves a counter as it is or removes it. -/
theorem value_wait (ms : Nat) :
    (redis.wait ms).value key = redis.value key ∨ (redis.wait ms).value key = 0 := by
  rw [value, wait, OrderedMap.get_filter]
  cases h : redis.counters.get key with
  | some counter =>
    rw [Option.filter_some]
    split
    · simp [value, h]
    · exact .inr rfl
  | none => simp

end Redis

end DailyQuota
