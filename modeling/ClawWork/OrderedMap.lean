import Mathlib.Algebra.GroupWithZero.Nat
import Mathlib.Algebra.Order.BigOperators.Group.List
import Mathlib.Algebra.Order.Group.Nat
import Mathlib.Data.List.Nodup

/-!
# Finite maps that remember the order of insertion

`get`, `set`, `delete` and the enumeration of the values behave as those of the
built-in map of a scripting language: setting a key that is present keeps its
place, setting a new one puts it last, and the values are listed in that order.
-/

structure OrderedMap (κ α : Type*) where
  entries : List (κ × α)
  nodup : (entries.map Prod.fst).Nodup

namespace OrderedMap

variable {κ α : Type*} [DecidableEq κ]

def empty : OrderedMap κ α := ⟨[], by simp⟩

def get (m : OrderedMap κ α) (k : κ) : Option α :=
  (m.entries.find? fun e => e.1 = k).map Prod.snd

/-- The list of entries after `set`, apart from the proof that no key is repeated. -/
def setEntries (k : κ) (v : α) : List (κ × α) → List (κ × α)
  | [] => [(k, v)]
  | e :: es => if e.1 = k then (k, v) :: es else e :: setEntries k v es

theorem mem_keys_setEntries (k : κ) (v : α) (es : List (κ × α)) (j : κ) :
    j ∈ (setEntries k v es).map Prod.fst ↔ j = k ∨ j ∈ es.map Prod.fst := by
  induction es with
  | nil => simp [setEntries]
  | cons e es ih =>
    by_cases h : e.1 = k
    · simp only [setEntries, h, if_true, List.map_cons, List.mem_cons]
      tauto
    · simp only [setEntries, h, if_false, List.map_cons, List.mem_cons, ih]
      tauto

theorem nodup_setEntries (k : κ) (v : α) {es : List (κ × α)} (h : (es.map Prod.fst).Nodup) :
    ((setEntries k v es).map Prod.fst).Nodup := by
  induction es with
  | nil => simp [setEntries]
  | cons e es ih =>
    obtain ⟨he, hes⟩ := List.nodup_cons.mp h
    by_cases hk : e.1 = k
    · simpa [setEntries, hk] using List.nodup_cons.mpr ⟨hk ▸ he, hes⟩
    · simp only [setEntries, hk, if_false, List.map_cons, List.nodup_cons]
      refine ⟨?_, ih hes⟩
      rw [mem_keys_setEntries]
      exact not_or.mpr ⟨hk, he⟩

def set (m : OrderedMap κ α) (k : κ) (v : α) : OrderedMap κ α :=
  ⟨setEntries k v m.entries, nodup_setEntries k v m.nodup⟩

def delete (m : OrderedMap κ α) (k : κ) : OrderedMap κ α :=
  ⟨m.entries.filter fun e => e.1 ≠ k,
    m.nodup.sublist (List.filter_sublist.map Prod.fst)⟩

def values (m : OrderedMap κ α) : List α := m.entries.map Prod.snd

def size (m : OrderedMap κ α) : Nat := m.entries.length

@[simp] theorem get_empty (k : κ) : (empty : OrderedMap κ α).get k = none := rfl

@[simp] theorem get_set_same (m : OrderedMap κ α) (k : κ) (v : α) : (m.set k v).get k = some v := by
  simp only [get, set]
  induction m.entries with
  | nil => simp [setEntries]
  | cons e es ih => by_cases h : e.1 = k <;> simp [setEntries, h, ih]

@[simp] theorem get_set_other (m : OrderedMap κ α) {j k : κ} (v : α) (h : j ≠ k) :
    (m.set k v).get j = m.get j := by
  simp only [get, set]
  induction m.entries with
  | nil => simp [setEntries, h.symm]
  | cons e es ih =>
    by_cases hk : e.1 = k
    · have hj : e.1 ≠ j := fun he => h (he.symm.trans hk)
      simp [setEntries, hk, h.symm]
    · by_cases hj : e.1 = j
      · simp [setEntries, hj, h]
      · simpa [setEntries, hk, hj, List.find?_cons] using ih

theorem get_set (m : OrderedMap κ α) (j k : κ) (v : α) :
    (m.set k v).get j = if j = k then some v else m.get j := by
  by_cases h : j = k
  · subst h; simp
  · simp [h]

@[simp] theorem get_delete_same (m : OrderedMap κ α) (k : κ) : (m.delete k).get k = none := by
  simp [get, delete, List.find?_eq_none]

@[simp] theorem get_delete_other (m : OrderedMap κ α) {j k : κ} (h : j ≠ k) :
    (m.delete k).get j = m.get j := by
  simp only [get, delete]
  induction m.entries with
  | nil => rfl
  | cons e es ih =>
    by_cases hk : e.1 = k
    · have hj : e.1 ≠ j := fun he => h (he.symm.trans hk)
      simp only [hk, ne_eq, not_true_eq_false, decide_false, Bool.false_eq_true, not_false_eq_true,
        List.filter_cons_of_neg, List.find?_cons]
      simpa [hk, h.symm] using ih
    · by_cases hj : e.1 = j
      · simp [hj, h]
      · simpa [hk, hj, List.find?_cons] using ih

theorem get_delete (m : OrderedMap κ α) (j k : κ) :
    (m.delete k).get j = if j = k then none else m.get j := by
  by_cases h : j = k
  · subst h; simp
  · simp [h]

theorem get_eq_some_iff (m : OrderedMap κ α) (k : κ) (v : α) :
    m.get k = some v ↔ (k, v) ∈ m.entries := by
  obtain ⟨es, hn⟩ := m
  simp only [get]
  induction es with
  | nil => simp
  | cons e es ih =>
    obtain ⟨he, hes⟩ := List.nodup_cons.mp hn
    by_cases hk : e.1 = k
    · subst hk
      have hnot : (e.1, v) ∉ es := fun hm => he (List.mem_map.mpr ⟨_, hm, rfl⟩)
      obtain ⟨j, w⟩ := e
      simp_all [Prod.ext_iff, eq_comm]
    · have hne : (k, v) ≠ e := fun h => hk (congrArg Prod.fst h).symm
      simpa [List.find?_cons, hk, hne] using ih hes

/-- The enumerated values are exactly those stored under some key. -/
theorem mem_values_iff (m : OrderedMap κ α) (v : α) : v ∈ m.values ↔ ∃ k, m.get k = some v := by
  simp only [values, List.mem_map, Prod.exists, get_eq_some_iff]
  constructor
  · rintro ⟨k, w, hm, rfl⟩
    exact ⟨k, hm⟩
  · rintro ⟨k, hm⟩
    exact ⟨k, v, hm, rfl⟩

/-- A map whose values determine their keys lists every key once. -/
theorem nodup_map_values {f : α → κ} (m : OrderedMap κ α) (h : ∀ k v, m.get k = some v → f v = k) :
    (m.values.map f).Nodup := by
  have hmap : m.values.map f = m.entries.map Prod.fst := by
    rw [values, List.map_map]
    apply List.map_congr_left
    intro e he
    exact h e.1 e.2 ((m.get_eq_some_iff _ _).mpr he)
  exact hmap ▸ m.nodup

/-- A map whose values determine their keys lists every value once. -/
theorem nodup_values {f : α → κ} (m : OrderedMap κ α) (h : ∀ k v, m.get k = some v → f v = k) :
    m.values.Nodup := List.Nodup.of_map f (m.nodup_map_values h)

/-- The entries whose values pass the test. -/
def filter (m : OrderedMap κ α) (p : α → Bool) : OrderedMap κ α :=
  ⟨m.entries.filter fun e => p e.2, m.nodup.sublist (List.filter_sublist.map Prod.fst)⟩

def mapValues (m : OrderedMap κ α) (f : α → α) : OrderedMap κ α :=
  ⟨m.entries.map fun e => (e.1, f e.2), by rw [List.map_map]; exact m.nodup⟩

theorem get_filter (m : OrderedMap κ α) (p : α → Bool) (k : κ) :
    (m.filter p).get k = (m.get k).filter p := by
  apply Option.ext
  intro v
  rw [Option.filter_eq_some_iff, get_eq_some_iff, get_eq_some_iff]
  exact List.mem_filter

theorem get_mapValues (m : OrderedMap κ α) (f : α → α) (k : κ) :
    (m.mapValues f).get k = (m.get k).map f := by
  simp only [get, mapValues, List.find?_map, Function.comp_def, Option.map_map]

/-- The sum of a weight over the values. -/
def total (f : α → Nat) (m : OrderedMap κ α) : Nat := (m.values.map f).sum

/-- Setting a key replaces the weight of its old value by that of the new one. -/
theorem total_set (f : α → Nat) (m : OrderedMap κ α) (k : κ) (v : α) :
    (m.set k v).total f + ((m.get k).map f).getD 0 = m.total f + f v := by
  obtain ⟨es, hn⟩ := m
  simp only [total, values, get, set]
  induction es with
  | nil => simp [setEntries]
  | cons e es ih =>
    by_cases hk : e.1 = k
    · simp [setEntries, hk]
      omega
    · have := ih (List.nodup_cons.mp hn).2
      simp only [setEntries, hk, if_false, List.map_cons, List.sum_cons, List.find?_cons,
        decide_false] at *
      omega

omit [DecidableEq κ] in
theorem total_le_of_sublist (f : α → Nat) {m m' : OrderedMap κ α} (h : m'.entries.Sublist m.entries) :
    m'.total f ≤ m.total f := by
  apply List.Sublist.sum_le_sum
  · exact (h.map Prod.snd).map f
  · exact fun n _ => Nat.zero_le n

/-- Deleting a key takes the weight of its value away. -/
theorem total_delete (f : α → Nat) (m : OrderedMap κ α) (k : κ) :
    (m.delete k).total f + ((m.get k).map f).getD 0 = m.total f := by
  obtain ⟨es, hn⟩ := m
  simp only [total, values, get, delete]
  induction es with
  | nil => simp
  | cons e es ih =>
    obtain ⟨he, hes⟩ := List.nodup_cons.mp hn
    by_cases hk : e.1 = k
    · have hself : (es.filter fun x => !decide (x.1 = k)) = es := by
        refine List.filter_eq_self.mpr fun x hx => ?_
        have hxk : x.1 ≠ k := fun hxk => he (List.mem_map.mpr ⟨x, hx, hxk.trans hk.symm⟩)
        simp [hxk]
      simp [hk, hself]
      omega
    · have := ih hes
      simp only [List.filter_cons, hk, ne_eq, not_false_eq_true, decide_true, if_true, List.map_cons, List.sum_cons,
        List.find?_cons, decide_false] at *
      omega

theorem total_delete_le (f : α → Nat) (m : OrderedMap κ α) (k : κ) : (m.delete k).total f ≤ m.total f :=
  total_le_of_sublist f List.filter_sublist

/-- No value weighs more than all of them. -/
theorem le_total (f : α → Nat) (m : OrderedMap κ α) {k : κ} {v : α} (h : m.get k = some v) :
    f v ≤ m.total f := by
  apply List.le_sum_of_mem
  exact List.mem_map_of_mem ((m.mem_values_iff v).mpr ⟨k, h⟩)

omit [DecidableEq κ] in
theorem countP_values (p : α → Bool) (m : OrderedMap κ α) :
    m.values.countP p = m.total fun v => (p v).toNat := by
  rw [total]
  induction m.values with
  | nil => rfl
  | cons v vs ih =>
    rw [List.countP_cons, ih, List.map_cons, List.sum_cons, Nat.add_comm]
    cases p v <;> rfl

/-- The count of the values of a kind after one of them was set. -/
theorem countP_set (p : α → Bool) (m : OrderedMap κ α) (k : κ) (v : α) :
    (m.set k v).values.countP p + ((m.get k).map fun old => (p old).toNat).getD 0 =
      m.values.countP p + (p v).toNat := by
  rw [countP_values, countP_values]
  exact total_set _ m k v

/-- The count of the values of a kind after one of them was deleted. -/
theorem countP_delete (p : α → Bool) (m : OrderedMap κ α) (k : κ) :
    (m.delete k).values.countP p + ((m.get k).map fun old => (p old).toNat).getD 0 = m.values.countP p := by
  rw [countP_values, countP_values]
  exact total_delete _ m k

/-- The entries whose keys pass the test. -/
def restrict (m : OrderedMap κ α) (p : κ → Bool) : OrderedMap κ α :=
  ⟨m.entries.filter fun e => p e.1, m.nodup.sublist (List.filter_sublist.map Prod.fst)⟩

omit [DecidableEq κ] in
theorem ext_entries {m m' : OrderedMap κ α} (h : m.entries = m'.entries) : m = m' := by
  obtain ⟨es, hes⟩ := m
  obtain ⟨es', hes'⟩ := m'
  obtain rfl : es = es' := h
  rfl

theorem setEntries_of_mem {k : κ} {v : α} {es : List (κ × α)} (hn : (es.map Prod.fst).Nodup) (h : (k, v) ∈ es) :
    setEntries k v es = es := by
  induction es with
  | nil => cases h
  | cons e es ih =>
    obtain ⟨he, hes⟩ := List.nodup_cons.mp hn
    rw [setEntries]
    by_cases hk : e.1 = k
    · rw [if_pos hk]
      rcases List.mem_cons.mp h with heq | hmem
      · rw [heq]
      · exact absurd (List.mem_map.mpr ⟨_, hmem, hk.symm⟩) he
    · rw [if_neg hk]
      rcases List.mem_cons.mp h with heq | hmem
      · exact absurd (congrArg Prod.fst heq).symm hk
      · rw [ih hes hmem]

/-- A map with an entry that is set again. -/
theorem set_eq_self_iff (m : OrderedMap κ α) (k : κ) (v : α) : m.set k v = m ↔ m.get k = some v := by
  constructor
  · intro h
    rw [← h, get_set_same]
  · intro h
    exact ext_entries (setEntries_of_mem m.nodup ((m.get_eq_some_iff k v).mp h))

theorem delete_eq_self_iff (m : OrderedMap κ α) (k : κ) : m.delete k = m ↔ m.get k = none := by
  constructor
  · intro h
    rw [← h, get_delete_same]
  · intro h
    apply ext_entries
    apply List.filter_eq_self.mpr
    intro e he
    apply decide_eq_true
    intro hk
    have hget := (m.get_eq_some_iff k e.2).mpr (hk ▸ he)
    rw [h] at hget
    cases hget

theorem filter_setEntries_same (k : κ) (v : α) (es : List (κ × α)) :
    (setEntries k v es).filter (fun e => e.1 ≠ k) = es.filter fun e => e.1 ≠ k := by
  induction es with
  | nil => simp [setEntries]
  | cons e es ih =>
    by_cases hk : e.1 = k
    · simp [setEntries, hk]
    · simpa [setEntries, hk] using ih

theorem delete_set (m : OrderedMap κ α) (k : κ) (v : α) : (m.set k v).delete k = m.delete k :=
  ext_entries (filter_setEntries_same k v m.entries)

section Restrict

variable (m : OrderedMap κ α) (p : κ → Bool)

theorem get_restrict (k : κ) : (m.restrict p).get k = if p k then m.get k else none := by
  apply Option.ext
  intro v
  rw [get_eq_some_iff, restrict, List.mem_filter]
  by_cases hk : p k = true
  · rw [if_pos hk, get_eq_some_iff]
    exact and_iff_left hk
  · rw [if_neg hk]
    exact ⟨fun h => absurd h.2 hk, fun h => by cases h⟩

theorem filter_setEntries_of_pos {k : κ} (v : α) (hk : p k = true) (es : List (κ × α)) :
    (setEntries k v es).filter (fun e => p e.1) = setEntries k v (es.filter fun e => p e.1) := by
  induction es with
  | nil => simp [setEntries, hk]
  | cons e es ih =>
    by_cases he : e.1 = k
    · simp [setEntries, he, hk]
    · by_cases hp : p e.1 = true
      · simp [setEntries, he, hp, ih]
      · simp [setEntries, he, hp, ih]

theorem filter_setEntries_of_neg {k : κ} (v : α) (hk : p k = false) (es : List (κ × α)) :
    (setEntries k v es).filter (fun e => p e.1) = es.filter fun e => p e.1 := by
  induction es with
  | nil => simp [setEntries, hk]
  | cons e es ih =>
    by_cases he : e.1 = k
    · simp [setEntries, he, hk]
    · by_cases hp : p e.1 = true
      · simp [setEntries, he, hp, ih]
      · simp [setEntries, he, hp, ih]

theorem restrict_set_of_pos {k : κ} (v : α) (hk : p k = true) :
    (m.set k v).restrict p = (m.restrict p).set k v :=
  ext_entries (filter_setEntries_of_pos p v hk m.entries)

theorem restrict_set_of_neg {k : κ} (v : α) (hk : p k = false) :
    (m.set k v).restrict p = m.restrict p :=
  ext_entries (filter_setEntries_of_neg p v hk m.entries)

theorem restrict_delete (k : κ) : (m.delete k).restrict p = (m.restrict p).delete k := by
  apply ext_entries
  simp only [restrict, delete, List.filter_filter, Bool.and_comm]

theorem restrict_delete_of_neg {k : κ} (hk : p k = false) : (m.delete k).restrict p = m.restrict p := by
  apply ext_entries
  simp only [restrict, delete, List.filter_filter]
  apply List.filter_congr
  intro e he
  by_cases hp : p e.1 = true
  · have hne : e.1 ≠ k := fun h => by rw [h, hk] at hp; cases hp
    simp [hne]
  · simp [hp]

omit [DecidableEq κ] in
theorem restrict_filter (q : α → Bool) : (m.filter q).restrict p = (m.restrict p).filter q := by
  apply ext_entries
  simp only [restrict, filter, List.filter_filter, Bool.and_comm]

omit [DecidableEq κ] in
theorem restrict_mapValues (f : α → α) : (m.mapValues f).restrict p = (m.restrict p).mapValues f := by
  apply ext_entries
  simp only [restrict, mapValues, List.filter_map, Function.comp_def]

theorem filter_congr {q q' : α → Bool} (h : ∀ k v, m.get k = some v → q v = q' v) :
    m.filter q = m.filter q' := by
  apply ext_entries
  apply List.filter_congr
  intro e he
  exact h e.1 e.2 ((m.get_eq_some_iff _ _).mpr he)

theorem mapValues_congr {f g : α → α} (h : ∀ k v, m.get k = some v → f v = g v) :
    m.mapValues f = m.mapValues g := by
  apply ext_entries
  apply List.map_congr_left
  intro e he
  rw [h e.1 e.2 ((m.get_eq_some_iff _ _).mpr he)]

theorem filter_of_pos {q : α → Bool} (h : ∀ k v, m.get k = some v → q v = true) : m.filter q = m := by
  apply ext_entries
  rw [filter, List.filter_eq_self]
  intro e he
  exact h e.1 e.2 ((m.get_eq_some_iff _ _).mpr he)

theorem mapValues_of_id {f : α → α} (h : ∀ k v, m.get k = some v → f v = v) : m.mapValues f = m := by
  apply ext_entries
  rw [mapValues]
  conv_rhs => rw [← List.map_id m.entries]
  apply List.map_congr_left
  intro e he
  rw [h e.1 e.2 ((m.get_eq_some_iff _ _).mpr he)]
  rfl

/-- Restricting to keys and to values is the same when the values tell their keys. -/
theorem restrict_eq_filter {q : α → Bool} (h : ∀ k v, m.get k = some v → p k = q v) :
    m.restrict p = m.filter q := by
  apply ext_entries
  apply List.filter_congr
  intro e he
  exact h e.1 e.2 ((m.get_eq_some_iff _ _).mpr he)

/-- A query that finds only values under the kept keys finds them among these. -/
theorem filter_values_restrict {q : α → Bool} (h : ∀ k v, m.get k = some v → q v = true → p k = true) :
    (m.restrict p).values.filter q = m.values.filter q := by
  simp only [values, restrict, List.filter_map, List.filter_filter]
  congr 1
  apply List.filter_congr
  intro e he
  have hkept := h e.1 e.2 ((m.get_eq_some_iff _ _).mpr he)
  by_cases hq : q e.2 = true
  · simp [hq, hkept hq]
  · simp [hq]

theorem countP_values_restrict {q : α → Bool} (h : ∀ k v, m.get k = some v → q v = true → p k = true) :
    (m.restrict p).values.countP q = m.values.countP q := by
  rw [List.countP_eq_length_filter, filter_values_restrict m p h, List.countP_eq_length_filter]

/-- A weight that only the values under the kept keys have. -/
theorem total_restrict {f : α → Nat} (h : ∀ k v, m.get k = some v → f v ≠ 0 → p k = true) :
    (m.restrict p).total f = m.total f := by
  have hsum : ∀ es : List (κ × α), (∀ e ∈ es, f e.2 ≠ 0 → p e.1 = true) →
      (((es.filter fun e => p e.1).map Prod.snd).map f).sum = ((es.map Prod.snd).map f).sum := by
    intro es hes
    induction es with
    | nil => rfl
    | cons e es ih =>
      obtain ⟨he, hrest⟩ := List.forall_mem_cons.mp hes
      rw [List.map_cons, List.map_cons, List.sum_cons, ← ih hrest]
      by_cases hp : p e.1 = true
      · rw [List.filter_cons_of_pos (by exact hp), List.map_cons, List.map_cons, List.sum_cons]
      · have hzero : f e.2 = 0 := by
          by_contra hne
          exact hp (he hne)
        rw [List.filter_cons_of_neg (by exact hp), hzero, Nat.zero_add]
  apply hsum
  intro e he
  exact h e.1 e.2 ((m.get_eq_some_iff _ _).mpr he)

end Restrict

end OrderedMap
