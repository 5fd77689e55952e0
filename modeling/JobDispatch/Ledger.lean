set_option autoImplicit false

namespace JobDispatch

/-- Records under distinct keys, in order. -/
structure Ledger (κ α : Type) where
  entries : List (κ × α)
  nodup : (entries.map Prod.fst).Nodup
deriving DecidableEq

namespace Ledger

variable {κ α : Type}

/-- Ledgers with the same entries are the same. -/
@[ext] theorem ext {first second : Ledger κ α} (h : first.entries = second.entries) :
    first = second := by
  cases first
  cases second
  cases h
  rfl

def empty : Ledger κ α := ⟨[], List.nodup_nil⟩

def keys (ledger : Ledger κ α) : List κ := ledger.entries.map Prod.fst

def records (ledger : Ledger κ α) : List α := ledger.entries.map Prod.snd

def size (ledger : Ledger κ α) : Nat := ledger.entries.length

theorem size_eq_length_records (ledger : Ledger κ α) : ledger.size = ledger.records.length := by
  simp [size, records]

variable [DecidableEq κ]

def get? (ledger : Ledger κ α) (key : κ) : Option α :=
  (ledger.entries.find? fun entry => entry.1 = key).map Prod.snd

/-- Changes the record under a key, if there is one. -/
def update (ledger : Ledger κ α) (key : κ) (change : α → α) : Ledger κ α :=
  ⟨ledger.entries.map fun entry => if entry.1 = key then (entry.1, change entry.2) else entry, by
    have same : (ledger.entries.map fun entry =>
        if entry.1 = key then (entry.1, change entry.2) else entry).map Prod.fst
          = ledger.entries.map Prod.fst := by
      rw [List.map_map]
      apply List.map_congr_left
      intro entry _
      dsimp only [Function.comp]
      split <;> rfl
    rw [same]
    exact ledger.nodup⟩

/-- Files a record: in the place of the one under the same key, or else at the end. -/
def put (ledger : Ledger κ α) (key : κ) (record : α) : Ledger κ α :=
  if h : key ∈ ledger.entries.map Prod.fst then ledger.update key fun _ => record
  else ⟨ledger.entries ++ [(key, record)], by
    rw [List.map_append, List.map_cons, List.map_nil, List.nodup_append]
    refine ⟨ledger.nodup, by simp, ?_⟩
    intro old member new single
    rw [List.mem_singleton] at single
    subst single
    intro same
    subst same
    exact h member⟩

/-- Files records one after another. -/
def ofList (entries : List (κ × α)) : Ledger κ α :=
  entries.foldl (fun ledger entry => ledger.put entry.1 entry.2) empty

@[simp] theorem keys_update (ledger : Ledger κ α) (key : κ) (change : α → α) :
    (ledger.update key change).keys = ledger.keys := by
  simp only [keys, update, List.map_map]
  apply List.map_congr_left
  intro entry _
  dsimp only [Function.comp]
  split <;> rfl

theorem keys_put (ledger : Ledger κ α) (key : κ) (record : α) :
    (ledger.put key record).keys =
      if key ∈ ledger.keys then ledger.keys else ledger.keys ++ [key] := by
  by_cases h : key ∈ ledger.keys
  · have filed : key ∈ ledger.entries.map Prod.fst := h
    rw [put, dif_pos filed, keys_update, if_pos h]
  · have fresh : key ∉ ledger.entries.map Prod.fst := h
    rw [put, dif_neg fresh, if_neg h]
    simp [keys]

/-- What is filed under a key is what stands beside the key. -/
theorem get?_eq_some_iff {ledger : Ledger κ α} {key : κ} {record : α} :
    ledger.get? key = some record ↔ (key, record) ∈ ledger.entries := by
  obtain ⟨entries, nodup⟩ := ledger
  simp only [get?]
  induction entries with
  | nil => simp
  | cons entry entries ih =>
    rw [List.map_cons, List.nodup_cons] at nodup
    have later := ih nodup.2
    by_cases same : entry.1 = key
    · subst same
      have absent : (entry.1, record) ∉ entries := fun member =>
        nodup.1 (List.mem_map.2 ⟨_, member, rfl⟩)
      simp [absent, Prod.ext_iff, eq_comm]
    · have other : (key, record) ≠ entry := fun equal => same (by rw [← equal])
      simp [same, other, later]

theorem get?_eq_none_iff {ledger : Ledger κ α} {key : κ} :
    ledger.get? key = none ↔ key ∉ ledger.keys := by
  simp only [get?, keys, Option.map_eq_none_iff, List.find?_eq_none, decide_eq_true_eq,
    List.mem_map, not_exists, not_and]

theorem get?_update (ledger : Ledger κ α) (key other : κ) (change : α → α) :
    (ledger.update key change).get? other =
      if other = key then (ledger.get? key).map change else ledger.get? other := by
  obtain ⟨entries, nodup⟩ := ledger
  simp only [get?, update]
  clear nodup
  induction entries with
  | nil => simp
  | cons entry entries ih =>
    by_cases same : other = key
    · subst same
      rw [if_pos rfl] at ih ⊢
      by_cases here : entry.1 = other
      · simp [here]
      · simpa [here] using ih
    · rw [if_neg same] at ih ⊢
      by_cases here : entry.1 = other
      · simp [here, same]
      · by_cases changed : entry.1 = key
        · simpa [changed, Ne.symm same] using ih
        · simpa [here, changed] using ih

/-- The later record under a key counts, and no other key is touched. -/
theorem get?_put (ledger : Ledger κ α) (key other : κ) (record : α) :
    (ledger.put key record).get? other =
      if other = key then some record else ledger.get? other := by
  by_cases filed : key ∈ ledger.entries.map Prod.fst
  · rw [put, dif_pos filed, get?_update]
    obtain ⟨old, found⟩ := Option.ne_none_iff_exists'.1 fun missing : ledger.get? key = none =>
      get?_eq_none_iff.1 missing filed
    rw [found, Option.map_some]
  · rw [put, dif_neg filed]
    by_cases same : other = key
    · subst same
      have missing : ledger.get? other = none := get?_eq_none_iff.2 filed
      simp only [get?, Option.map_eq_none_iff] at missing
      simp [get?, missing]
    · simp [get?, same, Ne.symm same]

end Ledger

end JobDispatch
