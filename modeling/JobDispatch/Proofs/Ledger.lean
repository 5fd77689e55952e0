import JobDispatch.Ledger
set_option autoImplicit false

namespace JobDispatch.Ledger

variable {κ α : Type} [DecidableEq κ]

@[simp] theorem get?_empty (key : κ) : (empty : Ledger κ α).get? key = none := rfl

theorem mem_keys_of_get? {ledger : Ledger κ α} {key : κ} {record : α}
    (found : ledger.get? key = some record) : key ∈ ledger.keys :=
  List.mem_map_of_mem (f := Prod.fst) (get?_eq_some_iff.1 found)

theorem get?_update_self {ledger : Ledger κ α} {key : κ} {record : α} (change : α → α)
    (found : ledger.get? key = some record) :
    (ledger.update key change).get? key = some (change record) := by
  rw [get?_update, if_pos rfl, found, Option.map_some]

theorem get?_update_of_ne {ledger : Ledger κ α} {key other : κ} (change : α → α)
    (apart : other ≠ key) : (ledger.update key change).get? other = ledger.get? other := by
  rw [get?_update, if_neg apart]

/-- Where a record stands after one was changed. -/
theorem get?_update_eq_some {ledger : Ledger κ α} {key other : κ} {change : α → α} {found : α} :
    (ledger.update key change).get? other = some found ↔
      (∃ old, other = key ∧ ledger.get? key = some old ∧ change old = found)
        ∨ other ≠ key ∧ ledger.get? other = some found := by
  rw [get?_update]
  by_cases same : other = key
  · simp [same, Option.map_eq_some_iff]
  · simp [same]

/-- Where a record stands after one was filed. -/
theorem get?_put_eq_some {ledger : Ledger κ α} {key other : κ} {record found : α} :
    (ledger.put key record).get? other = some found ↔
      other = key ∧ record = found ∨ other ≠ key ∧ ledger.get? other = some found := by
  rw [get?_put]
  by_cases same : other = key
  · simp [same]
  · simp [same]

/-- What holds of all records holds still when one is filed of which it is true. -/
theorem forall_put {ledger : Ledger κ α} {property : κ → α → Prop} {key : κ} {record : α}
    (holds : ∀ key record, ledger.get? key = some record → property key record)
    (filed : property key record) :
    ∀ other found, (ledger.put key record).get? other = some found → property other found := by
  intro other found lookup
  rcases get?_put_eq_some.1 lookup with ⟨same, equal⟩ | ⟨_, old⟩
  · subst same equal
    exact filed
  · exact holds other found old

/-- What holds of all records holds still when one is changed so that it stays true. -/
theorem forall_update {ledger : Ledger κ α} {property : κ → α → Prop} {key : κ} {change : α → α}
    (holds : ∀ key record, ledger.get? key = some record → property key record)
    (kept : ∀ record, ledger.get? key = some record → property key (change record)) :
    ∀ other found, (ledger.update key change).get? other = some found → property other found := by
  intro other found lookup
  rcases get?_update_eq_some.1 lookup with ⟨old, same, known, equal⟩ | ⟨_, old⟩
  · subst same equal
    exact kept old known
  · exact holds other found old

theorem mem_records_iff {ledger : Ledger κ α} {record : α} :
    record ∈ ledger.records ↔ ∃ key, ledger.get? key = some record := by
  simp only [records, List.mem_map, get?_eq_some_iff]
  constructor
  · rintro ⟨⟨key, found⟩, member, equal⟩
    subst equal
    exact ⟨key, member⟩
  · rintro ⟨key, member⟩
    exact ⟨(key, record), member, rfl⟩

/-- Where every record is filed under its own name, the keys are the names of the records. -/
theorem keys_eq_map_records {ledger : Ledger κ α} {name : α → κ}
    (own : ∀ key record, ledger.get? key = some record → key = name record) :
    ledger.keys = ledger.records.map name := by
  simp only [keys, records, List.map_map]
  apply List.map_congr_left
  intro entry member
  exact own entry.1 entry.2 (get?_eq_some_iff.2 member)

/-- Changing a record leaves the ones before it and after it as they are. -/
theorem entries_update_of_split {ledger : Ledger κ α} {key : κ} {record : α}
    {front back : List (κ × α)} (split : ledger.entries = front ++ (key, record) :: back)
    (change : α → α) :
    (ledger.update key change).entries = front ++ (key, change record) :: back := by
  have distinct := ledger.nodup
  rw [split, List.map_append, List.map_cons] at distinct
  obtain ⟨_, behind, apart⟩ := List.nodup_append.1 distinct
  have same (others : List (κ × α)) (absent : key ∉ others.map Prod.fst) :
      (others.map fun entry => if entry.1 = key then (entry.1, change entry.2) else entry) =
        others := by
    refine (List.map_congr_left fun entry member => ?_).trans (List.map_id others)
    exact if_neg fun equal : entry.1 = key => absent (equal ▸ List.mem_map_of_mem member)
  show (ledger.entries.map fun entry =>
    if entry.1 = key then (entry.1, change entry.2) else entry) = _
  rw [split, List.map_append, List.map_cons, if_pos rfl,
    same front fun member => apart _ member _ List.mem_cons_self rfl,
    same back (List.nodup_cons.1 behind).1]

/-- So it does in the list of the records, where each of them is filed under its own name. -/
theorem records_update_of_split {ledger : Ledger κ α} {name : α → κ}
    (own : ∀ key record, ledger.get? key = some record → key = name record)
    {front back : List α} {record : α} (split : ledger.records = front ++ record :: back)
    (change : α → α) :
    (ledger.update (name record) change).records = front ++ change record :: back := by
  obtain ⟨before, rest, parts, fronts, tail⟩ := List.map_eq_append_iff.1 split
  obtain ⟨entry, behind, cut, same, backs⟩ := List.map_eq_cons_iff.1 tail
  subst cut
  have found : ledger.get? entry.1 = some entry.2 := get?_eq_some_iff.2 (by simp [parts])
  have filed : entry = (name record, record) :=
    Prod.ext ((own entry.1 entry.2 found).trans (by rw [same])) same
  rw [filed] at parts
  rw [records, entries_update_of_split parts, List.map_append, List.map_cons, fronts, backs]

/-- If the record passes a filter before it is changed and not afterwards, then the records that
pass lose it, and the others stay in order. -/
theorem filter_records_update_of_split {ledger : Ledger κ α} {name : α → κ}
    (own : ∀ key record, ledger.get? key = some record → key = name record)
    {front back : List α} {record : α} (split : ledger.records = front ++ record :: back)
    (change : α → α) (passes : α → Bool) (before : passes record = true)
    (after : passes (change record) = false) :
    ledger.records.filter passes = front.filter passes ++ record :: back.filter passes
      ∧ (ledger.update (name record) change).records.filter passes =
        front.filter passes ++ back.filter passes := by
  rw [records_update_of_split own split, split]
  simp only [List.filter_append, List.filter_cons, before, after, if_true, Bool.false_eq_true,
    if_false]
  exact ⟨trivial, trivial⟩

theorem entries_put_of_get?_none {ledger : Ledger κ α} {key : κ} (record : α)
    (fresh : ledger.get? key = none) :
    (ledger.put key record).entries = ledger.entries ++ [(key, record)] := by
  have absent : key ∉ ledger.entries.map Prod.fst := get?_eq_none_iff.1 fresh
  rw [put, dif_neg absent]

theorem entries_update (ledger : Ledger κ α) (key : κ) (change : α → α) :
    (ledger.update key change).entries = ledger.entries.map fun entry =>
      if entry.1 = key then (entry.1, change entry.2) else entry := rfl

/-- What a change of a record leaves as it is can be read off the records as before, in order. -/
theorem map_records_update {β : Type} {ledger : Ledger κ α} {key : κ} {change : α → α}
    (field : α → β)
    (kept : ∀ record, ledger.get? key = some record → field (change record) = field record) :
    (ledger.update key change).records.map field = ledger.records.map field := by
  simp only [records, entries_update, List.map_map]
  refine List.map_congr_left fun entry member => ?_
  by_cases own : entry.1 = key
  · have found : ledger.get? key = some entry.2 := own ▸ get?_eq_some_iff.2 member
    simp only [Function.comp_apply, if_pos own, kept _ found]
  · simp only [Function.comp_apply, if_neg own]

/-- A change depends on what it does to the record that is there. -/
theorem update_congr {ledger : Ledger κ α} {key : κ} {change other : α → α}
    (same : ∀ record, ledger.get? key = some record → change record = other record) :
    ledger.update key change = ledger.update key other := by
  apply ext
  simp only [update]
  apply List.map_congr_left
  intro entry member
  split
  · rename_i own
    subst own
    rw [same entry.2 (get?_eq_some_iff.2 member)]
  · rfl

/-- To put in place what a change makes of the record that is there is to change it. -/
theorem update_const {ledger : Ledger κ α} {key : κ} {record : α}
    (found : ledger.get? key = some record) (change : α → α) :
    ledger.update key (fun _ => change record) = ledger.update key change := by
  apply update_congr
  intro other there
  cases found.symm.trans there
  rfl

/-- A change that leaves the record as it is leaves the ledger as it is. -/
theorem update_eq_self {ledger : Ledger κ α} {key : κ} {change : α → α}
    (same : ∀ record, ledger.get? key = some record → change record = record) :
    ledger.update key change = ledger := by
  rw [update_congr same]
  apply ext
  simp [update]

/-- Two changes of one record are one. -/
theorem update_update (ledger : Ledger κ α) (key : κ) (first second : α → α) :
    (ledger.update key first).update key second =
      ledger.update key fun record => second (first record) := by
  apply ext
  simp only [update, List.map_map]
  apply List.map_congr_left
  intro entry _
  by_cases own : entry.1 = key <;> simp [own]

/-- Changes of different records may be made in either order. -/
theorem update_comm (ledger : Ledger κ α) {key other : κ} (apart : key ≠ other)
    (first second : α → α) :
    (ledger.update key first).update other second =
      (ledger.update other second).update key first := by
  apply ext
  simp only [update, List.map_map]
  apply List.map_congr_left
  intro entry _
  by_cases own : entry.1 = key
  · simp [own, apart]
  · by_cases its : entry.1 = other <;> simp [own, its, Ne.symm apart]

/-- A record that comes in under a new key and is changed may as well come in changed. -/
theorem update_put_self {ledger : Ledger κ α} {key : κ} (fresh : ledger.get? key = none)
    (record : α) (change : α → α) :
    (ledger.put key record).update key change = ledger.put key (change record) := by
  apply ext
  rw [entries_put_of_get?_none _ fresh]
  exact entries_update_of_split (entries_put_of_get?_none record fresh) change

/-- A record may come in before another one is changed or after it. -/
theorem update_put_of_ne {ledger : Ledger κ α} {key other : κ} (fresh : ledger.get? key = none)
    (apart : other ≠ key) (record : α) (change : α → α) :
    (ledger.put key record).update other change = (ledger.update other change).put key record := by
  have still : (ledger.update other change).get? key = none := by
    rw [get?_update_of_ne _ (Ne.symm apart), fresh]
  apply ext
  rw [entries_put_of_get?_none _ still, entries_update, entries_put_of_get?_none _ fresh,
    List.map_append, List.map_singleton, if_neg (Ne.symm apart), entries_update]

/-- A count over the records, when one is changed. -/
theorem countP_records_update {ledger : Ledger κ α} {key : κ} {record : α}
    (found : ledger.get? key = some record) (change : α → α) (counts : α → Bool) :
    (ledger.update key change).records.countP counts + (if counts record then 1 else 0) =
      ledger.records.countP counts + if counts (change record) then 1 else 0 := by
  obtain ⟨front, back, split⟩ := List.append_of_mem (get?_eq_some_iff.1 found)
  simp only [records, entries_update_of_split split change, split, List.map_append, List.map_cons,
    List.countP_append, List.countP_cons]
  omega

/-- A count over the records, when one comes in. -/
theorem countP_records_put {ledger : Ledger κ α} {key : κ} (record : α)
    (fresh : ledger.get? key = none) (counts : α → Bool) :
    (ledger.put key record).records.countP counts =
      ledger.records.countP counts + if counts record then 1 else 0 := by
  rw [records, entries_put_of_get?_none record fresh, List.map_append, List.countP_append,
    List.map_singleton, List.countP_singleton]
  rfl

theorem entries_foldl_put (entries : List (κ × α)) (ledger : Ledger κ α)
    (distinct : ((ledger.entries ++ entries).map Prod.fst).Nodup) :
    (entries.foldl (fun ledger entry => ledger.put entry.1 entry.2) ledger).entries =
      ledger.entries ++ entries := by
  induction entries generalizing ledger with
  | nil => simp
  | cons entry entries ih =>
    have fresh : ledger.get? entry.1 = none := by
      rw [get?_eq_none_iff, keys]
      rw [List.map_append, List.nodup_append] at distinct
      exact fun member => distinct.2.2 _ member entry.1 (by simp) rfl
    have filed := entries_put_of_get?_none entry.2 fresh
    rw [List.foldl_cons, ih]
    · rw [filed, List.append_assoc]
      rfl
    · rw [filed, List.append_assoc]
      exact distinct

/-- A ledger is what its entries are filed to. -/
theorem ofList_entries (ledger : Ledger κ α) : ofList ledger.entries = ledger := by
  apply ext
  have filed := entries_foldl_put ledger.entries empty
    (by simpa [empty] using ledger.nodup)
  simpa [ofList, empty] using filed

theorem get?_foldl_put {entries : List (κ × α)} {ledger : Ledger κ α} {key : κ} {record : α}
    (found : (entries.foldl (fun ledger entry => ledger.put entry.1 entry.2) ledger).get? key =
      some record) : ledger.get? key = some record ∨ (key, record) ∈ entries := by
  induction entries generalizing ledger with
  | nil => exact .inl found
  | cons entry entries ih =>
    rcases ih found with earlier | later
    · rw [get?_put] at earlier
      split at earlier
      · rename_i same
        cases earlier
        subst same
        exact .inr (by simp)
      · exact .inl earlier
    · exact .inr (by simp [later])

/-- Filing invents no records. -/
theorem mem_of_get?_ofList {entries : List (κ × α)} {key : κ} {record : α}
    (found : (ofList entries).get? key = some record) : (key, record) ∈ entries := by
  rcases get?_foldl_put found with none | member
  · cases none
  · exact member

section Rewriting

variable {before middle after : Ledger κ α} {allowed further whole : κ → α → α → Prop} {key : κ}

/-- All records stand where they stood, and each is as it was or differs from that in an allowed
way. -/
structure Rewrites (before : Ledger κ α) (allowed : κ → α → α → Prop) (after : Ledger κ α) :
    Prop where
  keys : after.keys = before.keys
  records : ∀ key old, before.get? key = some old →
    ∃ new, after.get? key = some new ∧ (new = old ∨ allowed key old new)

namespace Rewrites

theorem refl (ledger : Ledger κ α) (allowed : κ → α → α → Prop) : ledger.Rewrites allowed ledger :=
  ⟨rfl, fun _ old found => ⟨old, found, .inl rfl⟩⟩

/-- Changes of both stages are allowed as a whole, one by one and one after the other. -/
theorem trans (left : before.Rewrites allowed middle) (right : middle.Rewrites further after)
    (early : ∀ key old new, allowed key old new → whole key old new)
    (late : ∀ key old new, further key old new → whole key old new)
    (both : ∀ key old mid new, allowed key old mid → further key mid new → whole key old new) :
    before.Rewrites whole after := by
  refine ⟨right.keys.trans left.keys, fun key old found => ?_⟩
  obtain ⟨mid, there, first⟩ := left.records key old found
  obtain ⟨new, still, second⟩ := right.records key mid there
  refine ⟨new, still, ?_⟩
  rcases first with same | changed
  · subst same
    exact second.imp_right (late key mid new)
  · rcases second with same | again
    · subst same
      exact .inr (early key old new changed)
    · exact .inr (both key old mid new changed again)

/-- Records under some keys are touched first, then those under others. -/
theorem append {first second : List κ}
    (left : before.Rewrites (fun key _ _ => key ∈ first) middle)
    (right : middle.Rewrites (fun key _ _ => key ∈ second) after) :
    before.Rewrites (fun key _ _ => key ∈ first ++ second) after :=
  left.trans right (fun _ _ _ => List.mem_append_left _) (fun _ _ _ => List.mem_append_right _)
    fun _ _ _ _ member _ => List.mem_append_left _ member

/-- A record that no change is allowed to touch is as it was. -/
theorem get?_eq (rewrites : before.Rewrites allowed after)
    (untouched : ∀ old new, before.get? key = some old → ¬ allowed key old new) :
    after.get? key = before.get? key := by
  cases found : before.get? key with
  | none => rwa [get?_eq_none_iff, rewrites.keys, ← get?_eq_none_iff]
  | some old =>
    obtain ⟨new, there, same | changed⟩ := rewrites.records key old found
    · rw [there, same]
    · exact absurd changed (untouched old new found)

end Rewrites

theorem rewrites_update (ledger : Ledger κ α) (change : α → α)
    (allows : ∀ old, ledger.get? key = some old → allowed key old (change old)) :
    ledger.Rewrites allowed (ledger.update key change) := by
  refine ⟨keys_update .., fun other old found => ?_⟩
  by_cases same : other = key
  · subst same
    exact ⟨change old, get?_update_self change found, .inr (allows old found)⟩
  · exact ⟨old, (get?_update_of_ne change same).trans found, .inl rfl⟩

end Rewriting

end JobDispatch.Ledger
