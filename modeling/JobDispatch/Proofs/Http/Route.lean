import JobDispatch.Http.Route
import Mathlib.Data.List.Basic
set_option autoImplicit false

namespace JobDispatch.Http

theorem splitSlashes_eq_splitOn (text : List Char) : splitSlashes text = text.splitOn '/' := by
  induction text with
  | nil => rfl
  | cons c rest ih =>
    rw [splitSlashes, List.splitOn_cons_eq_if_modifyHead, ih]
    simp only [beq_iff_eq]
    split
    · rfl
    · cases parts : rest.splitOn '/' with
      | nil => exact absurd parts (List.splitOn_ne_nil '/' rest)
      | cons => rfl

theorem slash_notMem_of_mem_splitSlashes {text part : List Char}
    (member : part ∈ splitSlashes text) : '/' ∉ part := by
  induction text generalizing part with
  | nil =>
    rw [List.mem_singleton.1 member]
    exact List.not_mem_nil
  | cons c rest ih =>
    rw [splitSlashes] at member
    split at member
    · rcases List.mem_cons.1 member with same | later
      · rw [same]
        exact List.not_mem_nil
      · exact ih later
    · rename_i letter
      have joined : ∀ other, '/' ∉ other → '/' ∉ c :: other := by
        intro other none slash
        rcases List.mem_cons.1 slash with same | inside
        · exact letter same.symm
        · exact none inside
      split at member
      · rw [List.mem_singleton.1 member]
        exact joined [] List.not_mem_nil
      · rename_i first later split
        rw [split, List.forall_mem_cons] at ih
        rcases List.mem_cons.1 member with same | inside
        · rw [same]
          exact joined first ih.1
        · exact ih.2 _ inside

/-- The parts of a text are the ones without slashes that make it up when slashes are put between
them. -/
theorem splitSlashes_eq_iff {text : List Char} {parts : List (List Char)} :
    splitSlashes text = parts ↔
      parts ≠ [] ∧ (∀ part ∈ parts, '/' ∉ part) ∧ ['/'].intercalate parts = text := by
  constructor
  · intro split
    subst split
    refine ⟨?_, fun _ => slash_notMem_of_mem_splitSlashes, ?_⟩
    · rw [splitSlashes_eq_splitOn]
      exact List.splitOn_ne_nil '/' text
    · rw [splitSlashes_eq_splitOn]
      exact List.intercalate_splitOn '/'
  · rintro ⟨some, whole, joined⟩
    rw [splitSlashes_eq_splitOn, ← joined]
    exact List.splitOn_intercalate '/' whole some

namespace Route

def path : Route → String
  | jobs => "/jobs"
  | job id => "/jobs/" ++ String.ofList id
  | completion id => "/jobs/" ++ String.ofList id ++ "/complete"
  | failure id => "/jobs/" ++ String.ofList id ++ "/fail"
  | engines => "/engines"
  | engineJobs engine => "/engines/" ++ String.ofList engine ++ "/jobs"
  | heartbeat => "/engines/heartbeat"
  | benchmark => "/engines/benchmark"
  | assignment => "/assign"
  | status => "/status"

/-- The name in a path, if it has one, is a whole segment; at the end it is not empty. -/
def IsNamed : Route → Prop
  | job id => '/' ∉ id ∧ id ≠ []
  | completion id => '/' ∉ id
  | failure id => '/' ∉ id
  | engineJobs engine => '/' ∉ engine
  | _ => True

def segments : Route → List (List Char)
  | jobs => ["jobs".toList]
  | job id => ["jobs".toList, id]
  | completion id => ["jobs".toList, id, "complete".toList]
  | failure id => ["jobs".toList, id, "fail".toList]
  | engines => ["engines".toList]
  | engineJobs engine => ["engines".toList, engine, "jobs".toList]
  | heartbeat => ["engines".toList, "heartbeat".toList]
  | benchmark => ["engines".toList, "benchmark".toList]
  | assignment => ["assign".toList]
  | status => ["status".toList]

theorem intercalate_segments (route : Route) :
    ['/'].intercalate ([] :: route.segments) = route.path.toList := by
  cases route <;> simp [segments, path, List.intercalate, List.intersperse]

theorem isNamed_iff (route : Route) :
    route.IsNamed ↔ (∀ segment ∈ route.segments, '/' ∉ segment) ∧ route ≠ job [] := by
  cases route <;> simp [IsNamed, segments]

theorem ofSegments?_eq_some {texts : List String} {route : Route} :
    ofSegments? texts = some route ↔
      texts = route.segments.map String.ofList ∧ route ≠ job [] := by
  constructor
  · intro found
    unfold ofSegments? at found
    split at found
    case h_2 id =>
      split at found
      · cases found
      · rename_i some
        cases found
        simpa [segments] using some
    case h_11 => cases found
    all_goals
      cases found
      simp [segments]
  · rintro ⟨equal, named⟩
    subst equal
    cases route with
    | job id => simpa [segments, ofSegments?] using named
    | _ => simp [segments, ofSegments?]

/-- A target names the route of which it has the path. -/
theorem ofTarget?_eq_some {target : String} {route : Route} :
    ofTarget? target = some route ↔
      String.ofList (pathOf target.toList) = route.path ∧ route.IsNamed := by
  have path : String.ofList (pathOf target.toList) = route.path ↔
      ['/'].intercalate ([] :: route.segments) = pathOf target.toList := by
    rw [intercalate_segments, ← String.toList_inj, String.toList_ofList, eq_comm]
  rw [path, isNamed_iff, ofTarget?]
  constructor
  · intro found
    split at found
    · rename_i segments split
      obtain ⟨named, nonempty⟩ := ofSegments?_eq_some.1 found
      have same : segments = route.segments :=
        List.map_injective_iff.2 (fun _ _ => String.ofList_injective) named
      subst same
      obtain ⟨_, whole, joined⟩ := splitSlashes_eq_iff.1 split
      exact ⟨joined, (List.forall_mem_cons.1 whole).2, nonempty⟩
    · cases found
  · rintro ⟨joined, whole, nonempty⟩
    have split : splitSlashes (pathOf target.toList) = [] :: route.segments :=
      splitSlashes_eq_iff.2
        ⟨List.cons_ne_nil _ _, List.forall_mem_cons.2 ⟨List.not_mem_nil, whole⟩, joined⟩
    rw [split]
    exact ofSegments?_eq_some.2 ⟨rfl, nonempty⟩

end Route

end JobDispatch.Http
