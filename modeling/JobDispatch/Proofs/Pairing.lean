import JobDispatch.Pairing
import Mathlib.Data.List.Sort
set_option autoImplicit false

namespace JobDispatch

/-- The benchmark of the first engine stands no later in the total order of numbers than that of the
second; a missing one counts as infinite. -/
def Engine.isNoSlower (first second : Engine) : Bool :=
  (first.benchmarkTime.getD (Binary64.infinity false)).totalLe
    (second.benchmarkTime.getD (Binary64.infinity false))

theorem Engine.isNoSlower_iff {first second : Engine} :
    first.isNoSlower second = true ↔ first.benchmarkRank ≤ second.benchmarkRank := by
  simp only [isNoSlower, benchmarkRank, Binary64.totalLe, decide_eq_true_eq]

/-- All engines of a list whose benchmark is least. -/
def allFastest (engines : List Engine) : List Engine :=
  engines.filter fun engine => engines.all fun other => engine.isNoSlower other

/-- All engines of a list whose benchmark is greatest. -/
def allSlowest (engines : List Engine) : List Engine :=
  engines.filter fun engine => engines.all fun other => other.isNoSlower engine

section

variable {engine : Engine} {engines : List Engine}

/-- A choice that goes through a list from its end and keeps an engine until another one beats it:
none of the engines in front beats the chosen one, which beats all that follow it. -/
theorem split_of_choice {choice : List Engine → Option Engine} (beats : Engine → Engine → Prop)
    [DecidableRel beats] (nil : choice [] = none)
    (cons : ∀ first engines, choice (first :: engines) = match choice engines with
      | none => some first
      | some best => if beats first best then some first else some best)
    (trans : ∀ first second third, beats first second → beats second third → beats first third)
    (spread : ∀ first second third, beats first second → ¬ beats third second → beats first third)
    (chosen : choice engines = some engine) : ∃ front back, engines = front ++ engine :: back
      ∧ (∀ other ∈ front, ¬ beats other engine) ∧ ∀ other ∈ back, beats engine other := by
  induction engines generalizing engine with
  | nil =>
    rw [nil] at chosen
    cases chosen
  | cons first engines ih =>
    rw [cons] at chosen
    cases rest : choice engines with
    | none =>
      rw [rest] at chosen
      cases chosen
      have empty : engines = [] := by
        cases engines with
        | nil => rfl
        | cons second engines =>
          rw [cons] at rest
          split at rest
          · cases rest
          · split at rest <;> cases rest
      subst empty
      exact ⟨[], [], rfl, by simp, by simp⟩
    | some best =>
      obtain ⟨front, back, parts, before, behind⟩ := ih rest
      simp only [rest] at chosen
      split at chosen
      · rename_i ahead
        cases chosen
        -- the new engine beats the best one so far, and with it all the others
        refine ⟨[], engines, rfl, by simp, ?_⟩
        rw [parts, List.forall_mem_append, List.forall_mem_cons]
        exact ⟨fun other member => spread _ best other ahead (before other member), ahead,
          fun other member => trans _ best other ahead (behind other member)⟩
      · rename_i late
        cases chosen
        refine ⟨first :: front, back, by rw [parts, List.cons_append], ?_, behind⟩
        rw [List.forall_mem_cons]
        exact ⟨late, before⟩

/-- The engines before the fastest one are slower, and none of those after it is faster. -/
theorem split_of_fastest (chosen : fastest engines = some engine) : ∃ front back,
    engines = front ++ engine :: back
      ∧ (∀ other ∈ front, ¬ other.benchmarkRank ≤ engine.benchmarkRank)
      ∧ ∀ other ∈ back, engine.benchmarkRank ≤ other.benchmarkRank :=
  split_of_choice (fun first second => first.benchmarkRank ≤ second.benchmarkRank) rfl
    (fun _ _ => rfl) (fun _ _ _ => Int.le_trans) (fun _ _ _ low high => by omega) chosen

/-- None of the engines before the slowest one is slower, and those after it are faster. -/
theorem split_of_slowest (chosen : slowest engines = some engine) : ∃ front back,
    engines = front ++ engine :: back
      ∧ (∀ other ∈ front, ¬ engine.benchmarkRank < other.benchmarkRank)
      ∧ ∀ other ∈ back, other.benchmarkRank < engine.benchmarkRank :=
  split_of_choice (fun first second => second.benchmarkRank < first.benchmarkRank) rfl
    (fun _ _ => rfl) (fun _ _ _ high low => by omega) (fun _ _ _ high low => by omega) chosen

end

/-- The fastest engine is the first one whose benchmark is least. -/
theorem fastest_eq_head? (engines : List Engine) :
    fastest engines = (allFastest engines).head? := by
  cases chosen : fastest engines with
  | none =>
    rw [fastest_eq_none_iff] at chosen
    subst chosen
    rfl
  | some engine =>
    obtain ⟨front, back, parts, slower, others⟩ := split_of_fastest chosen
    rw [allFastest, List.head?_filter, eq_comm, List.find?_eq_some_iff_append]
    refine ⟨?_, front, back, parts, ?_⟩
    · simp only [parts, List.all_eq_true, Engine.isNoSlower_iff, List.forall_mem_append,
        List.forall_mem_cons]
      exact ⟨fun other member => by have := slower other member; omega, Int.le_refl _, others⟩
    · intro other member
      rw [Bool.not_eq_true', List.all_eq_false]
      refine ⟨engine, by simp [parts], ?_⟩
      rw [Engine.isNoSlower_iff]
      exact slower other member

/-- The slowest engine is the last one whose benchmark is greatest. -/
theorem slowest_eq_getLast? (engines : List Engine) :
    slowest engines = (allSlowest engines).getLast? := by
  cases chosen : slowest engines with
  | none =>
    rw [slowest_eq_none_iff] at chosen
    subst chosen
    rfl
  | some engine =>
    obtain ⟨front, back, parts, others, faster⟩ := split_of_slowest chosen
    rw [allSlowest, List.getLast?_filter, eq_comm, List.find?_eq_some_iff_append]
    refine ⟨?_, back.reverse, front.reverse, by simp [parts], ?_⟩
    · simp only [parts, List.all_eq_true, Engine.isNoSlower_iff, List.forall_mem_append,
        List.forall_mem_cons]
      exact ⟨fun other member => Int.not_lt.1 (others other member), Int.le_refl _,
        fun other member => Int.le_of_lt (faster other member)⟩
    · intro other member
      rw [Bool.not_eq_true', List.all_eq_false]
      refine ⟨engine, by simp [parts], ?_⟩
      rw [Engine.isNoSlower_iff, Int.not_le]
      exact faster other (List.mem_reverse.1 member)

section

variable (engines : List Engine)

/-- The engines in the order of their benchmarks; those with equal ones keep their order. -/
def byBenchmark : List Engine := engines.mergeSort Engine.isNoSlower

theorem isNoSlower_trans (first second third : Engine) (left : first.isNoSlower second = true)
    (right : second.isNoSlower third = true) : first.isNoSlower third = true :=
  Binary64.totalLe_trans _ _ _ left right

theorem isNoSlower_total (first second : Engine) :
    (first.isNoSlower second || second.isNoSlower first) = true :=
  Binary64.totalLe_total _ _

theorem mem_byBenchmark {engine : Engine} : engine ∈ byBenchmark engines ↔ engine ∈ engines :=
  (List.mergeSort_perm engines _).mem_iff

/-- Engines that are picked from a list, all with equal benchmarks, stand in the sorted list as they
do in the given one. -/
theorem filter_byBenchmark (picked : Engine → Bool)
    (equal : ∀ first ∈ engines, ∀ second ∈ engines, picked first = true → picked second = true →
      first.isNoSlower second = true) :
    (byBenchmark engines).filter picked = engines.filter picked := by
  have ordered : (engines.filter picked).Pairwise fun first second =>
      first.isNoSlower second = true := by
    refine List.pairwise_of_forall_mem_list fun first left second right => ?_
    rw [List.mem_filter] at left right
    exact equal first left.1 second right.1 left.2 right.2
  have kept := List.sublist_mergeSort isNoSlower_trans isNoSlower_total ordered
    List.filter_sublist
  have again := kept.filter picked
  rw [List.filter_filter] at again
  simp only [Bool.and_self] at again
  exact (again.eq_of_length ((List.mergeSort_perm engines _).filter picked).length_eq.symm).symm

/-- The fastest engine is the first one of the stable sort by benchmark. -/
theorem fastest_eq_head?_byBenchmark : fastest engines = (byBenchmark engines).head? := by
  have same : (byBenchmark engines).filter (fun engine => engines.all fun other =>
      engine.isNoSlower other) = allFastest engines :=
    filter_byBenchmark engines _ fun first _ second member least _ =>
      List.all_eq_true.1 least second member
  rw [fastest_eq_head?, ← same]
  have ordered := List.pairwise_mergeSort isNoSlower_trans isNoSlower_total engines
  cases sorted : byBenchmark engines with
  | nil => rfl
  | cons first rest =>
    rw [byBenchmark] at sorted
    rw [sorted, List.pairwise_cons] at ordered
    rw [List.filter_cons_of_pos, List.head?_cons, List.head?_cons]
    rw [List.all_eq_true]
    intro other member
    rw [← mem_byBenchmark, byBenchmark, sorted, List.mem_cons] at member
    rcases member with same | behind
    · rw [same]
      exact Binary64.totalLe_refl _
    · exact ordered.1 other behind

/-- The slowest engine is the last one of the stable sort by benchmark. -/
theorem slowest_eq_getLast?_byBenchmark : slowest engines = (byBenchmark engines).getLast? := by
  have same : (byBenchmark engines).filter (fun engine => engines.all fun other =>
      other.isNoSlower engine) = allSlowest engines :=
    filter_byBenchmark engines _ fun first member second _ _ greatest =>
      List.all_eq_true.1 greatest first member
  rw [slowest_eq_getLast?, ← same]
  have ordered := List.pairwise_mergeSort isNoSlower_trans isNoSlower_total engines
  rcases List.eq_nil_or_concat (byBenchmark engines) with none | ⟨rest, last, sorted⟩
  · rw [none]
    rfl
  · rw [List.concat_eq_append] at sorted
    rw [sorted, List.filter_append, List.filter_cons_of_pos, List.filter_nil,
      List.getLast?_append, List.getLast?_append]
    · rfl
    rw [byBenchmark] at sorted
    rw [sorted, List.pairwise_append] at ordered
    rw [List.all_eq_true]
    intro other member
    rw [← mem_byBenchmark, byBenchmark, sorted, List.mem_append, List.mem_singleton] at member
    rcases member with before | same
    · exact ordered.2.2 other before last (List.mem_singleton_self last)
    · rw [same]
      exact Binary64.totalLe_refl _

end

namespace Pairing

theorem choose_eq_none_iff {rule : Pairing} {jobSize : Binary64} {engines : List Engine} :
    rule.choose jobSize engines = none ↔ engines = [] := by
  simp only [choose]
  split
  · exact slowest_eq_none_iff engines
  · exact fastest_eq_none_iff engines

/-- Small jobs get the last of the slowest engines, others the first of the fastest. -/
theorem choose_eq (rule : Pairing) (jobSize : Binary64) (engines : List Engine) :
    rule.choose jobSize engines =
      if jobSize.lt rule.threshold then (allSlowest engines).getLast?
      else (allFastest engines).head? := by
  rw [choose, slowest_eq_getLast?, fastest_eq_head?]

/-- The same engines stand at the two ends of the stable sort. -/
theorem choose_eq_byBenchmark (rule : Pairing) (jobSize : Binary64) (engines : List Engine) :
    rule.choose jobSize engines =
      if jobSize.lt rule.threshold then (byBenchmark engines).getLast?
      else (byBenchmark engines).head? := by
  rw [choose, slowest_eq_getLast?_byBenchmark, fastest_eq_head?_byBenchmark]

end Pairing

end JobDispatch
