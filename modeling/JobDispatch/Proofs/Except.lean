import JobDispatch.Refusal
set_option autoImplicit false

namespace JobDispatch

variable {ε α β : Type}

theorem bind_eq_ok {x : Except ε α} {f : α → Except ε β} {b : β} :
    (x >>= f) = .ok b ↔ ∃ a, x = .ok a ∧ f a = .ok b := by
  cases x with
  | error e => simp [bind, Except.bind]
  | ok a => simp [bind, Except.bind]

theorem bind_eq_error {x : Except ε α} {f : α → Except ε β} {e : ε} :
    (x >>= f) = .error e ↔ x = .error e ∨ ∃ a, x = .ok a ∧ f a = .error e := by
  cases x with
  | error e => simp [bind, Except.bind]
  | ok a => simp [bind, Except.bind]

theorem map_eq_ok {x : Except ε α} {f : α → β} {b : β} :
    x.map f = .ok b ↔ ∃ a, x = .ok a ∧ f a = b := by
  cases x with
  | error e => simp [Except.map]
  | ok a => simp [Except.map]

theorem map_eq_error {x : Except ε α} {f : α → β} {e : ε} :
    x.map f = .error e ↔ x = .error e := by
  cases x with
  | error e => simp [Except.map]
  | ok a => simp [Except.map]

/-- A check of every item passes exactly when it passes for each. -/
theorem forM_eq_ok {check : α → Except ε Unit} {items : List α} :
    items.forM check = .ok () ↔ ∀ item ∈ items, check item = .ok () := by
  induction items with
  | nil =>
    constructor
    · intro _ item member
      cases member
    · intro _
      rfl
  | cons item items ih =>
    rw [List.forall_mem_cons, ← ih]
    change (check item >>= fun _ => items.forM check) = .ok () ↔ _
    rw [bind_eq_ok]
    constructor
    · rintro ⟨⟨⟩, first, later⟩
      exact ⟨first, later⟩
    · rintro ⟨first, later⟩
      exact ⟨(), first, later⟩

namespace Setback

variable {x : Except Refusal α}

@[simp] theorem lift_ok (a : α) :
    (liftM (Except.ok a : Except Refusal α) : Except Setback α) = .ok a := rfl

@[simp] theorem lift_eq_ok {a : α} : (liftM x : Except Setback α) = .ok a ↔ x = .ok a := by
  cases x with
  | error refusal =>
    constructor
    · intro impossible
      cases impossible
    · intro impossible
      cases impossible
  | ok a =>
    change Except.ok a = _ ↔ _
    rw [Except.ok.injEq, Except.ok.injEq]

theorem lift_eq_error {setback : Setback} : (liftM x : Except Setback α) = .error setback ↔
    ∃ refusal, x = .error refusal ∧ setback = .refused refusal := by
  cases x with
  | error refusal =>
    change Except.error (refused refusal) = _ ↔ _
    simp [eq_comm]
  | ok a =>
    change Except.ok a = _ ↔ _
    simp

end Setback

end JobDispatch
