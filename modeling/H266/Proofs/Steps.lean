import H266.BitReader

/-!
# Sequences of Steps

How a sequence of steps goes on after its first step, for the two kinds of steps of this
library: those that fail without a state, such as reading, and those that leave a state behind
also when they fail, such as writing and building. A check is a step that has no state at all.
-/

namespace H266

/-! ### Steps that fail without a state -/

namespace PureStep

variable {ε σ α β : Type} {state state' : σ}

/-- After a success a sequence goes on with what follows. -/
theorem ok_bind {step : StateT σ (Except ε) α} {next : α → StateT σ (Except ε) β}
    {value : α} (h : step state = .ok (value, state')) :
    (step >>= next) state = next value state' := by
  show (step state >>= fun result => next result.1 result.2) = _
  rw [h]
  rfl

/-- After an error a sequence ends with it. -/
theorem error_bind {step : StateT σ (Except ε) α} {next : α → StateT σ (Except ε) β}
    {error : ε} (h : step state = .error error) :
    (step >>= next) state = .error error := by
  show (step state >>= fun result => next result.1 result.2) = _
  rw [h]
  rfl

theorem get_bind {next : σ → StateT σ (Except ε) β} :
    (get >>= next) state = next state state := rfl

/-- A sequence that succeeds has succeeded in its first step and in what follows. -/
theorem of_bind_eq_ok {step : StateT σ (Except ε) α} {next : α → StateT σ (Except ε) β}
    {value : β} (h : (step >>= next) state = .ok (value, state')) :
    ∃ first middle, step state = .ok (first, middle) ∧
      next first middle = .ok (value, state') := by
  cases hstep : step state with
  | error error =>
    rw [error_bind hstep] at h
    cases h
  | ok result =>
    obtain ⟨first, middle⟩ := result
    rw [ok_bind hstep] at h
    exact ⟨first, middle, rfl, h⟩

end PureStep

/-! ### Steps that leave a state behind -/

namespace StateStep

variable {σ α β : Type} {state state' : σ}

/-- A sequence goes on after its first step if that succeeds, and stops there otherwise. -/
theorem bind_eq (step : ExceptT Error (StateM σ) α) (next : α → ExceptT Error (StateM σ) β) :
    (step >>= next) state =
      match step state with
      | (.ok value, state') => next value state'
      | (.error error, state') => (.error error, state') := by
  show (match step state with | (result, state') => ExceptT.bindCont next result state') = _
  rcases step state with ⟨_ | _, _⟩ <;> rfl

/-- After a success a sequence goes on with what follows. -/
theorem ok_bind {step : ExceptT Error (StateM σ) α} {next : α → ExceptT Error (StateM σ) β}
    {value : α} (h : step state = (.ok value, state')) :
    (step >>= next) state = next value state' := by
  rw [bind_eq, h]

/-- After an error a sequence ends with it, in the state that the first step has left. -/
theorem error_bind {step : ExceptT Error (StateM σ) α}
    {next : α → ExceptT Error (StateM σ) β} {error : Error}
    (h : step state = (.error error, state')) :
    (step >>= next) state = (.error error, state') := by
  rw [bind_eq, h]

theorem get_bind {next : σ → ExceptT Error (StateM σ) β} :
    (get >>= next) state = next state state := rfl

theorem modify_bind {f : σ → σ} {next : PUnit → ExceptT Error (StateM σ) β} :
    (modify f >>= next) state = next ⟨⟩ (f state) := rfl

end StateStep

/-! ### Checks -/

namespace Check

variable {α β ι : Type} {p : Prop} [Decidable p] {error : Error}

/-- A sequence that succeeds has succeeded in its first step and in what follows. -/
theorem of_bind_eq_ok {step : Except Error α} {next : α → Except Error β} {value : β}
    (h : step >>= next = .ok value) : ∃ first, step = .ok first ∧ next first = .ok value := by
  cases step with
  | error error => cases h
  | ok first => exact ⟨first, rfl, h⟩

/-- A result that was made of another one. -/
theorem of_map_eq_ok {step : Except Error α} {f : α → β} {value : β}
    (h : step.map f = .ok value) : ∃ first, step = .ok first ∧ f first = value := by
  cases step with
  | error error => cases h
  | ok first => exact ⟨first, rfl, Except.ok.inj h⟩

/-- A sequence of checks passes if all of them do. -/
theorem bind_eq_ok_iff {check : Except Error Unit} {next : Unit → Except Error β} {value : β} :
    check >>= next = .ok value ↔ check = .ok () ∧ next () = .ok value := by
  cases check with
  | error error => simp [bind, Except.bind]
  | ok _ => simp [bind, Except.bind]

/-- What follows a check is reached if the check passes. -/
theorem throw_bind_eq_ok_iff {next : Unit → Except Error β} {value : β} :
    (if p then throw error >>= next else next ()) = .ok value ↔ ¬p ∧ next () = .ok value := by
  by_cases hp : p
  · simp [hp, bind, Except.bind, throw, throwThe, MonadExceptOf.throw]
  · simp [hp]

/-- A check on its own. -/
theorem throw_eq_ok_iff :
    (if p then throw error else pure () : Except Error Unit) = .ok () ↔ ¬p := by
  by_cases hp : p
  · simp [hp, throw, throwThe, MonadExceptOf.throw]
  · simp [hp, pure, Except.pure]

/-- A check of every entry of a list. -/
theorem forM_eq_ok_iff {check : ι → Except Error Unit} {entries : List ι} :
    entries.forM check = .ok () ↔ ∀ entry ∈ entries, check entry = .ok () := by
  induction entries with
  | nil => exact ⟨fun _ _ h => absurd h (List.not_mem_nil), fun _ => rfl⟩
  | cons entry entries ih =>
    rw [List.forall_mem_cons, ← ih]
    exact bind_eq_ok_iff

/-- A check of an entry that may be missing. -/
theorem option_forM_eq_ok_iff {check : ι → Except Error Unit} {entry : Option ι} :
    entry.forM check = .ok () ↔ ∀ value, entry = some value → check value = .ok () := by
  cases entry with
  | none => exact ⟨fun _ _ h => absurd h (by simp), fun _ => rfl⟩
  | some value => exact ⟨fun h _ heq => Option.some.inj heq ▸ h, fun h => h value rfl⟩

end Check

end H266
