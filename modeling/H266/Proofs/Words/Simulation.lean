import H266.Proofs.Steps
import H266.Proofs.Words.Arithmetic

/-!
# Words in Place of Unbounded Numbers

When a step on words does what a step on unbounded numbers does: it refuses the same data for the
same reason, it succeeds on the same data with a related value, it reads the same bits, and it
stops for no reason of its own. This holds as long as the number of bits that were read fits a
word, so the step says how many it reads at most.

Sequences, choices and loops are compared part by part.

## Main results

* `Simulates.bind`: sequences; the budgets add up.
* `Simulates.after`: an operation on words that reads nothing, before a step.
* `Simulates.readIf`, `Skips.times`, `Simulates.collect`: parts that are optional or repeated.
-/

namespace H266

/-! ### Cursors -/

namespace WordReader

/-- The place of a cursor, in unbounded numbers. -/
def view (reader : WordReader) : BitReader where
  source := reader.source
  pending := Bits.ofNat ((8 - reader.bitPos.toNat) % 8) reader.current.toNat
  position := reader.consumed.toNat

/-- At a byte boundary no bits are left of the byte that was fetched last. -/
theorem view_of_bitPos_eq_zero {reader : WordReader} (h : reader.bitPos = 0) :
    reader.view = ⟨reader.source, [], reader.consumed.toNat⟩ := by
  rw [view, h]
  rfl

/-- Whether so many bits can be read before their number does not fit a word. -/
def HasRoom (reader : WordReader) (budget : Nat) : Prop :=
  reader.consumed.toNat + budget < UInt64.size

/-- Room for many bits is room for fewer. -/
theorem HasRoom.mono {reader : WordReader} {budget wider : Nat} (h : reader.HasRoom wider)
    (hbudget : budget ≤ wider) : reader.HasRoom budget :=
  Nat.lt_of_le_of_lt (Nat.add_le_add_left hbudget _) h

end WordReader

/-- `SimulatesAt reader budget rel step spec` says that a step on words does at one place what
`spec` does there, with values that are related by `rel`, and reads at most `budget` bits. -/
def SimulatesAt {α β : Type} (reader : WordReader) (budget : Nat) (rel : α → β → Prop)
    (step : WordM α) (spec : ReadM β) : Prop :=
  (∀ error, spec reader.view = .error error → step reader = .error (.refused error)) ∧
  ∀ value last, spec reader.view = .ok (value, last) →
    ∃ word reader', step reader = .ok (word, reader') ∧ rel word value ∧ reader'.view = last ∧
      reader'.consumed.toNat ≤ reader.consumed.toNat + budget

/-- A step on words does what `spec` does wherever the bits that it reads can be counted. -/
def Simulates {α β : Type} (budget : Nat) (rel : α → β → Prop) (step : WordM α)
    (spec : ReadM β) : Prop :=
  ∀ reader : WordReader, reader.HasRoom budget → SimulatesAt reader budget rel step spec

section

variable {α β γ δ : Type} {budget rest : Nat} {rel : α → β → Prop} {last : γ → δ → Prop}
  {step : WordM α} {spec : ReadM β}

/-! ### Sequences -/

/-- Related values are given without reading. -/
theorem simulatesAt_pure {reader : WordReader} {word : α} {value : β} (h : rel word value) :
    SimulatesAt reader budget rel (pure word) (pure value) := by
  refine ⟨fun error hspec => (by cases hspec), fun _ _ hspec => ?_⟩
  cases hspec
  exact ⟨word, reader, rfl, h, rfl, Nat.le_add_right _ _⟩

/-- Related values are given without reading, wherever the cursor is. -/
theorem simulates_pure {word : α} {value : β} (h : rel word value) :
    Simulates budget rel (pure word) (pure value) :=
  fun _ _ => simulatesAt_pure h

/-- At one place only what is done there counts. -/
theorem SimulatesAt.congr {reader : WordReader} {spec' : ReadM β}
    (h : SimulatesAt reader budget rel step spec')
    (hspec : spec reader.view = spec' reader.view) : SimulatesAt reader budget rel step spec := by
  rwa [SimulatesAt, hspec]

/-- Data is refused, whatever would follow. -/
theorem simulates_refuse {error : Error} {next : α → WordM γ} {nextSpec : ReadM δ}
    (h : ∀ reader, nextSpec reader = .error error) :
    Simulates budget last (WordM.refuse error >>= next) nextSpec := by
  intro reader _
  rw [SimulatesAt, h]
  refine ⟨fun _ hspec => ?_, fun _ _ hspec => (by cases hspec)⟩
  cases hspec
  rfl

/-- A larger budget is enough, and a weaker relation holds. -/
theorem SimulatesAt.mono {reader : WordReader} {wider : Nat} {weaker : α → β → Prop}
    (h : SimulatesAt reader budget rel step spec) (hbudget : budget ≤ wider)
    (hrel : ∀ word value, rel word value → weaker word value) :
    SimulatesAt reader wider weaker step spec := by
  obtain ⟨herror, hok⟩ := h
  refine ⟨herror, fun value place hspec => ?_⟩
  obtain ⟨word, reader', hstep, hword, hview, hconsumed⟩ := hok value place hspec
  exact ⟨word, reader', hstep, hrel word value hword, hview,
    Nat.le_trans hconsumed (Nat.add_le_add_left hbudget _)⟩

/-- Less may be said of the values, and more room be asked for. -/
theorem Simulates.mono {wider : Nat} {weaker : α → β → Prop} (h : Simulates budget rel step spec)
    (hbudget : budget ≤ wider) (hrel : ∀ word value, rel word value → weaker word value) :
    Simulates wider weaker step spec :=
  fun reader hroom => (h reader (hroom.mono hbudget)).mono hbudget hrel

/-- More room may be asked for. -/
theorem Simulates.widen {wider : Nat} (h : Simulates budget rel step spec)
    (hbudget : budget ≤ wider) : Simulates wider rel step spec :=
  h.mono hbudget fun _ _ => id

/-- A sequence goes on from the place where its first step has ended. -/
theorem SimulatesAt.bind {reader : WordReader} {total : Nat} {next : α → WordM γ}
    {nextSpec : β → ReadM δ} (hroom : reader.HasRoom total) (htotal : rest + budget ≤ total)
    (h : SimulatesAt reader budget rel step spec)
    (hnext : ∀ word value reader', rel word value → spec reader.view = .ok (value, reader'.view) →
      reader'.HasRoom rest → SimulatesAt reader' rest last (next word) (nextSpec value)) :
    SimulatesAt reader total last (step >>= next) (spec >>= nextSpec) := by
  obtain ⟨herror, hok⟩ := h
  cases hspec : spec reader.view with
  | error error =>
    rw [SimulatesAt, PureStep.error_bind hspec]
    refine ⟨fun _ heq => ?_, fun _ _ heq => (by cases heq)⟩
    cases heq
    exact PureStep.error_bind (herror error hspec)
  | ok result =>
    obtain ⟨value, place⟩ := result
    obtain ⟨word, reader', hstep, hword, rfl, hconsumed⟩ := hok value place hspec
    -- What the first step has read is taken off the budget.
    have hroom' : reader'.HasRoom rest := by
      rw [WordReader.HasRoom] at hroom ⊢
      omega
    obtain ⟨hnextError, hnextOk⟩ := hnext word value reader' hword hspec hroom'
    rw [SimulatesAt, PureStep.ok_bind hspec, PureStep.ok_bind hstep]
    refine ⟨hnextError, fun value' place' hspec' => ?_⟩
    obtain ⟨word', reader'', hstep', hword', hview, hconsumed'⟩ := hnextOk value' place' hspec'
    exact ⟨word', reader'', hstep', hword', hview, by omega⟩

/-- A sequence simulates another one if its steps do, with the room that both of them need. -/
theorem Simulates.bind {next : α → WordM γ} {nextSpec : β → ReadM δ}
    (h : Simulates budget rel step spec)
    (hnext : ∀ word value, rel word value → Simulates rest last (next word) (nextSpec value)) :
    Simulates (rest + budget) last (step >>= next) (spec >>= nextSpec) :=
  fun reader hroom => .bind hroom (Nat.le_refl _) (h reader (hroom.mono (Nat.le_add_left _ _)))
    fun word value reader' hword _ hroom' => hnext word value hword reader' hroom'

/-- A step with the same value on both sides comes first. -/
theorem Simulates.bindSame {step spec} {next : α → WordM γ} {nextSpec : α → ReadM δ}
    (h : Simulates budget (· = ·) step spec)
    (hnext : ∀ value, Simulates rest last (next value) (nextSpec value)) :
    Simulates (rest + budget) last (step >>= next) (spec >>= nextSpec) :=
  h.bind fun value _ heq => heq ▸ hnext value

/-- A value that was read is passed on in another form. -/
theorem Simulates.map {f : α → γ} {g : β → δ} (h : Simulates budget rel step spec)
    (hlast : ∀ word value, rel word value → last (f word) (g value)) :
    Simulates budget last (f <$> step) (g <$> spec) := by
  rw [map_eq_pure_bind, map_eq_pure_bind]
  exact (Nat.zero_add budget) ▸ h.bind fun word value hword =>
    simulates_pure (hlast word value hword)

/-- Another value may be made of what is read. -/
theorem Simulates.mapSpec {f : β → δ} {last : α → δ → Prop} (h : Simulates budget rel step spec)
    (hlast : ∀ word value, rel word value → last word (f value)) :
    Simulates budget last step (do return f (← spec)) := by
  have hbind : Simulates (0 + budget) last (step >>= pure) (do return f (← spec)) :=
    h.bind fun word value hword => simulates_pure (hlast word value hword)
  rwa [bind_pure, Nat.zero_add] at hbind

/-- An operation on words that reads nothing comes before a step. -/
theorem Simulates.after {post : α → Prop} {next : α → WordM γ} {nextSpec : ReadM δ}
    (h : Computes step post)
    (hnext : ∀ word, post word → Simulates budget last (next word) nextSpec) :
    Simulates budget last (step >>= next) nextSpec := by
  obtain ⟨word, rfl, hword⟩ := h
  rw [pure_bind]
  exact hnext word hword

/-- An operation on words that reads nothing, for a value that is known. -/
theorem Computes.simulates {post : α → Prop} {value : β} (h : Computes step post)
    (hrel : ∀ word, post word → rel word value) : Simulates budget rel step (pure value) := by
  obtain ⟨word, rfl, hword⟩ := h
  exact simulates_pure (hrel word hword)

/-- An operation on words that reads nothing comes after a step. -/
theorem Simulates.andThen {next : α → WordM γ} {last : γ → β → Prop}
    (h : Simulates budget rel step spec)
    (hnext : ∀ word value, rel word value → Computes (next word) fun result => last result value) :
    Simulates budget last (step >>= next) spec := by
  have hbind : Simulates (0 + budget) last (step >>= next) (spec >>= pure) :=
    h.bind fun word value hword => by
      obtain ⟨result, hstep, hresult⟩ := hnext word value hword
      rw [hstep]
      exact simulates_pure hresult
  rwa [bind_pure, Nat.zero_add] at hbind

/-! ### Choices -/

/-- A step that is called for by a condition, on words. -/
def WordM.readIf (present : Bool) (step : WordM α) (inferred : α) : WordM α :=
  if present then step else pure inferred

/-- A step that is called for by a condition, for what it skips. -/
def WordM.skipIf (present : Bool) (step : WordM Unit) : WordM Unit :=
  WordM.readIf present step ()

/-- What is there only under a condition, with related values to be inferred if it is not. -/
theorem Simulates.readIf {present : Bool} {inferred : α} {inferredSpec : β}
    (h : present = true → Simulates budget rel step spec)
    (hinferred : present = false → rel inferred inferredSpec) :
    Simulates budget rel (WordM.readIf present step inferred)
      (BitReader.readIf present spec inferredSpec) := by
  cases present with
  | false => exact simulates_pure (hinferred rfl)
  | true => exact h rfl

/-- What a step that skips something is related to. -/
abbrev Skips (budget : Nat) (step : WordM Unit) (spec : ReadM Unit) : Prop :=
  Simulates budget (fun _ _ => True) step spec

/-- What follows a step that skips something. -/
theorem Simulates.seq {rel : Unit → Unit → Prop} {step : WordM Unit} {spec : ReadM Unit}
    {next : WordM γ} {nextSpec : ReadM δ} (h : Simulates budget rel step spec)
    (hnext : Simulates rest last next nextSpec) :
    Simulates (rest + budget) last (do step; next) (do spec; nextSpec) :=
  h.bind fun _ _ _ => hnext

/-- What is skipped only under a condition. -/
theorem Skips.skipIf {present : Bool} {step : WordM Unit} {spec : ReadM Unit}
    (h : present = true → Skips budget step spec) :
    Skips budget (WordM.skipIf present step) (BitReader.skipIf present spec) :=
  Simulates.readIf h fun _ => trivial

/-- The value of a step is not kept. -/
theorem Simulates.drop {step : WordM α} {spec : ReadM β} (h : Simulates budget rel step spec) :
    Skips budget (do let _ ← step) (do let _ ← spec) :=
  (Nat.zero_add budget) ▸ h.bind fun _ _ _ => simulates_pure trivial

/-! ### Loops -/

/-- What is skipped a number of times needs as many times the room. -/
theorem Skips.times {step : WordM Unit} {spec : ReadM Unit} (h : Skips budget step spec)
    (count : Nat) :
    Skips (count * budget) (WordM.times count step) (BitReader.skipTimes count spec) := by
  induction count with
  | zero => exact simulates_pure trivial
  | succ count ih =>
    rw [Nat.succ_mul]
    exact h.bind fun _ _ _ => ih

/-- Values that are collected behind others, all with a property of each. -/
theorem simulates_collectAfter {step : WordM α} {spec : ReadM α} {p : α → Prop}
    (h : Simulates budget (fun word value => word = value ∧ p value) step spec) {done : List α}
    (hdone : ∀ value ∈ done, p value) (count : Nat) :
    Simulates (count * budget)
      (fun words values => words = values ∧ values.length = done.length + count ∧
        ∀ value ∈ values, p value)
      (WordM.collectAfter done.reverse count step) (BitReader.repeatAfter spec done count) := by
  induction count generalizing done with
  | zero =>
    exact simulates_pure ⟨rfl, List.length_reverse, fun value hmem =>
      hdone value (List.mem_reverse.1 hmem)⟩
  | succ count ih =>
    rw [Nat.succ_mul]
    refine h.bind fun word value hword => ?_
    obtain ⟨rfl, hvalue⟩ := hword
    have hnext := ih (List.forall_mem_cons.2 ⟨hvalue, hdone⟩)
    rwa [List.reverse_cons, List.length_cons, Nat.succ_add_eq_add_succ] at hnext

/-- A list of values that are read, with what holds of each of them. -/
theorem Simulates.collect_all {step : WordM α} {spec : ReadM α} {p : α → Prop}
    (h : Simulates budget (fun word value => word = value ∧ p value) step spec) (count : Nat) :
    Simulates (count * budget)
      (fun words values => words = values ∧ values.length = count ∧ ∀ value ∈ values, p value)
      (WordM.collect count step) (BitReader.readTimes count spec) := by
  have hread := simulates_collectAfter h (fun _ hmem => absurd hmem List.not_mem_nil) count
  rwa [List.length_nil, Nat.zero_add] at hread

/-- As many values are collected as are asked for. -/
theorem Simulates.collect_length {step : WordM α} {spec : ReadM α}
    (h : Simulates budget (· = ·) step spec) (count : Nat) :
    Simulates (count * budget) (fun words values => words = values ∧ values.length = count)
      (WordM.collect count step) (BitReader.readTimes count spec) := by
  have hstep : Simulates budget (fun word value => word = value ∧ True) step spec :=
    h.mono (Nat.le_refl _) fun _ _ heq => ⟨heq, trivial⟩
  exact (hstep.collect_all count).mono (Nat.le_refl _) fun _ _ hvalues =>
    ⟨hvalues.1, hvalues.2.1⟩

/-- Values that are read one after the other are the same. -/
theorem Simulates.collect {step : WordM α} {spec : ReadM α}
    (h : Simulates budget (· = ·) step spec) (count : Nat) :
    Simulates (count * budget) (· = ·) (WordM.collect count step)
      (BitReader.readTimes count spec) :=
  (h.collect_length count).mono (Nat.le_refl _) fun _ _ => And.left

end

end H266
