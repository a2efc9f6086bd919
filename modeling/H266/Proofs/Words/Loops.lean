import H266.Proofs.Words.Simulation

/-!
# Loops over Indices

A machine that reads a list whose entries come in descending order fills it from its end, and one
that reads several lists at once goes through their indices. Here such loops are compared with the
recursion over lists that they stand for; what has to be shown of an index is that it is in range.

## Main results

* `Simulates.fillDown`: a list that is filled from its end.
* `Simulates.mapM_indices`: a step for each index.
* `Computes.foldlM_indices`, `computes_anyM_indices`, `computes_countAfter`: loops that read
  nothing.
-/

namespace H266

namespace WordM

variable {α : Type}

@[simp] theorem indices_zero : indices 0 = [] := rfl

/-- One more round has the next index. -/
theorem indices_succ (count : Nat) :
    indices (count + 1) = indices count ++ [USize.ofNat count] := by
  rw [indices, List.range_succ, List.map_append]
  rfl

/-- Counting down begins with the last index. -/
theorem reverse_indices_succ (count : Nat) :
    (indices (count + 1)).reverse = USize.ofNat count :: (indices count).reverse := by
  rw [indices_succ, List.reverse_append]
  rfl

/-- An entry behind the first part of a list is looked up. -/
theorem computes_entry_append {first second : List α} {own : α} {index : USize}
    (hindex : index.toNat = first.length) :
    Computes (entry (first ++ own :: second) index) (· = own) := by
  refine computes_entry ?_
  rw [hindex, List.getElem?_append_right (Nat.le_refl _), Nat.sub_self]
  rfl

/-- An entry behind the first part of a list is exchanged. -/
theorem computes_setEntry_append {first second : List α} {own value : α} {index : USize}
    (hindex : index.toNat = first.length) :
    Computes (setEntry (first ++ own :: second) index value) (· = first ++ value :: second) := by
  refine (computes_setEntry ?_).mono fun entries hentries => ?_
  · rw [hindex, List.length_append, List.length_cons]
    omega
  · rw [hentries, hindex, List.set_append_right _ _ (Nat.le_refl _), Nat.sub_self]
    rfl

/-! ### Lists that are filled from their start -/

/-- A list of `n` entries of which the first were filled with values. -/
def filled (n : Nat) (initial : α) (values : List α) : List α :=
  values ++ List.replicate (n - values.length) initial

/-- A list of full length has no entries that are not in use. -/
theorem filled_of_length_eq {n : Nat} {initial : α} {values : List α} (h : values.length = n) :
    filled n initial values = values := by
  rw [filled, h, Nat.sub_self, List.replicate_zero, List.append_nil]

/-- The entry that is filled next. -/
theorem filled_eq_append {n : Nat} {initial : α} {values : List α} (h : values.length < n) :
    filled n initial values =
      values ++ initial :: List.replicate (n - (values.length + 1)) initial := by
  rw [filled, show n - values.length = n - (values.length + 1) + 1 by omega, List.replicate_succ]

/-- One more value takes the place of an entry that was not in use. -/
theorem filled_concat {n : Nat} {initial : α} {values : List α} (value : α) :
    filled n initial (values ++ [value]) =
      values ++ value :: List.replicate (n - (values.length + 1)) initial := by
  rw [filled, List.length_append, List.length_singleton, List.append_assoc]
  rfl

/-- An entry that keeps its value counts as filled. -/
theorem filled_concat_initial {n : Nat} {initial : α} {values : List α} (h : values.length < n) :
    filled n initial (values ++ [initial]) = filled n initial values := by
  rw [filled_concat, filled_eq_append h]

/-- The next value is put at the index that is next. -/
theorem computes_setEntry_filled {n : Nat} {initial value : α} {values : List α} {index : USize}
    (hindex : index.toNat = values.length) (h : values.length < n) :
    Computes (setEntry (filled n initial values) index value)
      (· = filled n initial (values ++ [value])) := by
  rw [filled_eq_append h, filled_concat]
  exact computes_setEntry_append hindex

/-! ### Loops that compute -/

/-- A loop over indices: what holds before a round for its index holds after it for the next. -/
theorem Computes.foldlM_range' {step : α → USize → WordM α} {motive : Nat → α → Prop}
    {first count : Nat} (hcount : first + count ≤ 4294967296)
    (hstep : ∀ (index : USize) state, first ≤ index.toNat → index.toNat < first + count →
      motive index.toNat state → Computes (step state index) (motive (index.toNat + 1)))
    {state : α} (h : motive first state) :
    Computes (((List.range' first count).map USize.ofNat).foldlM step state)
      (motive (first + count)) := by
  induction count with
  | zero => exact computes_pure h
  | succ count ih =>
    have hindex := Word.toNat_index (first + count) (by omega)
    rw [List.range'_1_concat, List.map_append, List.foldlM_append]
    refine (ih (by omega) fun index state hlow hlt => hstep index state hlow (by omega)).bind
      fun state hstate => ?_
    have hlast := hstep (USize.ofNat (first + count)) state (by omega) (by omega)
    rw [hindex] at hlast
    rw [List.map_singleton, List.foldlM_cons]
    exact (hlast hstate).bind fun last hlast => computes_pure hlast

/-- A loop over indices ends with what its rounds have preserved: if the state is right for an
index, a round makes it right for the next one. -/
theorem Computes.foldlM_indices {step : α → USize → WordM α} {motive : Nat → α → Prop}
    {count : Nat} (hcount : count < 4294967296)
    (hstep : ∀ (index : USize) state, index.toNat < count → motive index.toNat state →
      Computes (step state index) (motive (index.toNat + 1)))
    {state : α} (h : motive 0 state) :
    Computes ((indices count).foldlM step state) (motive count) := by
  have hloop := Computes.foldlM_range' (show 0 + count ≤ 4294967296 by omega)
    (fun index state _ hlt => hstep index state (by omega)) h
  rwa [← List.range_eq_range', Nat.zero_add] at hloop

/-- A search through the indices below `count`. -/
theorem computes_anyM_indices {test : USize → WordM Bool} {p : Nat → Bool} {count : Nat}
    (hcount : count < 4294967296)
    (h : ∀ index : USize, index.toNat < count → Computes (test index) (· = p index.toNat)) :
    Computes ((indices count).anyM test) (· = (List.range count).any p) := by
  -- The induction is on any list of such indices, since `List.range` grows at its end.
  have hgeneral : ∀ entries : List Nat, (∀ i ∈ entries, i < count) →
      Computes ((entries.map USize.ofNat).anyM test) (· = entries.any p) := by
    intro entries hentries
    induction entries with
    | nil => exact computes_pure rfl
    | cons i entries ih =>
      obtain ⟨hi, hrest⟩ := List.forall_mem_cons.1 hentries
      have hindex := Word.toNat_index i (by omega)
      have hown := h (USize.ofNat i) (by omega)
      rw [hindex] at hown
      rw [List.map_cons, List.anyM, List.any_cons]
      refine hown.bind fun found hfound => ?_
      subst hfound
      cases hp : p i with
      | true => exact computes_pure rfl
      | false => exact ih hrest
  exact hgeneral _ fun i => List.mem_range.1

/-- How many entries of a list pass a test, after those that were counted before. -/
def countAfter (test : α → Bool) (count : USize) (entries : List α) : WordM USize :=
  entries.foldlM (fun count entry => if test entry then Word.add count 1 else pure count) count

/-- Entries are counted on from the count that there is. -/
theorem computes_countAfter {test : α → Bool} {count : USize} {entries : List α}
    (hfew : count.toNat + entries.length < 4294967296) :
    Computes (countAfter test count entries)
      fun total => total.toNat = count.toNat + entries.countP test := by
  induction entries generalizing count with
  | nil => exact computes_pure rfl
  | cons entry entries ih =>
    rw [List.length_cons] at hfew
    rw [countAfter, List.foldlM_cons, List.countP_cons]
    cases htest : test entry with
    | false =>
      rw [if_neg (by decide), if_neg (by decide), pure_bind]
      exact ih (by omega)
    | true =>
      rw [if_pos rfl, if_pos rfl]
      refine (Word.computes_addIndex (show count.toNat + 1 < _ by omega)).bind fun next hnext => ?_
      exact (ih (by omega)).mono fun total htotal => by omega

end WordM

open WordM

variable {α β : Type} {budget : Nat}

/-- A list is filled from its end; `done` are the entries that were filled. -/
theorem simulates_fillDownAfter {step : List α → USize → WordM α} {spec : ReadM α}
    (h : ∀ entries index, Simulates budget (· = ·) (step entries index) spec)
    (initial : α) (done tail : List α) {count : Nat} (hcount : count < 4294967296) :
    Simulates (count * budget)
      (fun entries values => entries = values.reverse ++ tail ∧ values.length = done.length + count)
      (fillDown (List.replicate count initial ++ done ++ tail) count step)
      (BitReader.repeatAfter spec done count) := by
  induction count generalizing done with
  | zero => exact simulates_pure ⟨by rw [List.reverse_reverse]; rfl, List.length_reverse⟩
  | succ count ih =>
    rw [Nat.succ_mul, fillDown, reverse_indices_succ, List.foldlM_cons, bind_assoc,
      BitReader.repeatAfter]
    refine (h _ _).bindSame fun value => ?_
    have hentries : List.replicate (count + 1) initial ++ done ++ tail =
        List.replicate count initial ++ initial :: (done ++ tail) := by
      simp [List.replicate_succ']
    rw [hentries]
    have hindex : (USize.ofNat count).toNat = (List.replicate count initial).length := by
      rw [Word.toNat_index count (by omega), List.length_replicate]
    refine .after (computes_setEntry_append hindex) fun entries hset => ?_
    have hnext := ih (value :: done) (by omega)
    rwa [List.append_assoc, List.cons_append, ← hset, List.length_cons,
      Nat.succ_add_eq_add_succ] at hnext

/-- A list that is filled from its end holds the values in reverse order. -/
theorem Simulates.fillDown {step : List α → USize → WordM α} {spec : ReadM α}
    (h : ∀ entries index, Simulates budget (· = ·) (step entries index) spec)
    (initial : α) (tail : List α) {count : Nat} (hcount : count < 4294967296) :
    Simulates (count * budget)
      (fun entries values => entries = values.reverse ++ tail ∧ values.length = count)
      (WordM.fillDown (List.replicate count initial ++ tail) count step)
      (BitReader.readTimes count spec) := by
  have hfill := simulates_fillDownAfter h initial [] tail hcount
  rwa [List.append_nil, List.length_nil, Nat.zero_add] at hfill

/-- A step for each index, with values that are related index by index. -/
theorem Simulates.mapM_indices {step : USize → WordM α} {spec : Nat → ReadM β}
    {rel : Nat → α → β → Prop} {count : Nat} (hcount : count < 4294967296)
    (h : ∀ index : USize, index.toNat < count →
      Simulates budget (rel index.toNat) (step index) (spec index.toNat)) :
    Simulates (count * budget)
      (fun words values => words.length = count ∧ values.length = count ∧
        ∀ i word value, words[i]? = some word → values[i]? = some value → rel i word value)
      ((indices count).mapM step) ((List.range count).mapM spec) := by
  induction count with
  | zero =>
    exact simulates_pure ⟨rfl, rfl, fun i word value hword _ => by simp at hword⟩
  | succ count ih =>
    have hindex := Word.toNat_index count (by omega)
    have hlast := h (USize.ofNat count) (by omega)
    rw [hindex] at hlast
    rw [indices_succ, List.range_succ, List.mapM_append, List.mapM_append, Nat.succ_mul,
      Nat.add_comm]
    refine (ih (by omega) fun index hlt => h index (by omega)).bind fun words values hrel => ?_
    obtain ⟨hwords, hvalues, hall⟩ := hrel
    simp only [List.mapM_cons, List.mapM_nil, pure_bind, bind_assoc]
    rw [← Nat.zero_add budget]
    refine hlast.bind fun word value hword => simulates_pure ?_
    refine ⟨by simp [hwords], by simp [hvalues], fun i word' value' hword' hvalue' => ?_⟩
    by_cases hlt : i < count
    · rw [List.getElem?_append_left (by omega)] at hword' hvalue'
      exact hall i word' value' hword' hvalue'
    · obtain ⟨hbound, -⟩ := List.getElem?_eq_some_iff.1 hword'
      rw [List.length_append, List.length_singleton] at hbound
      obtain rfl : i = count := by omega
      rw [← hwords, List.getElem?_concat_length] at hword'
      rw [← hvalues, List.getElem?_concat_length] at hvalue'
      obtain rfl := Option.some.inj hword'
      obtain rfl := Option.some.inj hvalue'
      exact hword

/-- A loop over the indices below `count`, from one state to the next, for a list of values. -/
theorem Simulates.foldlM_indices {step : α → USize → WordM α} {spec : Nat → ReadM β}
    {motive : α → List β → Prop} {count : Nat} (hcount : count < 4294967296)
    (h : ∀ (index : USize) state values, index.toNat < count → values.length = index.toNat →
      motive state values →
      Simulates budget (fun next value => motive next (values ++ [value])) (step state index)
        (spec index.toNat))
    {state : α} (hstart : motive state []) :
    Simulates (count * budget) (fun last values => motive last values ∧ values.length = count)
      ((indices count).foldlM step state) ((List.range count).mapM spec) := by
  induction count with
  | zero => exact simulates_pure ⟨hstart, rfl⟩
  | succ count ih =>
    have hindex := Word.toNat_index count (by omega)
    rw [indices_succ, List.range_succ, List.foldlM_append, List.mapM_append, Nat.succ_mul,
      Nat.add_comm]
    refine (ih (by omega) fun index state values hlt => h index state values (by omega)).bind
      fun state values hstate => ?_
    obtain ⟨hmotive, hlength⟩ := hstate
    have hlast := h (USize.ofNat count) state values (by omega) (by omega) hmotive
    rw [hindex] at hlast
    simp only [List.mapM_cons, List.mapM_nil, List.foldlM_cons, List.foldlM_nil, pure_bind,
      bind_assoc, bind_pure]
    refine hlast.mapSpec fun next value hnext => ⟨hnext, ?_⟩
    rw [List.length_append, hlength]
    rfl

theorem BitReader.repeatAfter_eq (step : ReadM β) (done : List β) (entries : List α) :
    repeatAfter step done entries.length = (done.reverse ++ ·) <$> entries.mapM fun _ => step := by
  induction entries generalizing done with
  | nil => simp [repeatAfter]
  | cons entry entries ih =>
    rw [List.length_cons, repeatAfter, List.mapM_cons, map_bind]
    congr 1
    funext value
    simp [ih]

/-- A loop over the indices below `count` that reads the same in each round. -/
theorem Simulates.foldlM_readTimes {step : α → USize → WordM α} {spec : ReadM β}
    {motive : α → List β → Prop} {count : Nat} (hcount : count < 4294967296)
    (h : ∀ (index : USize) state values, index.toNat < count → values.length = index.toNat →
      motive state values →
      Simulates budget (fun next value => motive next (values ++ [value])) (step state index) spec)
    {state : α} (hstart : motive state []) :
    Simulates (count * budget) (fun last values => motive last values ∧ values.length = count)
      ((indices count).foldlM step state) (BitReader.readTimes count spec) := by
  have hread := BitReader.repeatAfter_eq spec [] (List.range count)
  rw [List.length_range, List.reverse_nil] at hread
  rw [BitReader.readTimes, hread]
  simp only [List.nil_append, id_map']
  exact Simulates.foldlM_indices hcount h hstart

end H266
