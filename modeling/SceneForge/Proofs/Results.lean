import Mathlib.Data.List.Forall2
import Mathlib.Data.List.Induction

/-!
# Results

When sequences of computations that may fail succeed, and at which of its elements a pass
over a list fails.
-/

namespace SceneForge

variable {ε ε' α β σ : Type}

theorem exists_of_isOk {outcome : Except ε α} (succeeds : outcome.isOk) :
    ∃ value, outcome = .ok value := by
  cases outcome with
  | error error => cases succeeds
  | ok value => exact ⟨value, rfl⟩

/-- A sequence of two computations succeeds with what the second makes of the first's
value. -/
theorem bind_eq_ok_iff {first : Except ε α} {next : α → Except ε β} {result : β} :
    first >>= next = .ok result ↔ ∃ value, first = .ok value ∧ next value = .ok result := by
  constructor
  · intro succeeds
    cases first with
    | error error => cases succeeds
    | ok value => exact ⟨value, rfl, succeeds⟩
  · rintro ⟨value, rfl, succeeds⟩
    exact succeeds

/-- A sequence of two computations fails if the first does, or the second after it. -/
theorem bind_eq_error_iff {first : Except ε α} {next : α → Except ε β} {error : ε} :
    first >>= next = .error error ↔
      first = .error error ∨ ∃ value, first = .ok value ∧ next value = .error error := by
  cases first with
  | error other => simp [bind, Except.bind]
  | ok value => simp [bind, Except.bind]

/-- Sequences are the same if they go on in the same way with the first's value. -/
theorem bind_congr_of_ok {first : Except ε α} {next other : α → Except ε β}
    (same : ∀ value, first = .ok value → next value = other value) :
    first >>= next = first >>= other := by
  cases first with
  | error error => rfl
  | ok value => exact same value rfl

theorem toOption_eq_some_iff {outcome : Except ε α} {value : α} :
    outcome.toOption = some value ↔ outcome = .ok value := by
  cases outcome with
  | error error => exact ⟨nofun, nofun⟩
  | ok other => simp [Except.toOption]

theorem mapError_eq_ok_iff {outcome : Except ε α} {change : ε → ε'} {value : α} :
    outcome.mapError change = .ok value ↔ outcome = .ok value := by
  cases outcome with
  | error error => exact ⟨nofun, nofun⟩
  | ok other =>
      change (Except.ok other : Except ε' α) = .ok value ↔ _
      rw [Except.ok.injEq, Except.ok.injEq]

theorem mapError_eq_error_iff {outcome : Except ε α} {change : ε → ε'} {error : ε'} :
    outcome.mapError change = .error error ↔ ∃ cause, outcome = .error cause ∧ change cause = error := by
  cases outcome with
  | error cause =>
      change (Except.error (change cause) : Except ε' α) = .error error ↔ _
      simp
  | ok value => exact ⟨nofun, nofun⟩

section Lists

variable {run : α → Except ε β} {step : σ → α → Except ε σ} {values : List α}

/-- Every element succeeds if the whole list does, and the results are those of the elements. -/
theorem mapM_eq_ok_iff {results : List β} :
    values.mapM run = .ok results ↔
      List.Forall₂ (fun value result => run value = .ok result) values results := by
  induction values generalizing results with
  | nil =>
      rw [List.mapM_nil, List.forall₂_nil_left_iff]
      exact ⟨fun same => (Except.ok.inj same).symm, fun same => congrArg Except.ok same.symm⟩
  | cons value rest ih =>
      rw [List.mapM_cons, List.forall₂_cons_left_iff, bind_eq_ok_iff]
      constructor
      · rintro ⟨result, ran, others⟩
        obtain ⟨tail, mapped, same⟩ := bind_eq_ok_iff.mp others
        exact ⟨result, tail, ran, ih.mp mapped, (Except.ok.inj same).symm⟩
      · rintro ⟨result, tail, ran, mapped, rfl⟩
        exact ⟨result, ran, bind_eq_ok_iff.mpr ⟨tail, ih.mpr mapped, rfl⟩⟩

/-- A list has a result if every element has one. -/
theorem mapM_eq_some {read : α → Option β} {results : List β}
    (all : List.Forall₂ (fun value result => read value = some result) values results) :
    values.mapM read = some results := by
  induction all with
  | nil => rfl
  | cons head _ ih =>
      rw [List.mapM_cons, head, ih]
      rfl

/-- Every element of a list is related to one of a list that is related to it. -/
theorem exists_of_forall₂ {related : α → β → Prop} {results : List β}
    (all : List.Forall₂ related values results) {value : α} (member : value ∈ values) :
    ∃ result ∈ results, related value result := by
  induction all with
  | nil => cases member
  | cons head _ ih =>
      rcases List.mem_cons.mp member with rfl | member
      · exact ⟨_, List.mem_cons_self .., head⟩
      · obtain ⟨result, found, holds⟩ := ih member
        exact ⟨result, List.mem_cons_of_mem _ found, holds⟩

/-- A list fails at the first element that does. -/
theorem mapM_eq_error_iff {error : ε} :
    values.mapM run = .error error ↔
      ∃ done value rest, values = done ++ value :: rest ∧
        (∀ other ∈ done, ∃ result, run other = .ok result) ∧ run value = .error error := by
  induction values with
  | nil =>
      constructor
      · intro failed
        cases failed
      · rintro ⟨done, value, rest, split, -⟩
        cases done <;> cases split
  | cons first others ih =>
      rw [List.mapM_cons, bind_eq_error_iff]
      constructor
      · rintro (failed | ⟨result, ran, failed⟩)
        · exact ⟨[], first, others, rfl, nofun, failed⟩
        · rcases bind_eq_error_iff.mp failed with failed | ⟨tail, -, impossible⟩
          · obtain ⟨done, value, rest, rfl, earlier, failed⟩ := ih.mp failed
            exact ⟨first :: done, value, rest, rfl, List.forall_mem_cons.mpr ⟨⟨result, ran⟩, earlier⟩,
              failed⟩
          · cases impossible
      · rintro ⟨done, value, rest, split, earlier, failed⟩
        cases done with
        | nil =>
            cases split
            exact .inl failed
        | cons _ done =>
            cases split
            obtain ⟨⟨result, ran⟩, earlier⟩ := List.forall_mem_cons.mp earlier
            refine .inr ⟨result, ran, bind_eq_error_iff.mpr (.inl (ih.mpr ?_))⟩
            exact ⟨done, value, rest, rfl, earlier, failed⟩

/-- A pass over a list fails at an element after those before it have succeeded. -/
theorem foldlM_eq_error_iff {start : σ} {error : ε} :
    values.foldlM step start = .error error ↔
      ∃ done value rest state, values = done ++ value :: rest ∧
        done.foldlM step start = .ok state ∧ step state value = .error error := by
  induction values generalizing start with
  | nil =>
      constructor
      · intro failed
        cases failed
      · rintro ⟨done, value, rest, state, split, -⟩
        cases done <;> cases split
  | cons first others ih =>
      rw [List.foldlM_cons, bind_eq_error_iff]
      constructor
      · rintro (failed | ⟨next, ran, failed⟩)
        · exact ⟨[], first, others, start, rfl, rfl, failed⟩
        · obtain ⟨done, value, rest, state, rfl, passed, failed⟩ := ih.mp failed
          refine ⟨first :: done, value, rest, state, rfl, ?_, failed⟩
          rw [List.foldlM_cons]
          exact bind_eq_ok_iff.mpr ⟨next, ran, passed⟩
      · rintro ⟨done, value, rest, state, split, passed, failed⟩
        cases done with
        | nil =>
            cases split
            cases passed
            exact .inl failed
        | cons _ done =>
            cases split
            rw [List.foldlM_cons] at passed
            obtain ⟨next, ran, passed⟩ := bind_eq_ok_iff.mp passed
            exact .inr ⟨next, ran, ih.mpr ⟨done, value, rest, state, rfl, passed, failed⟩⟩

/-- What every step of a pass over a list preserves, where it may depend on the elements that
the pass has seen, holds after any part of the pass. -/
theorem foldlM_induct (kept : (done : List α) → σ → Prop) {start : σ} (begins : kept [] start)
    (preserved : ∀ done value rest state next, values = done ++ value :: rest →
      kept done state → step state value = .ok next → kept (done ++ [value]) next)
    {done rest : List α} {state : σ} (split : values = done ++ rest)
    (passed : done.foldlM step start = .ok state) : kept done state := by
  induction done using List.reverseRecOn generalizing rest state with
  | nil =>
      cases passed
      exact begins
  | append_singleton done value ih =>
      rw [List.foldlM_append, bind_eq_ok_iff] at passed
      obtain ⟨before, passed, last⟩ := passed
      rw [List.foldlM_cons, bind_eq_ok_iff] at last
      obtain ⟨next, ran, same⟩ := last
      cases same
      rw [List.append_assoc] at split
      exact preserved done value rest before _ split (ih split passed) ran

end Lists

end SceneForge
