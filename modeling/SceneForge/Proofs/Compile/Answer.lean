import Mathlib.Data.List.Forall2
import SceneForge.Catalog
import SceneForge.Proofs.Results

/-!
# Asking from a state

Compiling asks an asset context, which may keep a state. What asking comes to, from a state
on, is a result and the state that is left; a sequence of questions threads this state. A
catalog has no state, and what it is asked comes to an ordinary result.
-/

namespace SceneForge

variable {σ ε ε' α β γ : Type}

/-- What asking comes to from a state on, and the state that it leaves. -/
def asked (asking : ExceptT ε (StateM σ) α) (state : σ) : Except ε α × σ := asking.run.run state

section Sequences

variable {asking : ExceptT ε (StateM σ) α} {next : α → ExceptT ε (StateM σ) β} {state last : σ}

theorem asked_pure_eq_ok_iff {value result : α} :
    asked (pure value : ExceptT ε (StateM σ) α) state = (.ok result, last) ↔
      result = value ∧ last = state := by
  change (Except.ok value, state) = (.ok result, last) ↔ _
  rw [Prod.mk.injEq, Except.ok.injEq, eq_comm, @eq_comm _ state]

theorem asked_lift (outcome : Except ε α) :
    asked (liftM outcome : ExceptT ε (StateM σ) α) state = (outcome, state) := rfl

/-- Asking goes on from the state that the first question leaves. -/
theorem asked_bind_of_ok {value : α} {between : σ} (first : asked asking state = (.ok value, between)) :
    asked (asking >>= next) state = asked (next value) between := by
  rw [asked] at first
  rw [asked, ExceptT.run_bind, StateT.run_bind, first]
  rfl

/-- Nothing more is asked once a question has failed. -/
theorem asked_bind_of_error {error : ε} (first : asked asking state = (.error error, last)) :
    asked (asking >>= next) state = (.error error, last) := by
  rw [asked] at first
  rw [asked, ExceptT.run_bind, StateT.run_bind, first]
  rfl

theorem asked_bind_eq_ok_iff {result : β} :
    asked (asking >>= next) state = (.ok result, last) ↔
      ∃ value between, asked asking state = (.ok value, between) ∧
        asked (next value) between = (.ok result, last) := by
  constructor
  · intro succeeds
    cases first : asked asking state with
    | mk outcome between =>
        cases outcome with
        | error error =>
            rw [asked_bind_of_error first] at succeeds
            cases succeeds
        | ok value =>
            rw [asked_bind_of_ok first] at succeeds
            exact ⟨value, between, rfl, succeeds⟩
  · rintro ⟨value, between, first, rest⟩
    rw [asked_bind_of_ok first, rest]

theorem asked_bind_eq_error_iff {error : ε} :
    asked (asking >>= next) state = (.error error, last) ↔
      asked asking state = (.error error, last) ∨
        ∃ value between, asked asking state = (.ok value, between) ∧
          asked (next value) between = (.error error, last) := by
  constructor
  · intro fails
    cases first : asked asking state with
    | mk outcome between =>
        cases outcome with
        | error other =>
            rw [asked_bind_of_error first] at fails
            cases fails
            exact .inl rfl
        | ok value =>
            rw [asked_bind_of_ok first] at fails
            exact .inr ⟨value, between, rfl, fails⟩
  · rintro (first | ⟨value, between, first, rest⟩)
    · exact asked_bind_of_error first
    · rw [asked_bind_of_ok first, rest]

theorem asked_adapt_eq_ok_iff {change : ε → ε'} {value : α} :
    asked (asking.adapt change) state = (.ok value, last) ↔
      asked asking state = (.ok value, last) := by
  have adapted : asked (asking.adapt change) state =
    ((asked asking state).1.mapError change, (asked asking state).2) := rfl
  rw [adapted, Prod.mk.injEq, mapError_eq_ok_iff, Prod.ext_iff]

/-- An error of adapted asking is an adapted one. -/
theorem asked_adapt_eq_error {change : ε → ε'} {error : ε'}
    (fails : asked (asking.adapt change) state = (.error error, last)) :
    ∃ cause, change cause = error := by
  have adapted : asked (asking.adapt change) state =
    ((asked asking state).1.mapError change, (asked asking state).2) := rfl
  rw [adapted] at fails
  cases outcome : (asked asking state).1 with
  | ok value =>
      rw [outcome] at fails
      cases fails
  | error cause =>
      rw [outcome] at fails
      cases fails
      exact ⟨cause, rfl⟩

end Sequences

/-- The steps of a list, each from the state that the one before leaves. -/
inductive Threads (step : σ → α → β → σ → Prop) : σ → List α → List β → σ → Prop
  | nil {state : σ} : Threads step state [] [] state
  | cons {state between last : σ} {value : α} {result : β} {values : List α} {results : List β}
      (first : step state value result between) (rest : Threads step between values results last) :
      Threads step state (value :: values) (result :: results) last

namespace Threads

variable {step : σ → α → β → σ → Prop} {state last : σ} {values : List α} {results : List β}

theorem length_eq (threads : Threads step state values results last) :
    results.length = values.length := by
  induction threads with
  | nil => rfl
  | cons _ _ ih => exact congrArg Nat.succ ih

/-- What each step makes holds of all that is made. -/
theorem forall_mem {made : β → Prop} (threads : Threads step state values results last)
    (makes : ∀ {before value result after}, step before value result after → made result) :
    ∀ result ∈ results, made result := by
  induction threads with
  | nil =>
      intro result member
      cases member
  | cons first _ ih => exact List.forall_mem_cons.mpr ⟨makes first, ih⟩

/-- Steps whose states do not matter relate a list member by member. -/
theorem forall₂ {relation : α → β → Prop} (threads : Threads step state values results last)
    (relates : ∀ {before value result after}, step before value result after →
      relation value result) : List.Forall₂ relation values results := by
  induction threads with
  | nil => exact .nil
  | cons first _ ih => exact .cons (relates first) ih

/-- Steps that write what others make write what a run of the others makes. -/
theorem exists_map_iff {write : β → γ} {pieces : List γ} :
    Threads (fun before value piece after =>
        ∃ result, step before value result after ∧ piece = write result) state values pieces last ↔
      ∃ results, Threads step state values results last ∧ pieces = results.map write := by
  constructor
  · intro threads
    induction threads with
    | nil => exact ⟨[], .nil, rfl⟩
    | cons first _ ih =>
        obtain ⟨result, made, rfl⟩ := first
        obtain ⟨results, rest, rfl⟩ := ih
        exact ⟨result :: results, .cons made rest, rfl⟩
  · rintro ⟨results, threads, rfl⟩
    induction threads with
    | nil => exact .nil
    | cons first _ ih => exact .cons ⟨_, first, rfl⟩ ih

end Threads

section Lists

variable {asking : α → ExceptT ε (StateM σ) β} {values : List α} {state last : σ}

/-- Asking for the elements of a list succeeds with all the answers, which thread the state. -/
theorem asked_mapM_eq_ok_iff {results : List β} :
    asked (values.mapM asking) state = (.ok results, last) ↔
      Threads (fun before value result after => asked (asking value) before = (.ok result, after))
        state values results last := by
  induction values generalizing state results with
  | nil =>
      rw [List.mapM_nil, asked_pure_eq_ok_iff]
      constructor
      · rintro ⟨rfl, rfl⟩
        exact .nil
      · intro threads
        cases threads
        exact ⟨rfl, rfl⟩
  | cons value values ih =>
      rw [List.mapM_cons, asked_bind_eq_ok_iff]
      constructor
      · rintro ⟨result, between, first, rest⟩
        obtain ⟨others, after, rest, whole⟩ := asked_bind_eq_ok_iff.mp rest
        obtain ⟨rfl, rfl⟩ := asked_pure_eq_ok_iff.mp whole
        exact .cons first (ih.mp rest)
      · intro threads
        cases threads with
        | cons first rest =>
            exact ⟨_, _, first, asked_bind_eq_ok_iff.mpr ⟨_, _, ih.mpr rest, rfl⟩⟩

/-- Asking for the elements of a list fails at the first one for which it fails. -/
theorem asked_mapM_eq_error_iff {error : ε} :
    asked (values.mapM asking) state = (.error error, last) ↔
      ∃ earlier value later results between, values = earlier ++ value :: later ∧
        asked (earlier.mapM asking) state = (.ok results, between) ∧
        asked (asking value) between = (.error error, last) := by
  induction values generalizing state with
  | nil =>
      constructor
      · intro fails
        cases fails
      · rintro ⟨earlier, value, later, results, between, split, -⟩
        cases earlier <;> cases split
  | cons value values ih =>
      rw [List.mapM_cons, asked_bind_eq_error_iff]
      constructor
      · rintro (first | ⟨result, between, first, rest⟩)
        · exact ⟨[], value, values, [], state, rfl, rfl, first⟩
        · obtain fails | ⟨others, after, -, whole⟩ := asked_bind_eq_error_iff.mp rest
          · obtain ⟨earlier, other, later, results, after, rfl, before, failed⟩ := ih.mp fails
            refine ⟨value :: earlier, other, later, result :: results, after, rfl, ?_, failed⟩
            exact asked_mapM_eq_ok_iff.mpr (.cons first (asked_mapM_eq_ok_iff.mp before))
          · cases whole
      · rintro ⟨earlier, other, later, results, between, split, before, failed⟩
        cases earlier with
        | nil =>
            cases split
            cases before
            exact .inl failed
        | cons _ earlier =>
            cases split
            cases asked_mapM_eq_ok_iff.mp before with
            | cons first rest =>
                refine .inr ⟨_, _, first, asked_bind_eq_error_iff.mpr (.inl (ih.mpr ?_))⟩
                exact ⟨earlier, other, later, _, between, rfl, asked_mapM_eq_ok_iff.mpr rest, failed⟩

/-- What every step of a pass over a list preserves holds after the pass. -/
theorem asked_foldlM_induct (kept : β → Prop) {step : β → α → ExceptT ε (StateM σ) β}
    {start result : β} (begins : kept start)
    (preserved : ∀ value ∈ values, ∀ {made next before after}, kept made →
      asked (step made value) before = (.ok next, after) → kept next)
    (passed : asked (values.foldlM step start) state = (.ok result, last)) : kept result := by
  induction values generalizing start state with
  | nil =>
      obtain ⟨rfl, -⟩ := asked_pure_eq_ok_iff.mp passed
      exact begins
  | cons value values ih =>
      obtain ⟨next, between, first, rest⟩ := asked_bind_eq_ok_iff.mp passed
      obtain ⟨holds, others⟩ := List.forall_mem_cons.mp preserved
      exact ih (holds begins first) others rest

end Lists

/-- What asking without a state comes to. -/
def answer (asking : ExceptT ε (StateM Unit) α) : Except ε α := (asking.run.run ()).run.1

theorem answer_eq_ok_iff {asking : ExceptT ε (StateM Unit) α} {value : α} :
    answer asking = .ok value ↔ asked asking () = (.ok value, ()) := by
  have same : asked asking () = (answer asking, ()) := rfl
  rw [same, Prod.mk.injEq, and_iff_left rfl]

/-- A catalog resolves a reference in a field as it does anywhere. -/
theorem asked_resolveIn {catalog : Catalog} {field reference : String} {id : AssetId} {state last : σ}
    (made : asked ((catalog.context : AssetContext σ).resolveIn field reference) state =
      (.ok id, last)) : catalog.resolve? reference = some id := by
  rw [AssetContext.resolveIn, Catalog.context] at made
  cases resolved : catalog.resolve? reference with
  | none =>
      simp only [Catalog.resolve, resolved] at made
      cases made
  | some found =>
      simp only [Catalog.resolve, resolved] at made
      cases made
      rfl

end SceneForge
