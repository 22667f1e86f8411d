import SceneForge.Proofs.Compile.Parallel

/-!
# Contexts that answer consistently

An asset context may keep a state. It answers consistently if, among the states that asking
can lead to, every question has one answer; then whatever is extracted or written is the
same from each of these states.
-/

namespace SceneForge

variable {σ ε ε' α β : Type}

/-- The states of a set are never left by asking, and in all of them each question has the
same answer. -/
structure AssetContext.Steady (context : AssetContext σ) (states : σ → Prop) : Prop where
  resolve_stays : ∀ reference state, states state → states ((context.resolve reference).run state).run.2
  resolve_same : ∀ reference state other, states state → states other →
    ((context.resolve reference).run state).run.1 = ((context.resolve reference).run other).run.1
  declared_stays : ∀ id state, states state → states ((context.declared id).run state).run.2
  declared_same : ∀ id state other, states state → states other →
    ((context.declared id).run state).run.1 = ((context.declared id).run other).run.1

/-- Asking comes to the same from all states of a set, and does not leave the set. -/
def Steadily (states : σ → Prop) (asking : ExceptT ε (StateM σ) α) : Prop :=
  ∀ state other, states state → states other →
    (asked asking state).1 = (asked asking other).1 ∧ states (asked asking state).2

/-- Two states are both in a set. -/
def Inside (states : σ → Prop) (state other : σ) : Prop := states state ∧ states other

/-- Asking comes to the same from all states of a set if it follows itself from any two of them. -/
theorem steadily_iff {states : σ → Prop} {asking : ExceptT ε (StateM σ) α} :
    Steadily states asking ↔ Follows (Inside states) (fun _ => False) asking asking := by
  constructor
  · rintro steadily state other ⟨inside, otherInside⟩
    obtain ⟨same, stays⟩ := steadily state other inside otherInside
    exact .inl ⟨same, stays, (steadily other state otherInside inside).2⟩
  · intro follows state other inside otherInside
    rcases follows state other ⟨inside, otherInside⟩ with ⟨same, stays, -⟩ | ⟨error, excuse, -⟩
    · exact ⟨same, stays⟩
    · exact excuse.elim

namespace Steadily

variable {states : σ → Prop} {asking : ExceptT ε (StateM σ) α} {next : α → ExceptT ε (StateM σ) β}

theorem stays (steadily : Steadily states asking) {state last : σ} {outcome : Except ε α}
    (inside : states state) (asks : asked asking state = (outcome, last)) : states last := by
  have left := (steadily state state inside inside).2
  rwa [asks] at left

theorem same (steadily : Steadily states asking) {state other last otherLast : σ}
    {outcome otherOutcome : Except ε α} (inside : states state) (otherInside : states other)
    (asks : asked asking state = (outcome, last))
    (otherAsks : asked asking other = (otherOutcome, otherLast)) : outcome = otherOutcome := by
  have equal := (steadily state other inside otherInside).1
  rwa [asks, otherAsks] at equal

theorem pure (value : α) : Steadily states (pure value : ExceptT ε (StateM σ) α) :=
  steadily_iff.mpr (.pure value)

theorem throw (error : ε) : Steadily states (throw error : ExceptT ε (StateM σ) α) :=
  steadily_iff.mpr (.throw error)

theorem bind (first : Steadily states asking) (rest : ∀ value, Steadily states (next value)) :
    Steadily states (asking >>= next) :=
  steadily_iff.mpr ((steadily_iff.mp first).bind fun value => steadily_iff.mp (rest value))

theorem ite {condition : Prop} [Decidable condition] {other : ExceptT ε (StateM σ) α}
    (first : Steadily states asking) (second : Steadily states other) :
    Steadily states (if condition then asking else other) :=
  steadily_iff.mpr (.ite (fun _ => steadily_iff.mp first) fun _ => steadily_iff.mp second)

theorem adapt {change : ε → ε'} (steadily : Steadily states asking) :
    Steadily states (asking.adapt change) :=
  steadily_iff.mpr ((steadily_iff.mp steadily).adapt fun _ => id)

theorem mapM {values : List α} {each : α → ExceptT ε (StateM σ) β}
    (steadily : ∀ value, Steadily states (each value)) : Steadily states (values.mapM each) :=
  steadily_iff.mpr (.mapM fun value => steadily_iff.mp (steadily value))

end Steadily

theorem Writing.count_steadily {states : σ → Prop} (number : Nat) :
    Steadily states (Writing.count number : Writing σ Bytes) :=
  steadily_iff.mpr (Writing.count_follows number)

theorem Writing.transform_steadily {states : σ → Prop} (index : Nat)
    (properties : Option Json.Value) :
    Steadily states (Writing.transform index properties : Writing σ Transform) :=
  steadily_iff.mpr (Writing.transform_follows index properties)

namespace AssetContext.Steady

variable {context : AssetContext σ} {states : σ → Prop} (steady : context.Steady states)
include steady

/-- A context that answers consistently answers as it does itself from any other state. -/
theorem tracks : context.Tracks context (Inside states) fun _ => False where
  resolveIn field reference := by
    have resolves : Steadily states
        (liftM (context.resolve reference) : Extraction σ (Except UnresolvedReference AssetId)) :=
      fun state other inside otherInside =>
        ⟨congrArg Except.ok (steady.resolve_same reference state other inside otherInside),
          steady.resolve_stays reference state inside⟩
    refine (steadily_iff.mp resolves).bind fun answer => ?_
    cases answer with
    | error unresolved => exact .throw _
    | ok id => exact .pure id
  declared {_ _ _ _ id} _ _ := by
    have declares : Steadily states
        (liftM (context.declared id) : Extraction σ (Option PropertyTable)) :=
      fun state other inside otherInside =>
        ⟨congrArg Except.ok (steady.declared_same id state other inside otherInside),
          steady.declared_stays id state inside⟩
    exact steadily_iff.mp declares

theorem asset (fields : Fields) (field : String) :
    Steadily states (fields.asset field context) :=
  steadily_iff.mpr (steady.tracks.asset fields field)

/-- What is extracted of an item is the same from all states of the set. -/
theorem extract (kind : ItemKind) (fields : Fields) :
    Steadily states (kind.extract fields context) :=
  steadily_iff.mpr (steady.tracks.extract kind fields)

theorem authoredItem (index : Nat) (name : String) (value : Json.Value) :
    Steadily states (Writing.authoredItem context index name value) :=
  steadily_iff.mpr (steady.tracks.authoredItem (fun _ _ _ => id) index name value)

theorem node (index : Nat) (source : SourceNode) :
    Steadily states (Writing.node context index source) :=
  steadily_iff.mpr (steady.tracks.node (fun _ _ _ => id) index source)

/-- What is written for nodes is the same from all states of the set. -/
theorem nodes (index : Nat) (sources : List SourceNode) :
    Steadily states (Writing.nodes context index sources) :=
  steadily_iff.mpr (steady.tracks.nodes (fun _ _ _ => id) index sources)

end AssetContext.Steady

end SceneForge
