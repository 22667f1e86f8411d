import SceneForge.Proofs.Compile.Answer
import SceneForge.Compile.Buffer

/-!
# Asking side by side

The same questions may be put to two contexts, or to one from two states. As long as their
answers are the same, the same is extracted and written; only where the first one fails with
an error that is excused need the other one not follow.
-/

namespace SceneForge

variable {σ ε ε' α β : Type} {related : σ → σ → Prop}

/-- From related states on, other asking comes to what asking comes to, and to related states
again, unless asking fails with an excused error. -/
def Follows (related : σ → σ → Prop) (excused : ε → Prop)
    (asking other : ExceptT ε (StateM σ) α) : Prop :=
  ∀ state second, related state second →
    (asked asking state).1 = (asked other second).1 ∧
        related (asked asking state).2 (asked other second).2 ∨
      ∃ error, excused error ∧ (asked asking state).1 = .error error

namespace Follows

variable {excused : ε → Prop} {excused' : ε' → Prop} {asking other : ExceptT ε (StateM σ) α}
  {next otherNext : α → ExceptT ε (StateM σ) β}

theorem lift (outcome : Except ε α) :
    Follows related excused (liftM outcome) (liftM outcome) :=
  fun _ _ relates => .inl ⟨rfl, relates⟩

theorem pure (value : α) : Follows related excused (pure value) (pure value) :=
  lift (.ok value)

theorem throw (error : ε) :
    Follows related excused (throw error : ExceptT ε (StateM σ) α) (throw error) :=
  lift (.error error)

/-- What is asked next needs to be followed for values only that the first question can have. -/
theorem bind_of_ok (first : Follows related excused asking other)
    (rest : ∀ value state last, asked asking state = (.ok value, last) →
      Follows related excused (next value) (otherNext value)) :
    Follows related excused (asking >>= next) (other >>= otherNext) := by
  intro state second relates
  cases asks : asked asking state with
  | mk outcome between =>
      rcases first state second relates with ⟨same, relates⟩ | ⟨error, excuse, fails⟩
      · cases otherAsks : asked other second with
        | mk otherOutcome otherBetween =>
            rw [asks, otherAsks] at same relates
            cases same
            cases outcome with
            | error error =>
                rw [asked_bind_of_error asks, asked_bind_of_error otherAsks]
                exact .inl ⟨rfl, relates⟩
            | ok value =>
                rw [asked_bind_of_ok asks, asked_bind_of_ok otherAsks]
                exact rest value state between asks between otherBetween relates
      · rw [asks] at fails
        cases fails
        rw [asked_bind_of_error asks]
        exact .inr ⟨error, excuse, rfl⟩

theorem bind (first : Follows related excused asking other)
    (rest : ∀ value, Follows related excused (next value) (otherNext value)) :
    Follows related excused (asking >>= next) (other >>= otherNext) :=
  first.bind_of_ok fun value _ _ _ => rest value

theorem ite {condition : Prop} [Decidable condition] {second otherSecond : ExceptT ε (StateM σ) α}
    (first : condition → Follows related excused asking other)
    (rest : ¬condition → Follows related excused second otherSecond) :
    Follows related excused (if condition then asking else second)
      (if condition then other else otherSecond) := by
  split
  next holds => exact first holds
  next fails => exact rest fails

theorem adapt {change : ε → ε'} (follows : Follows related excused asking other)
    (excuses : ∀ error, excused error → excused' (change error)) :
    Follows related excused' (asking.adapt change) (other.adapt change) := by
  intro state second relates
  rcases follows state second relates with ⟨same, relates⟩ | ⟨error, excuse, fails⟩
  · exact .inl ⟨congrArg (Except.mapError change) same, relates⟩
  · exact .inr ⟨change error, excuses error excuse, congrArg (Except.mapError change) fails⟩

theorem mapM {values : List α} {each otherEach : α → ExceptT ε (StateM σ) β}
    (follows : ∀ value, Follows related excused (each value) (otherEach value)) :
    Follows related excused (values.mapM each) (values.mapM otherEach) := by
  induction values with
  | nil => exact .pure []
  | cons value values ih =>
      rw [List.mapM_cons, List.mapM_cons]
      exact (follows value).bind fun _ => ih.bind fun _ => .pure _

theorem foldlM {values : List α} {each otherEach : β → α → ExceptT ε (StateM σ) β}
    (follows : ∀ result value, Follows related excused (each result value) (otherEach result value))
    (initial : β) :
    Follows related excused (values.foldlM each initial) (values.foldlM otherEach initial) := by
  induction values generalizing initial with
  | nil => exact .pure initial
  | cons value values ih =>
      rw [List.foldlM_cons, List.foldlM_cons]
      exact (follows initial value).bind fun result => ih result

end Follows

/-- A valid identifier in a field is one that a reference is resolved to. -/
theorem Fields.resolved_of_asset {fields : Fields} {field : String} {context : AssetContext σ}
    {state last : σ} {id : AssetId}
    (found : asked (fields.asset field context) state = (.ok id, last)) (valid : id.isValid) :
    ∃ reference before, asked (context.resolveIn field reference) before = (.ok id, last) := by
  obtain ⟨authored, between, -, found⟩ := asked_bind_eq_ok_iff.mp found
  cases authored with
  | none =>
      obtain ⟨rfl, -⟩ := asked_pure_eq_ok_iff.mp found
      cases valid
  | some reference => exact ⟨reference, between, found⟩

theorem Writing.count_follows {excused : BufferError → Prop} (number : Nat) :
    Follows related excused (Writing.count number) (Writing.count number) :=
  .ite (fun _ => .pure _) fun _ => .throw _

theorem Writing.transform_follows {excused : BufferError → Prop} (index : Nat)
    (properties : Option Json.Value) :
    Follows related excused (Writing.transform index properties)
      (Writing.transform index properties) := by
  match properties with
  | none => exact .pure _
  | some (.object fields) => exact .lift _
  | some .null | some (.bool _) | some (.number _) | some (.string _) | some (.array _) =>
      exact .throw _

/-- Another context answers as a context does. What an asset declares is to be answered alike only
if some reference is resolved to this asset. -/
structure AssetContext.Tracks (other context : AssetContext σ) (related : σ → σ → Prop)
    (excused : FieldError → Prop) : Prop where
  resolveIn : ∀ field reference, Follows related excused (context.resolveIn field reference)
    (other.resolveIn field reference)
  declared : ∀ {field reference : String} {state last : σ} {id : AssetId},
    asked (context.resolveIn field reference) state = (.ok id, last) → id.isValid →
      Follows related excused (liftM (context.declared id)) (liftM (other.declared id))

namespace AssetContext.Tracks

variable {context other : AssetContext σ} {excused : FieldError → Prop}
  (tracks : other.Tracks context related excused)
include tracks

section Extracting

theorem asset (fields : Fields) (field : String) :
    Follows related excused (fields.asset field context) (fields.asset field other) := by
  refine (Follows.lift _).bind fun reference => ?_
  cases reference with
  | none => exact .pure _
  | some reference => exact tracks.resolveIn field reference

theorem mandatoryAsset (fields : Fields) (field : String) : Follows related excused
    (fields.mandatoryAsset field context) (fields.mandatoryAsset field other) := by
  refine (Follows.lift _).bind fun reference => ?_
  split
  · exact .throw _
  · exact .throw _
  · exact tracks.resolveIn field _

theorem assets (fields : Fields) (field : String) :
    Follows related excused (fields.assets field context) (fields.assets field other) := by
  rw [Fields.assets, Fields.assets]
  split
  · exact .pure _
  · refine .mapM fun element => ?_
    split
    · exact tracks.resolveIn field _
    · exact .throw _
  · exact .throw _

theorem mesh (fields : Fields) :
    Follows related excused (fields.mesh context) (fields.mesh other) :=
  (tracks.mandatoryAsset fields _).bind fun _ =>
    (tracks.assets fields _).bind fun _ => (Follows.lift _).bind fun _ => .pure _

theorem propertyValue (type : ValueType) (field : String) (value : Json.Value) :
    Follows related excused (context.propertyValue type field value)
      (other.propertyValue type field value) := by
  refine (Follows.lift _).bind fun authored => ?_
  cases authored with
  | plain value => exact .pure _
  | texture reference => exact (tracks.resolveIn field reference).bind fun _ => .pure _

theorem override (table : PropertyTable) (name : String) (value : Json.Value) :
    Follows related excused (context.override table name value) (other.override table name value) := by
  rw [AssetContext.override, AssetContext.override]
  split
  · exact .pure _
  · split
    · exact .pure _
    · exact (tracks.propertyValue _ name value).bind fun _ => .pure _

theorem overrides (fields : Fields) :
    Follows related excused (fields.overrides context) (fields.overrides other) := by
  rw [Fields.overrides, Fields.overrides]
  dsimp only
  split
  · exact .pure _
  · refine (tracks.asset fields _).bind_of_ok fun material _ _ materialFound =>
      (tracks.asset fields _).bind_of_ok fun blueprint _ _ blueprintFound => ?_
    have each (table : PropertyTable) (override : String × Json.Value) :=
      tracks.override table override.1 override.2
    -- Only a valid identifier is asked for, and it is one that a reference is resolved to.
    refine .ite (fun _ => .throw _) fun _ => .ite (fun _ => .pure _) fun someValid => .bind ?_
      fun _ => .foldlM each _
    cases valid : material.isValid with
    | true =>
        obtain ⟨reference, _, resolved⟩ := Fields.resolved_of_asset materialFound valid
        exact tracks.declared resolved valid
    | false =>
        have valid : blueprint.isValid := by simpa [valid] using someValid
        obtain ⟨reference, _, resolved⟩ := Fields.resolved_of_asset blueprintFound valid
        exact tracks.declared resolved valid
  · exact .throw _

theorem materialUse (fields : Fields) :
    Follows related excused (fields.materialUse context) (fields.materialUse other) := by
  refine (tracks.asset fields _).bind fun material => (tracks.asset fields _).bind fun blueprint =>
    (Follows.lift _).bind fun technique => ?_
  have rest (properties : PropertyTable) : Follows related excused
      (do
        Fields.requireCountable "SetMaterialProperties" .tooManyProperties properties
        return (⟨material, technique, blueprint, properties⟩ : MaterialUse))
      (do
        Fields.requireCountable "SetMaterialProperties" .tooManyProperties properties
        return ⟨material, technique, blueprint, properties⟩) :=
    (Follows.lift _).bind fun _ => .pure _
  have whole := (tracks.overrides fields).bind rest
  refine .ite (fun _ => (Follows.throw _).bind fun _ => ?_) fun _ => ?_
  all_goals exact .ite (fun _ => (Follows.throw _).bind fun _ => whole) fun _ => whole

/-- What is extracted of an item with the other context is the same. -/
theorem extract (kind : ItemKind) (fields : Fields) :
    Follows related excused (kind.extract fields context) (kind.extract fields other) := by
  cases kind with
  | camera => exact .pure _
  | light => exact (Follows.lift _).bind fun _ => .pure _
  | sunlight => exact (Follows.lift _).bind fun _ => .pure _
  | mesh => exact (tracks.mesh fields).bind fun _ => .pure _
  | skeletonMesh =>
      exact (tracks.asset fields _).bind fun _ => (tracks.mesh fields).bind fun _ => .pure _
  | sky | volume | grass | terrain | particles =>
      exact (tracks.materialUse fields).bind fun _ => .pure _

end Extracting

section Writing

variable {excused' : BufferError → Prop}
  (excuses : ∀ index kind error, excused error → excused' (.item index kind error))
include excuses

/-- What is written for an item is the same; it is extracted for its size and for its bytes. -/
theorem item (index : Nat) (kind : ItemKind) (fields : Fields) :
    Follows related excused' (Writing.item context index kind fields)
      (Writing.item other index kind fields) := by
  have payload : Follows related excused' (Writing.payload context index kind fields)
      (Writing.payload other index kind fields) :=
    (tracks.extract kind fields).adapt (excuses index kind)
  refine payload.bind fun first => (Writing.count_follows _).bind fun header =>
    payload.bind fun second => ?_
  exact .ite (fun _ => (Follows.throw _).bind fun _ => .pure _) fun _ => .pure _

theorem authoredItem (index : Nat) (name : String) (value : Json.Value) :
    Follows related excused' (Writing.authoredItem context index name value)
      (Writing.authoredItem other index name value) := by
  rw [Writing.authoredItem, Writing.authoredItem]
  split
  · exact .throw _
  · split
    · exact tracks.item excuses index _ _
    · exact .throw _

theorem node (index : Nat) (source : SourceNode) :
    Follows related excused' (Writing.node context index source)
      (Writing.node other index source) := by
  have each (authored : String × Json.Value) :=
    tracks.authoredItem excuses index authored.1 authored.2
  exact (Writing.transform_follows index source.properties).bind fun _ =>
    (Writing.count_follows _).bind fun _ => (Follows.mapM each).bind fun _ => .pure _

/-- What is written for nodes is the same. -/
theorem nodes (index : Nat) (sources : List SourceNode) :
    Follows related excused' (Writing.nodes context index sources)
      (Writing.nodes other index sources) := by
  induction sources generalizing index with
  | nil => exact .pure _
  | cons source sources ih =>
      exact (tracks.node excuses index source).bind fun _ => (ih (index + 1)).bind fun _ => .pure _

/-- What is written for a document is the same. -/
theorem document (document : Document) :
    Follows related excused' (Writing.document context document) (Writing.document other document) :=
  (Writing.count_follows _).bind fun _ =>
    (tracks.nodes excuses 0 document.nodes).bind fun _ => .pure _

end Writing

end AssetContext.Tracks

end SceneForge
