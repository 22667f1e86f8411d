import SceneForge.Proofs.Compile.TwoPasses

/-!
# Writing nodes one after the other

What is written for a node depends neither on where it stands nor on the nodes around it, if
the asset context answers consistently: the nodes of one document behind those of another are
written as the bytes of both, behind one header. Only a problem knows where its node stands,
and the one that is reported is the first problem of the first node that has any.
-/

namespace SceneForge

variable {σ ε ε' α β : Type}

section Settled

variable {states : σ → Prop} {state : σ}

/-- Adapting what is asked adapts each question. -/
theorem adapt_bind {change : ε → ε'} {asking : ExceptT ε (StateM σ) α}
    {next : α → ExceptT ε (StateM σ) β} :
    (asking >>= next).adapt change = asking.adapt change >>= fun value => (next value).adapt change := by
  funext state
  have adapted {γ : Type} (asking : ExceptT ε (StateM σ) γ) :
      asked (asking.adapt change) state =
        ((asked asking state).1.mapError change, (asked asking state).2) := rfl
  change asked ((asking >>= next).adapt change) state = asked (asking.adapt change >>= _) state
  rw [adapted]
  cases first : asked asking state with
  | mk outcome between =>
      have adaptedFirst := adapted asking
      rw [first] at adaptedFirst
      cases outcome with
      | error error => rw [asked_bind_of_error first, asked_bind_of_error adaptedFirst]; rfl
      | ok value => rw [asked_bind_of_ok first, asked_bind_of_ok adaptedFirst]; rfl

theorem adapt_mapM {change : ε → ε'} {each : α → ExceptT ε (StateM σ) β} {values : List α} :
    (values.mapM each).adapt change = values.mapM fun value => (each value).adapt change := by
  induction values with
  | nil => rfl
  | cons value values ih =>
      rw [List.mapM_cons, List.mapM_cons, adapt_bind]
      refine bind_congr fun first => ?_
      rw [adapt_bind, ih]
      rfl

/-- Among states that asking does not leave, and in which it comes to the same, a sequence of
questions comes to what the sequence of their answers does. -/
theorem Steadily.bind_fst {asking : ExceptT ε (StateM σ) α} {next : α → ExceptT ε (StateM σ) β}
    (first : Steadily states asking) (rest : ∀ value, Steadily states (next value))
    (inside : states state) :
    (asked (asking >>= next) state).1 =
      (asked asking state).1 >>= fun value => (asked (next value) state).1 := by
  cases asks : asked asking state with
  | mk outcome between =>
      cases outcome with
      | error error => rw [asked_bind_of_error asks]; rfl
      | ok value =>
          rw [asked_bind_of_ok asks]
          exact (rest value between state (first.stays inside asks) inside).1

theorem Steadily.mapM_fst {each : α → ExceptT ε (StateM σ) β} {values : List α}
    (steadily : ∀ value, Steadily states (each value)) (inside : states state) :
    (asked (values.mapM each) state).1 = values.mapM fun value => (asked (each value) state).1 := by
  induction values with
  | nil => rfl
  | cons value values ih =>
      rw [List.mapM_cons, List.mapM_cons, (steadily value).bind_fst _ inside]
      · refine bind_congr fun first => ?_
        rw [(Steadily.mapM steadily).bind_fst (fun _ => .pure _) inside, ih]
        rfl
      · exact fun _ => (Steadily.mapM steadily).bind fun _ => .pure _

end Settled

/-- The problem of a node that stands further back by a number of places. -/
def BufferError.shift (places : Nat) : BufferError → BufferError
  | .node index error => .node (index + places) error
  | .item index kind error => .item (index + places) kind error
  | .unknownItem index name => .unknownItem (index + places) name
  | .sizeMismatch kind declared written => .sizeMismatch kind declared written
  | .format error => .format error

namespace Writing

variable {context : AssetContext σ} {states : σ → Prop} {state : σ} {index : Nat}

section Shifted

variable (places : Nat)

theorem count_shift (number : Nat) :
    (count number : Writing σ Bytes) = (count number : Writing σ Bytes).adapt (.shift places) := by
  rw [count]
  split <;> rfl

theorem payload_shift (kind : ItemKind) (fields : Fields) :
    payload context (index + places) kind fields =
      (payload context index kind fields).adapt (.shift places) := by
  funext state
  change asked (payload context (index + places) kind fields) state = _
  change (((asked (kind.extract fields context) state).1.mapError _, _) : Except _ _ × σ) =
    (((asked (kind.extract fields context) state).1.mapError _).mapError _, _)
  cases (asked (kind.extract fields context) state).1 <;> rfl

theorem item_shift (kind : ItemKind) (fields : Fields) :
    item context (index + places) kind fields =
      (item context index kind fields).adapt (.shift places) := by
  rw [item, item, payload_shift, adapt_bind]
  refine bind_congr fun first => ?_
  rw [adapt_bind, ← count_shift]
  refine bind_congr fun header => ?_
  rw [adapt_bind]
  refine bind_congr fun second => ?_
  dsimp only
  split <;> rfl

theorem authoredItem_shift (name : String) (value : Json.Value) :
    authoredItem context (index + places) name value =
      (authoredItem context index name value).adapt (.shift places) := by
  rw [authoredItem, authoredItem]
  split
  next => rfl
  next =>
    split
    next => exact item_shift places _ _
    next => rfl

theorem transform_shift (properties : Option Json.Value) :
    (transform (index + places) properties : Writing σ Transform) =
      (transform index properties : Writing σ Transform).adapt (.shift places) := by
  match properties with
  | none => rfl
  | some (.object fields) =>
      funext state
      change (((Fields.transform fields).mapError _, _) : Except _ _ × σ) =
        (((Fields.transform fields).mapError _).mapError _, _)
      cases Fields.transform fields <;> rfl
  | some .null | some (.bool _) | some (.number _) | some (.string _) | some (.array _) => rfl

/-- A node is written the same wherever it stands; its problems name its place. -/
theorem node_shift (source : SourceNode) :
    node context (index + places) source =
      (node context index source).adapt (.shift places) := by
  rw [node, node, transform_shift, adapt_bind]
  refine bind_congr fun transform => ?_
  rw [adapt_bind, ← count_shift]
  refine bind_congr fun header => ?_
  rw [adapt_bind, adapt_mapM]
  simp only [authoredItem_shift]
  rfl

theorem nodes_shift (sources : List SourceNode) :
    nodes context (index + places) sources =
      (nodes context index sources).adapt (.shift places) := by
  induction sources generalizing index with
  | nil => rfl
  | cons source sources ih =>
      rw [nodes, nodes, node_shift, adapt_bind]
      refine bind_congr fun bytes => ?_
      rw [adapt_bind, ← ih, Nat.add_right_comm]
      rfl

end Shifted

end Writing

/-- What keeps the transform of a node from being read. -/
inductive TransformFault : Option Json.Value → FieldError → Prop
  | malformed {fields : Fields} {cause : FieldError}
      (failed : Fields.transform fields = .error cause) :
      TransformFault (some (.object fields)) cause
  | notObject {value : Json.Value} (other : ∀ fields, value ≠ .object fields) :
      TransformFault (some value) (.invalid "Properties" .notObject)

/-- What keeps an item of the node at an index from being written, with what the context
answers in a state. -/
inductive ItemFault (context : AssetContext σ) (state : σ) (index : Nat) :
    String × Json.Value → BufferError → Prop
  | unknown {name : String} {value : Json.Value} (unnamed : ItemKind.ofName? name = none) :
      ItemFault context state index (name, value) (.unknownItem index name)
  | notObject {name : String} {value : Json.Value} {kind : ItemKind}
      (named : ItemKind.ofName? name = some kind) (other : ∀ fields, value ≠ .object fields) :
      ItemFault context state index (name, value) (.item index kind (.invalid name .notObject))
  | malformed {name : String} {fields : Fields} {kind : ItemKind} {cause : FieldError}
      (named : ItemKind.ofName? name = some kind)
      (failed : (asked (kind.extract fields context) state).1 = .error cause) :
      ItemFault context state index (name, .object fields) (.item index kind cause)
  | tooLarge {name : String} {fields : Fields} {kind : ItemKind} {payload : Payload}
      (named : ItemKind.ofName? name = some kind)
      (extracted : (asked (kind.extract fields context) state).1 = .ok payload)
      (large : 2 ^ 32 ≤ payload.size) :
      ItemFault context state index (name, .object fields) (.format (.tooLarge payload.size))

/-- What keeps the node at an index from being written: its transform, else the number of its
items, else the first of its items that has a fault. -/
inductive NodeFault (context : AssetContext σ) (state : σ) (index : Nat) (source : SourceNode) :
    BufferError → Prop
  | transform {cause : FieldError} (fault : TransformFault source.properties cause) :
      NodeFault context state index source (.node index cause)
  | tooMany (readable : ∀ cause, ¬TransformFault source.properties cause)
      (many : 2 ^ 32 ≤ source.items.length) :
      NodeFault context state index source (.format (.tooLarge source.items.length))
  | item {earlier later : List (String × Json.Value)} {authored : String × Json.Value}
      {error : BufferError} (readable : ∀ cause, ¬TransformFault source.properties cause)
      (few : source.items.length < 2 ^ 32) (split : source.items = earlier ++ authored :: later)
      (first : ∀ other ∈ earlier, ∀ error, ¬ItemFault context state index other error)
      (fault : ItemFault context state index authored error) :
      NodeFault context state index source error

/-- What writing nodes as a document comes to from a state on. -/
def Writing.outcome (context : AssetContext σ) (sources : List SourceNode) (state : σ) :
    Except BufferError Bytes :=
  (asked (Writing.document context ⟨sources⟩) state).1

/-- A result that is no problem is a value. -/
theorem exists_eq_ok_iff {outcome : Except ε α} :
    (∃ value, outcome = .ok value) ↔ ∀ error, outcome ≠ .error error := by
  cases outcome <;> simp

section Faults

variable {context : AssetContext σ} {states : σ → Prop} {state : σ} {index : Nat}

/-- An item that has a fault has one in any node. -/
theorem ItemFault.elsewhere {authored : String × Json.Value} {error : BufferError}
    (fault : ItemFault context state index authored error) (other : Nat) :
    ∃ error, ItemFault context state other authored error := by
  cases fault with
  | unknown unnamed => exact ⟨_, .unknown unnamed⟩
  | notObject named differs => exact ⟨_, .notObject named differs⟩
  | malformed named failed => exact ⟨_, .malformed named failed⟩
  | tooLarge named extracted large => exact ⟨_, .tooLarge named extracted large⟩

/-- A node that has a fault has one wherever it stands. -/
theorem NodeFault.elsewhere {source : SourceNode} {error : BufferError}
    (fault : NodeFault context state index source error) (other : Nat) :
    ∃ error, NodeFault context state other source error := by
  cases fault with
  | transform fault => exact ⟨_, .transform fault⟩
  | tooMany readable many => exact ⟨_, .tooMany readable many⟩
  | item readable few split first fault =>
      obtain ⟨error, fault⟩ := fault.elsewhere other
      refine ⟨error, .item readable few split (fun item member error faulty => ?_) fault⟩
      obtain ⟨error, faulty⟩ := faulty.elsewhere index
      exact first item member error faulty

theorem Writing.count_fst (number : Nat) :
    (asked (Writing.count number : Writing σ Bytes) state).1 =
      if number < 2 ^ 32 then .ok (Bytes.ofUInt32 (UInt32.ofNat number))
      else .error (.format (.tooLarge number)) := by
  rw [Writing.count]
  split <;> rfl

theorem Writing.transform_fst_eq_error_iff {properties : Option Json.Value} {error : BufferError} :
    (asked (Writing.transform index properties : Writing σ Transform) state).1 = .error error ↔
      ∃ cause, TransformFault properties cause ∧ .node index cause = error := by
  cases properties with
  | none =>
      constructor
      · intro fails
        cases fails
      · rintro ⟨cause, ⟨⟩, -⟩
  | some value =>
      cases value with
      | object fields =>
          rw [Writing.transform, asked_lift, mapError_eq_error_iff]
          refine exists_congr fun cause => and_congr_left fun _ => ⟨.malformed, fun fault => ?_⟩
          cases fault with
          | malformed failed => exact failed
          | notObject other => exact absurd rfl (other fields)
      | null | bool | number | string | array =>
          constructor
          · intro fails
            cases fails
            exact ⟨_, .notObject fun _ => Json.Value.noConfusion, rfl⟩
          · rintro ⟨cause, fault, same⟩
            cases fault
            cases same
            rfl

theorem Writing.transform_fst_readable_iff {properties : Option Json.Value} :
    (∃ transform, (asked (Writing.transform index properties : Writing σ Transform) state).1 =
      .ok transform) ↔ ∀ cause, ¬TransformFault properties cause := by
  simp only [exists_eq_ok_iff, ne_eq, Writing.transform_fst_eq_error_iff, not_exists, not_and]
  exact ⟨fun none cause fault => none _ cause fault rfl, fun none _ cause fault _ => none cause fault⟩

variable (steady : context.Steady states) (inside : states state)
include steady inside

/-- An item is extracted the same both times, so that its size is right. -/
theorem Writing.item_fst (kind : ItemKind) (fields : Fields) :
    (asked (Writing.item context index kind fields) state).1 =
      ((asked (kind.extract fields context) state).1.mapError (.item index kind)) >>= fun payload =>
        if payload.size < 2 ^ 32 then .ok (Item.encode ⟨kind.typeId, payload⟩)
        else .error (.format (.tooLarge payload.size)) := by
  have extract : Steadily states (Writing.payload context index kind fields) :=
    (steady.extract kind fields).adapt
  have extracted : (asked (Writing.payload context index kind fields) state).1 =
      (asked (kind.extract fields context) state).1.mapError (.item index kind) := rfl
  have checked (first second : Payload) (header : Bytes) : Steadily states
      (if second.encode.length ≠ first.size then
        throw (.sizeMismatch kind first.size second.encode.length) >>= fun _ : Unit =>
          pure (Bytes.ofUInt32 kind.typeId.raw ++ header ++ second.encode)
      else pure (Bytes.ofUInt32 kind.typeId.raw ++ header ++ second.encode) : Writing σ Bytes) :=
    .ite ((Steadily.throw _).bind fun _ => .pure _) (.pure _)
  rw [Writing.item, extract.bind_fst _ inside, extracted]
  · cases outcome : (asked (kind.extract fields context) state).1 with
    | error cause => rfl
    | ok payload =>
        change (asked (Writing.count payload.size >>= _) state).1 =
          if payload.size < 2 ^ 32 then _ else _
        rw [(Writing.count_steadily _).bind_fst _ inside, Writing.count_fst]
        · split
          next few =>
            change (asked (Writing.payload context index kind fields >>= _) state).1 = _
            rw [extract.bind_fst (checked payload · _) inside, extracted, outcome]
            change (asked (if payload.encode.length ≠ payload.size then _ else _) state).1 = _
            rw [if_neg (not_not_intro payload.length_encode)]
            rfl
          next => rfl
        · exact fun header => extract.bind (checked payload · header)
  · exact fun payload => (Writing.count_steadily _).bind fun header =>
      extract.bind (checked payload · header)

/-- Writing an item fails with its fault. -/
theorem Writing.authoredItem_fst_eq_error_iff {authored : String × Json.Value}
    {error : BufferError} :
    (asked (Writing.authoredItem context index authored.1 authored.2) state).1 = .error error ↔
      ItemFault context state index authored error := by
  obtain ⟨name, value⟩ := authored
  rw [Writing.authoredItem]
  cases named : ItemKind.ofName? name with
  | none =>
      constructor
      · intro fails
        cases fails
        exact .unknown named
      · intro fault
        cases fault with
        | unknown => rfl
        | notObject known => cases named.symm.trans known
        | malformed known => cases named.symm.trans known
        | tooLarge known => cases named.symm.trans known
  | some kind =>
      cases value with
      | object fields =>
          dsimp only
          rw [Writing.item_fst steady inside, bind_eq_error_iff, mapError_eq_error_iff]
          constructor
          · rintro (⟨cause, failed, rfl⟩ | ⟨payload, extracted, large⟩)
            · exact .malformed named failed
            · split at large
              next => cases large
              next many =>
                cases large
                exact .tooLarge named (mapError_eq_ok_iff.mp extracted) (Nat.le_of_not_lt many)
          · intro fault
            cases fault with
            | unknown unnamed => cases named.symm.trans unnamed
            | notObject _ other => exact absurd rfl (other fields)
            | malformed known failed =>
                cases named.symm.trans known
                exact .inl ⟨_, failed, rfl⟩
            | tooLarge known extracted large =>
                cases named.symm.trans known
                exact .inr ⟨_, mapError_eq_ok_iff.mpr extracted, if_neg (Nat.not_lt_of_le large)⟩
      | null | bool | number | string | array =>
          constructor
          · intro fails
            cases fails
            exact .notObject named fun _ => Json.Value.noConfusion
          · intro fault
            cases fault with
            | unknown unnamed => cases named.symm.trans unnamed
            | notObject known =>
                cases named.symm.trans known
                rfl

/-- An item without a fault is written. -/
theorem Writing.authoredItem_fst_written_iff {authored : String × Json.Value} :
    (∃ bytes, (asked (Writing.authoredItem context index authored.1 authored.2) state).1 = .ok bytes) ↔
      ∀ error, ¬ItemFault context state index authored error := by
  simp only [exists_eq_ok_iff, ne_eq, Writing.authoredItem_fst_eq_error_iff steady inside]

/-- A node is written as its transform, the number of its items, and its items. -/
theorem Writing.node_fst (source : SourceNode) :
    (asked (Writing.node context index source) state).1 =
      (asked (Writing.transform index source.properties : Writing σ Transform) state).1 >>=
        fun transform => (asked (Writing.count source.items.length : Writing σ Bytes) state).1 >>=
          fun header => (source.items.mapM fun authored =>
            (asked (Writing.authoredItem context index authored.1 authored.2) state).1) >>=
            fun items => .ok (transform.encode ++ header ++ items.flatten) := by
  have each (authored : String × Json.Value) :
      Steadily states (Writing.authoredItem context index authored.1 authored.2) :=
    steady.authoredItem index authored.1 authored.2
  have listed (transform : Transform) (header : Bytes) : Steadily states
      (source.items.mapM (fun authored => Writing.authoredItem context index authored.1 authored.2)
        >>= fun items => pure (transform.encode ++ header ++ items.flatten) : Writing σ Bytes) :=
    (Steadily.mapM each).bind fun _ => .pure _
  rw [Writing.node, (Writing.transform_steadily _ _).bind_fst _ inside]
  · refine bind_congr fun transform => ?_
    rw [(Writing.count_steadily _).bind_fst (fun header => listed transform header) inside]
    refine bind_congr fun header => ?_
    rw [(Steadily.mapM each).bind_fst (fun _ => .pure _) inside, Steadily.mapM_fst each inside]
    rfl
  · exact fun transform => (Writing.count_steadily _).bind fun header => listed transform header

/-- Writing a node fails with its first fault. -/
theorem Writing.node_fst_eq_error_iff {source : SourceNode} {error : BufferError} :
    (asked (Writing.node context index source) state).1 = .error error ↔
      NodeFault context state index source error := by
  rw [Writing.node_fst steady inside, bind_eq_error_iff, Writing.transform_fst_eq_error_iff]
  simp only [bind_eq_error_iff, Writing.count_fst, mapM_eq_error_iff,
    Writing.authoredItem_fst_written_iff steady inside,
    Writing.authoredItem_fst_eq_error_iff steady inside]
  constructor
  · rintro (⟨cause, fault, rfl⟩ | ⟨transform, read, fails⟩)
    · exact .transform fault
    · have readable := Writing.transform_fst_readable_iff.mp ⟨transform, read⟩
      rcases fails with large | ⟨header, counted, fails | ⟨items, -, impossible⟩⟩
      · split at large
        next => cases large
        next many =>
          cases large
          exact .tooMany readable (Nat.le_of_not_lt many)
      · split at counted
        next few =>
          obtain ⟨earlier, authored, later, split, fine, fault⟩ := fails
          exact .item readable few split fine fault
        next => cases counted
      · cases impossible
  · intro fault
    cases fault with
    | transform fault => exact .inl ⟨_, fault, rfl⟩
    | tooMany sound many =>
        obtain ⟨transform, read⟩ := Writing.transform_fst_readable_iff.mpr sound
        exact .inr ⟨transform, read, .inl (if_neg (Nat.not_lt_of_le many))⟩
    | item sound few split first fault =>
        obtain ⟨transform, read⟩ := Writing.transform_fst_readable_iff.mpr sound
        exact .inr ⟨transform, read, .inr ⟨_, if_pos few, .inl ⟨_, _, _, split, first, fault⟩⟩⟩

theorem Writing.nodes_cons_fst (source : SourceNode) (sources : List SourceNode) :
    (asked (Writing.nodes context index (source :: sources)) state).1 =
      (asked (Writing.node context index source) state).1 >>= fun bytes =>
        (asked (Writing.nodes context (index + 1) sources) state).1 >>= fun others =>
          .ok (bytes ++ others) := by
  rw [Writing.nodes, (steady.node index source).bind_fst _ inside]
  · refine bind_congr fun bytes => ?_
    rw [(steady.nodes (index + 1) sources).bind_fst (fun _ => .pure _) inside]
    rfl
  · exact fun _ => (steady.nodes (index + 1) sources).bind fun _ => .pure _

/-- Nodes behind others are written behind them. -/
theorem Writing.nodes_append_fst (first second : List SourceNode) :
    (asked (Writing.nodes context index (first ++ second)) state).1 =
      (asked (Writing.nodes context index first) state).1 >>= fun bytes =>
        (asked (Writing.nodes context (index + first.length) second) state).1 >>= fun others =>
          .ok (bytes ++ others) := by
  induction first generalizing index with
  | nil =>
      change _ = (asked (Writing.nodes context index second) state).1 >>= pure
      rw [bind_pure]
      rfl
  | cons source sources ih =>
      rw [List.cons_append, Writing.nodes_cons_fst steady inside, ih,
        Writing.nodes_cons_fst steady inside, List.length_cons, Nat.add_right_comm, Nat.add_assoc]
      simp only [bind_assoc]
      refine bind_congr fun bytes => bind_congr fun others => ?_
      change _ = (asked _ state).1 >>= _
      refine bind_congr fun rest => ?_
      change Except.ok _ = Except.ok _
      rw [List.append_assoc]

/-- Writing nodes fails with the fault of the first node that has one. -/
theorem Writing.nodes_fst_eq_error_iff {sources : List SourceNode} {error : BufferError} :
    (asked (Writing.nodes context index sources) state).1 = .error error ↔
      ∃ before source after, sources = before ++ source :: after ∧
        (∀ other ∈ before, ∀ place error, ¬NodeFault context state place other error) ∧
        NodeFault context state (index + before.length) source error := by
  have fine {index : Nat} {source : SourceNode} {bytes : Bytes}
      (written : (asked (Writing.node context index source) state).1 = .ok bytes)
      (place : Nat) (error : BufferError) : ¬NodeFault context state place source error := by
    intro fault
    obtain ⟨error, fault⟩ := fault.elsewhere index
    rw [(Writing.node_fst_eq_error_iff steady inside).mpr fault] at written
    cases written
  induction sources generalizing index with
  | nil =>
      constructor
      · intro fails
        cases fails
      · intro ⟨before, source, after, split, _⟩
        cases before <;> cases split
  | cons source sources ih =>
      rw [Writing.nodes_cons_fst steady inside, bind_eq_error_iff,
        Writing.node_fst_eq_error_iff steady inside]
      simp only [bind_eq_error_iff, ih]
      constructor
      · rintro (fault | ⟨bytes, written, ⟨before, faulty, after, rfl, sound, fault⟩ | impossible⟩)
        · exact ⟨[], source, sources, rfl, nofun, fault⟩
        · refine ⟨source :: before, faulty, after, rfl,
            List.forall_mem_cons.mpr ⟨fine written, sound⟩, ?_⟩
          rwa [List.length_cons, Nat.add_comm before.length, ← Nat.add_assoc]
        · obtain ⟨_, -, impossible⟩ := impossible
          cases impossible
      · intro ⟨before, faulty, after, split, sound, fault⟩
        cases before with
        | nil =>
            cases split
            exact .inl fault
        | cons _ before =>
            cases split
            obtain ⟨first, sound⟩ := List.forall_mem_cons.mp sound
            obtain ⟨bytes, written⟩ : ∃ bytes,
                (asked (Writing.node context index source) state).1 = .ok bytes := by
              rw [exists_eq_ok_iff]
              intro error fails
              exact first index error ((Writing.node_fst_eq_error_iff steady inside).mp fails)
            rw [List.length_cons, Nat.add_comm before.length, ← Nat.add_assoc] at fault
            exact .inr ⟨bytes, written, .inl ⟨before, faulty, after, rfl, sound, fault⟩⟩

/-- A document of few nodes is written as its header and its nodes. -/
theorem Writing.outcome_eq {sources : List SourceNode} (few : sources.length < 2 ^ 32) :
    Writing.outcome context sources state =
      (asked (Writing.nodes context 0 sources) state).1.map fun content =>
        Bytes.ofUInt32 42 ++ Bytes.ofUInt32 (UInt32.ofNat sources.length) ++ content := by
  rw [Writing.outcome, Writing.document, (Writing.count_steadily _).bind_fst _ inside,
    Writing.count_fst, if_pos few]
  · change (asked (Writing.nodes context 0 sources >>= _) state).1 = _
    rw [(steady.nodes 0 sources).bind_fst (fun _ => .pure _) inside]
    cases (asked (Writing.nodes context 0 sources) state).1 <;> rfl
  · exact fun _ => (steady.nodes 0 sources).bind fun _ => .pure _

theorem Writing.outcome_eq_ok_iff {sources : List SourceNode} (few : sources.length < 2 ^ 32)
    {bytes : Bytes} :
    Writing.outcome context sources state = .ok bytes ↔
      ∃ content, (asked (Writing.nodes context 0 sources) state).1 = .ok content ∧
        bytes = Bytes.ofUInt32 42 ++ Bytes.ofUInt32 (UInt32.ofNat sources.length) ++ content := by
  rw [Writing.outcome_eq steady inside few]
  cases (asked (Writing.nodes context 0 sources) state).1 <;> simp [Except.map, eq_comm]

theorem Writing.outcome_eq_error_iff {sources : List SourceNode} (few : sources.length < 2 ^ 32)
    {error : BufferError} :
    Writing.outcome context sources state = .error error ↔
      (asked (Writing.nodes context 0 sources) state).1 = .error error := by
  rw [Writing.outcome_eq steady inside few]
  cases (asked (Writing.nodes context 0 sources) state).1 <;> simp [Except.map]

end Faults

/-- Writing is compositional over nodes. If a context answers consistently, the nodes of two
documents, one behind the other, are written as one header, the number of all nodes, and what
either document has behind its own header; a problem of the first document is the problem of
both together, and one of the second alone is the same but for the index of its node. The problem
of a document is that of the first of its nodes that has one: of the transform, else of the number
of items, else of the first of its items that has one. -/
theorem Writing.document_append {context : AssetContext σ} {states : σ → Prop}
    (steady : context.Steady states) {first second : List SourceNode}
    (few : first.length + second.length < 2 ^ 32) {one other both : σ} (one_inside : states one)
    (other_inside : states other) (both_inside : states both) :
    (∀ bytes others, outcome context first one = .ok bytes →
      outcome context second other = .ok others →
      outcome context (first ++ second) both =
        .ok (Bytes.ofUInt32 42 ++ Bytes.ofUInt32 (UInt32.ofNat (first.length + second.length)) ++
          bytes.drop 8 ++ others.drop 8)) ∧
    (∀ error, outcome context first one = .error error →
      outcome context (first ++ second) both = .error error) ∧
    (∀ bytes error, outcome context first one = .ok bytes →
      outcome context second other = .error error →
      outcome context (first ++ second) both = .error (error.shift first.length)) ∧
    ∀ error, outcome context (first ++ second) both = .error error ↔
      ∃ before source after, first ++ second = before ++ source :: after ∧
        (∀ node ∈ before, ∀ place fault, ¬NodeFault context both place node fault) ∧
        NodeFault context both before.length source error := by
  have few_first : first.length < 2 ^ 32 := Nat.lt_of_le_of_lt (Nat.le_add_right ..) few
  have few_second : second.length < 2 ^ 32 := Nat.lt_of_le_of_lt (Nat.le_add_left ..) few
  have few_both : (first ++ second).length < 2 ^ 32 := by rwa [List.length_append]
  have header (number : Nat) (content : Bytes) :
      (Bytes.ofUInt32 42 ++ Bytes.ofUInt32 (UInt32.ofNat number) ++ content).drop 8 = content :=
    List.drop_left' (by simp)
  have shifted : (asked (nodes context (0 + first.length) second) other).1 =
      (asked (nodes context 0 second) other).1.mapError (.shift first.length) := by
    rw [nodes_shift]
    rfl
  have together : (asked (nodes context 0 (first ++ second)) both).1 =
      (asked (nodes context 0 first) one).1 >>= fun bytes =>
        (asked (nodes context 0 second) other).1.mapError (.shift first.length) >>= fun others =>
          .ok (bytes ++ others) := by
    rw [nodes_append_fst steady both_inside, (steady.nodes 0 first both one both_inside one_inside).1,
      (steady.nodes _ second both other both_inside other_inside).1, shifted]
  refine ⟨fun bytes others wrote wroteOthers => ?_, fun error failed => ?_,
    fun bytes error wrote failed => ?_, fun error => ?_⟩
  · obtain ⟨content, made, rfl⟩ := (outcome_eq_ok_iff steady one_inside few_first).mp wrote
    obtain ⟨otherContent, otherMade, rfl⟩ :=
      (outcome_eq_ok_iff steady other_inside few_second).mp wroteOthers
    refine (outcome_eq_ok_iff steady both_inside few_both).mpr ⟨content ++ otherContent, ?_, ?_⟩
    · rw [together, made, otherMade]
      rfl
    · rw [header, header, List.length_append, List.append_assoc _ content]
  · have made := (outcome_eq_error_iff steady one_inside few_first).mp failed
    rw [outcome_eq_error_iff steady both_inside few_both, together, made]
    rfl
  · obtain ⟨content, made, -⟩ := (outcome_eq_ok_iff steady one_inside few_first).mp wrote
    have otherMade := (outcome_eq_error_iff steady other_inside few_second).mp failed
    rw [outcome_eq_error_iff steady both_inside few_both, together, made, otherMade]
    rfl
  · rw [outcome_eq_error_iff steady both_inside few_both, nodes_fst_eq_error_iff steady both_inside]
    simp only [Nat.zero_add]

/-- A context that counts the questions it is asked, and always gives the same answers. -/
theorem Writing.document_append_counting :
    let context : AssetContext Nat :=
      ⟨fun _ count => (.ok ⟨7⟩, count + 1), fun _ count => (none, count + 1)⟩
    let mesh : SourceNode := ⟨none, [("MeshSceneItem", .object [("Mesh", .string "a")])]⟩
    let bare : SourceNode := ⟨none, []⟩
    let unknown : SourceNode := ⟨none, [("HologramSceneItem", .null)]⟩
    (∃ bytes others, outcome context [mesh] 0 = .ok bytes ∧ outcome context [bare] 3 = .ok others ∧
      outcome context [mesh, bare] 5 =
        .ok (Bytes.ofUInt32 42 ++ Bytes.ofUInt32 2 ++ bytes.drop 8 ++ others.drop 8)) ∧
    outcome context [bare, unknown] 3 = .error (.unknownItem 1 "HologramSceneItem") ∧
    outcome context [mesh, bare, unknown] 5 = .error (.unknownItem 2 "HologramSceneItem") := by
  intro context mesh bare unknown
  have steady : context.Steady fun _ => True :=
    ⟨fun _ _ _ => trivial, fun _ _ _ _ _ => rfl, fun _ _ _ => trivial, fun _ _ _ _ _ => rfl⟩
  have written (sources : List SourceNode) (state : Nat)
      (succeeds : (outcome context sources state).isOk) :
      ∃ bytes, outcome context sources state = .ok bytes := exists_of_isOk succeeds
  obtain ⟨bytes, first⟩ := written [mesh] 0 (by decide +kernel)
  obtain ⟨others, second⟩ := written [bare] 3 (by decide +kernel)
  have failed : outcome context [bare, unknown] 3 = .error (.unknownItem 1 "HologramSceneItem") := rfl
  refine ⟨⟨bytes, others, first, second, ?_⟩, failed, ?_⟩
  · have few : [mesh].length + [bare].length < 2 ^ 32 := by decide
    exact (document_append steady few trivial trivial trivial).1 bytes others first second
  · have few : [mesh].length + [bare, unknown].length < 2 ^ 32 := by decide
    exact (document_append steady few trivial trivial trivial).2.2.1 bytes _ first failed

end SceneForge
