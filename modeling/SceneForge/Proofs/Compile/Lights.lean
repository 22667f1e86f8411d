import SceneForge.Proofs.Compile.RoundTrip
import SceneForge.Proofs.Fields

/-!
# Lights and the sun

Which rules the lights of a compiled scene obey, and that extracting a light asks for nothing
else: it fails only if a field cannot be read or a rule is broken. The rules are about the
values that are written, after degrees have become radians and numbers have been narrowed.
-/

namespace SceneForge

open Binary

namespace Light

/-- All numbers of a light are finite. -/
structure Finite (light : Light) : Prop where
  color : light.color.Finite
  radius : light.radius.isFinite
  innerAngle : light.innerAngle.isFinite
  outerAngle : light.outerAngle.isFinite
  nearClipDistance : light.nearClipDistance.isFinite

/-- The rules of lights, for the values of their numbers. -/
structure Obeys (light : Light) : Prop where
  color : ∀ x ∈ light.color.toList, 0 ≤ x.value
  directional : light.type = .directional → light.radius.value = 0
  positive : light.type ≠ .directional → 0 < light.radius.value
  inner : 0 ≤ light.innerAngle.value
  cone : light.innerAngle.value < light.outerAngle.value
  outer : light.outerAngle.value < Single.halfPi.value
  nearClip : 0 ≤ light.nearClipDistance.value

/-- A light has the values that its fields are read as, and the defaults of those that are
absent. -/
structure ReadFrom (light : Light) (fields : Fields) : Prop where
  type : fields.lightType "LightType" standard.type = .ok light.type
  color : fields.vector "Color" standard.color = .ok light.color
  radius : fields.number "Radius" standard.radius = .ok light.radius
  innerAngle : fields.angle "InnerAngle" standard.innerAngle = .ok light.innerAngle
  outerAngle : fields.angle "OuterAngle" standard.outerAngle = .ok light.outerAngle
  nearClipDistance :
    fields.number "NearClipDistance" standard.nearClipDistance = .ok light.nearClipDistance
  profileIndex : fields.integer "IesLightProfileIndex" standard.profileIndex = .ok light.profileIndex

variable {light : Light} {fields : Fields}

theorem finite_standard : standard.Finite where
  color := by
    simp only [Vector3.Finite, Vector3.toList, standard, List.forall_mem_cons]
    exact ⟨by decide +kernel, by decide +kernel, by decide +kernel, List.forall_mem_nil _⟩
  radius := by decide +kernel
  innerAngle := by decide +kernel
  outerAngle := by decide +kernel
  nearClipDistance := by decide +kernel

/-- Whatever the fields are, a light that is read has finite numbers. -/
theorem ReadFrom.finite (reads : light.ReadFrom fields) : light.Finite where
  color := Fields.finite_of_vector finite_standard.color reads.color
  radius := Fields.optional_induct (fun x => x.isFinite) finite_standard.radius
    (fun _ _ => FieldValue.isFinite_of_number) reads.radius
  innerAngle := Fields.optional_induct (fun x => x.isFinite) finite_standard.innerAngle
    (fun _ _ => FieldValue.isFinite_of_angle) reads.innerAngle
  outerAngle := Fields.optional_induct (fun x => x.isFinite) finite_standard.outerAngle
    (fun _ _ => FieldValue.isFinite_of_angle) reads.outerAngle
  nearClipDistance := Fields.optional_induct (fun x => x.isFinite)
    finite_standard.nearClipDistance (fun _ _ => FieldValue.isFinite_of_number)
    reads.nearClipDistance

theorem nonneg_iff {x : Single} (finite : x.isFinite) : x.lt 0 = false ↔ 0 ≤ x.value := by
  have zero := Single.value_ofNat 0 (by decide)
  rw [← Bool.not_eq_true, Single.lt_iff finite (Single.isFinite_ofNat 0 (by decide)), zero, not_lt,
    Nat.cast_zero]

theorem color_eq_ok_iff {field : String} {default color : Vector3} :
    fields.color field default = .ok color ↔
      fields.vector field default = .ok color ∧ ∀ x ∈ color.toList, x.lt 0 = false := by
  rw [Fields.color, bind_eq_ok_iff]
  constructor
  · rintro ⟨read, vector, checked⟩
    split at checked
    next => cases checked
    next nonneg =>
      cases checked
      exact ⟨vector, by simpa using nonneg⟩
  · rintro ⟨vector, nonneg⟩
    refine ⟨color, vector, ?_⟩
    rw [if_neg (by simpa using nonneg)]
    rfl

end Light

namespace LightRule

variable {light : Light} {angled : Bool}

/-- What a rule says of the values of a light. -/
def Holds (light : Light) (angled : Bool) : LightRule → Prop
  | directionalRadius => light.type = .directional → light.radius.value = 0
  | positiveRadius => light.type ≠ .directional → 0 < light.radius.value
  | innerAngle => 0 ≤ light.innerAngle.value
  | outerAngle => light.outerAngle.value < Single.halfPi.value
  | innerBelowOuter => light.innerAngle.value < light.outerAngle.value
  | nearClip => 0 ≤ light.nearClipDistance.value
  | profileAngles => 0 ≤ light.profileIndex → angled = false

/-- Among finite numbers, a rule is not broken exactly if it holds. -/
theorem broken_eq_false_iff (finite : light.Finite) (rule : LightRule) :
    rule.broken light angled = false ↔ rule.Holds light angled := by
  cases rule with
  | directionalRadius =>
      rw [broken, Holds, ← Single.isZero_iff]
      simp
  | positiveRadius =>
      have positive : light.radius.le 0 = false ↔ 0 < light.radius.value := by
        have zero : (0 : Single).value = 0 := by exact_mod_cast Single.value_ofNat 0 (by decide)
        rw [← Bool.not_eq_true, Single.le_iff finite.radius (Single.isFinite_ofNat 0 (by decide)),
          zero, not_le]
      rw [broken, Holds, ← positive]
      simp
  | innerAngle => exact Light.nonneg_iff finite.innerAngle
  | outerAngle =>
      rw [broken, Holds, ← Bool.not_eq_true, Single.le_iff (by decide +kernel) finite.outerAngle,
        not_le]
  | innerBelowOuter =>
      rw [broken, Holds, ← Bool.not_eq_true, Single.le_iff finite.outerAngle finite.innerAngle, not_le]
  | nearClip => exact Light.nonneg_iff finite.nearClipDistance
  | profileAngles =>
      rw [broken, Holds]
      simp

/-- No rule is found broken exactly if all of them hold. -/
theorem find?_broken_eq_none_iff (finite : light.Finite) :
    all.find? (·.broken light angled) = none ↔ ∀ rule : LightRule, rule.Holds light angled := by
  rw [List.find?_eq_none]
  constructor
  · intro unbroken rule
    have member : rule ∈ all := by cases rule <;> decide
    exact (broken_eq_false_iff finite rule).mp (Bool.not_eq_true _ ▸ unbroken rule member)
  · intro holds rule _
    rw [(broken_eq_false_iff finite rule).mpr (holds rule)]
    decide

end LightRule

namespace Light

variable {light : Light} {fields : Fields}

/-- A light is extracted exactly if its fields are read as its values, these obey the rules, and
no angle is authored beside a profile. -/
theorem light_eq_ok_iff :
    fields.light = .ok light ↔ light.ReadFrom fields ∧ light.Obeys ∧
      (0 ≤ light.profileIndex → fields.get? "InnerAngle" = none ∧ fields.get? "OuterAngle" = none) := by
  have absent : (fields.contains "InnerAngle" || fields.contains "OuterAngle") = false ↔
      fields.get? "InnerAngle" = none ∧ fields.get? "OuterAngle" = none := by
    simp [Json.Object.contains]
  rw [← absent]
  constructor
  · intro extracted
    obtain ⟨type, typed, extracted⟩ := bind_eq_ok_iff.mp extracted
    obtain ⟨color, colored, extracted⟩ := bind_eq_ok_iff.mp extracted
    obtain ⟨radius, sized, extracted⟩ := bind_eq_ok_iff.mp extracted
    obtain ⟨inner, innerRead, extracted⟩ := bind_eq_ok_iff.mp extracted
    obtain ⟨outer, outerRead, extracted⟩ := bind_eq_ok_iff.mp extracted
    obtain ⟨nearClip, clipped, extracted⟩ := bind_eq_ok_iff.mp extracted
    obtain ⟨profile, profiled, checked⟩ := bind_eq_ok_iff.mp extracted
    obtain ⟨vector, nonneg⟩ := color_eq_ok_iff.mp colored
    dsimp only at checked
    split at checked
    next => cases checked
    next unbroken =>
      cases checked
      have reads : ReadFrom ⟨type, color, radius, inner, outer, nearClip, profile⟩ fields :=
        ⟨typed, vector, sized, innerRead, outerRead, clipped, profiled⟩
      have holds := (LightRule.find?_broken_eq_none_iff reads.finite).mp unbroken
      refine ⟨reads, ⟨fun x member => ?_, holds .directionalRadius, holds .positiveRadius,
        holds .innerAngle, holds .innerBelowOuter, holds .outerAngle, holds .nearClip⟩,
        holds .profileAngles⟩
      exact (nonneg_iff (reads.finite.color x member)).mp (nonneg x member)
  · rintro ⟨reads, obeys, apart⟩
    have colored := color_eq_ok_iff.mpr ⟨reads.color, fun x member =>
      (nonneg_iff (reads.finite.color x member)).mpr (obeys.color x member)⟩
    have unbroken : LightRule.all.find? (·.broken light
        (fields.contains "InnerAngle" || fields.contains "OuterAngle")) = none :=
      (LightRule.find?_broken_eq_none_iff reads.finite).mpr fun
        | .directionalRadius => obeys.directional
        | .positiveRadius => obeys.positive
        | .innerAngle => obeys.inner
        | .outerAngle => obeys.outer
        | .innerBelowOuter => obeys.cone
        | .nearClip => obeys.nearClip
        | .profileAngles => apart
    rw [Fields.light]
    refine bind_eq_ok_iff.mpr ⟨_, reads.type, bind_eq_ok_iff.mpr ⟨_, colored, ?_⟩⟩
    refine bind_eq_ok_iff.mpr ⟨_, reads.radius, bind_eq_ok_iff.mpr ⟨_, reads.innerAngle, ?_⟩⟩
    refine bind_eq_ok_iff.mpr ⟨_, reads.outerAngle, bind_eq_ok_iff.mpr ⟨_, reads.nearClipDistance, ?_⟩⟩
    refine bind_eq_ok_iff.mpr ⟨_, reads.profileIndex, ?_⟩
    dsimp only
    rw [unbroken]
    rfl

/-- Beside a profile, a light has the default angles. -/
theorem angles_eq_standard (reads : light.ReadFrom fields)
    (absent : fields.get? "InnerAngle" = none ∧ fields.get? "OuterAngle" = none) :
    light.innerAngle = standard.innerAngle ∧ light.outerAngle = standard.outerAngle := by
  have inner := reads.innerAngle
  have outer := reads.outerAngle
  rw [Fields.angle, Fields.optional] at inner outer
  rw [absent.1] at inner
  rw [absent.2] at outer
  exact ⟨(Except.ok.inj inner).symm, (Except.ok.inj outer).symm⟩

end Light

namespace Sunlight

variable {sunlight : Sunlight} {fields : Fields}

/-- The times of the sun are in the day, and its angles finite. -/
structure Lawful (sunlight : Sunlight) : Prop where
  sunriseTime : FieldValue.InDay sunlight.sunriseTime
  sunsetTime : FieldValue.InDay sunlight.sunsetTime
  timeOfDay : FieldValue.InDay sunlight.timeOfDay
  eastDirection : sunlight.eastDirection.isFinite
  angleOfIncidence : sunlight.angleOfIncidence.isFinite

theorem lawful_standard : standard.Lawful where
  sunriseTime := FieldValue.inDay_of_bounds (by decide +kernel) (by decide +kernel)
  sunsetTime := FieldValue.inDay_of_bounds (by decide +kernel) (by decide +kernel)
  timeOfDay := FieldValue.inDay_of_bounds (by decide +kernel) (by decide +kernel)
  eastDirection := by decide +kernel
  angleOfIncidence := by decide +kernel

/-- Whatever the fields are, a sun that is extracted is lawful. -/
theorem lawful_of_sunlight (extracted : fields.sunlight = .ok sunlight) : sunlight.Lawful := by
  have time {field : String} {default hours : Single} (lawful : FieldValue.InDay default)
      (reads : fields.timeOfDay field default = .ok hours) : FieldValue.InDay hours :=
    Fields.optional_induct _ lawful (fun _ _ => FieldValue.inDay_of_timeOfDay) reads
  have angle {field : String} {default radians : Single} (finite : default.isFinite)
      (reads : fields.angle field default = .ok radians) : radians.isFinite :=
    Fields.optional_induct (fun x => x.isFinite) finite
      (fun _ _ => FieldValue.isFinite_of_angle) reads
  obtain ⟨sunrise, sunriseRead, extracted⟩ := bind_eq_ok_iff.mp extracted
  obtain ⟨sunset, sunsetRead, extracted⟩ := bind_eq_ok_iff.mp extracted
  obtain ⟨east, eastRead, extracted⟩ := bind_eq_ok_iff.mp extracted
  obtain ⟨incidence, incidenceRead, extracted⟩ := bind_eq_ok_iff.mp extracted
  obtain ⟨hours, hoursRead, same⟩ := bind_eq_ok_iff.mp extracted
  cases same
  exact ⟨time lawful_standard.sunriseTime sunriseRead, time lawful_standard.sunsetTime sunsetRead,
    time lawful_standard.timeOfDay hoursRead, angle lawful_standard.eastDirection eastRead,
    angle lawful_standard.angleOfIncidence incidenceRead⟩

end Sunlight

section Described

variable {catalog : Catalog} {item : Item}

/-- Every item of a scene is what some authored item of the document says. -/
theorem Document.Describes.exists_item {document : Document} {scene : Scene}
    (described : document.Describes catalog scene) {node : Node} (nodeMember : node ∈ scene.nodes)
    (itemMember : item ∈ node.items) :
    ∃ source ∈ document.nodes, ∃ authored ∈ source.items, DescribesItem catalog authored item := by
  obtain ⟨source, sourceMember, described⟩ :=
    exists_of_forall₂ described.nodes_described.flip nodeMember
  obtain ⟨authored, member, itemDescribed⟩ :=
    exists_of_forall₂ described.items_described.flip itemMember
  exact ⟨source, sourceMember, authored, member, itemDescribed⟩

/-- How the payload of an item comes about from its fields. -/
inductive Extracted (catalog : Catalog) (fields : Fields) : Payload → Prop
  | camera : Extracted catalog fields .camera
  | light {light : Light} (made : fields.light = .ok light) : Extracted catalog fields (.light light)
  | sunlight {sunlight : Sunlight} (made : fields.sunlight = .ok sunlight) :
      Extracted catalog fields (.sunlight sunlight)
  | mesh {mesh : Mesh}
      (made : answer (fields.mesh (catalog.context : AssetContext Unit)) = .ok mesh) :
      Extracted catalog fields (.mesh mesh)
  | skeletonMesh (animation : AssetId) {mesh : Mesh}
      (made : answer (fields.mesh (catalog.context : AssetContext Unit)) = .ok mesh) :
      Extracted catalog fields (.skeletonMesh animation mesh)
  | material {use : MaterialUse}
      (made : answer (fields.materialUse (catalog.context : AssetContext Unit)) = .ok use) :
      Extracted catalog fields (.material use)

theorem ItemKind.extracted {kind : ItemKind} {fields : Fields} {payload : Payload}
    (extracts : answer (kind.extract fields (catalog.context : AssetContext Unit)) = .ok payload) :
    Extracted catalog fields payload := by
  rw [answer_eq_ok_iff] at extracts
  cases kind with
  | camera =>
      obtain ⟨rfl, -⟩ := asked_pure_eq_ok_iff.mp extracts
      exact .camera
  | light =>
      obtain ⟨light, _, read, made⟩ := asked_bind_eq_ok_iff.mp extracts
      obtain ⟨rfl, -⟩ := asked_pure_eq_ok_iff.mp made
      rw [asked_lift] at read
      exact .light (congrArg Prod.fst read)
  | sunlight =>
      obtain ⟨sunlight, _, read, made⟩ := asked_bind_eq_ok_iff.mp extracts
      obtain ⟨rfl, -⟩ := asked_pure_eq_ok_iff.mp made
      rw [asked_lift] at read
      exact .sunlight (congrArg Prod.fst read)
  | mesh =>
      obtain ⟨mesh, _, meshMade, made⟩ := asked_bind_eq_ok_iff.mp extracts
      obtain ⟨rfl, -⟩ := asked_pure_eq_ok_iff.mp made
      exact .mesh (answer_eq_ok_iff.mpr meshMade)
  | skeletonMesh =>
      obtain ⟨animation, _, -, rest⟩ := asked_bind_eq_ok_iff.mp extracts
      obtain ⟨mesh, _, meshMade, made⟩ := asked_bind_eq_ok_iff.mp rest
      obtain ⟨rfl, -⟩ := asked_pure_eq_ok_iff.mp made
      exact .skeletonMesh animation (answer_eq_ok_iff.mpr meshMade)
  | sky | volume | grass | terrain | particles =>
      obtain ⟨use, _, used, made⟩ := asked_bind_eq_ok_iff.mp extracts
      obtain ⟨rfl, -⟩ := asked_pure_eq_ok_iff.mp made
      exact .material (answer_eq_ok_iff.mpr used)

/-- The payload of an item of a scene was extracted from authored fields. -/
theorem DescribesItem.extracted {authored : String × Json.Value}
    (described : DescribesItem catalog authored item) :
    ∃ fields : Fields, authored.2 = .object fields ∧ Extracted catalog fields item.payload := by
  cases described with
  | @intro _ _ fields _ _ extracts => exact ⟨fields, rfl, ItemKind.extracted extracts⟩

end Described

/-- Lights and the sun in what is compiled. Every light of a compiled scene has finite numbers
and obeys the rules, and beside a profile it has the default angles; the times of every sun
are in the day. Extracting a light does nothing else but read its fields and check the rules:
it gives a light exactly if the fields are read as the light's values, these obey the rules,
and no angle is authored beside a profile. -/
theorem Compiler.lights_obey (compiler : Compiler) (text : String) :
    (∀ buffer, compiler.buffer text = .ok buffer →
      ∃ scene, Scene.decode buffer = .ok scene ∧ ∀ node ∈ scene.nodes, ∀ item ∈ node.items,
        (∀ light, item.payload = .light light → light.Finite ∧ light.Obeys ∧
          (0 ≤ light.profileIndex → light.innerAngle = Light.standard.innerAngle ∧
            light.outerAngle = Light.standard.outerAngle)) ∧
        ∀ sunlight, item.payload = .sunlight sunlight → sunlight.Lawful) ∧
    ∀ (fields : Fields) (light : Light), fields.light = .ok light ↔
      light.ReadFrom fields ∧ light.Obeys ∧ (0 ≤ light.profileIndex →
        fields.get? "InnerAngle" = none ∧ fields.get? "OuterAngle" = none) := by
  refine ⟨fun buffer compiled => ?_, fun fields light => Light.light_eq_ok_iff⟩
  obtain ⟨document, -, written⟩ := buffer_eq_ok compiled
  obtain ⟨scene, decoded, described⟩ := Writing.document_eq_ok written
  refine ⟨scene, decoded, fun node nodeMember item itemMember => ?_⟩
  obtain ⟨source, -, authored, -, itemDescribed⟩ := described.exists_item nodeMember itemMember
  obtain ⟨fields, -, extracted⟩ := itemDescribed.extracted
  constructor
  · intro light lit
    rw [lit] at extracted
    cases extracted with
    | light made =>
        obtain ⟨reads, obeys, apart⟩ := Light.light_eq_ok_iff.mp made
        exact ⟨reads.finite, obeys, fun profile => Light.angles_eq_standard reads (apart profile)⟩
  · intro sunlight shines
    rw [shines] at extracted
    cases extracted with
    | sunlight made => exact Sunlight.lawful_of_sunlight made

/-- A spot light whose outer angle is just below the limit. -/
theorem Compiler.lights_obey_spot :
    let compiler : Compiler := ⟨.standard, .empty, .standard⟩
    let text := "\x7b\"Nodes\":[\x7b\"Items\":\x7b\"LightSceneItem\":\x7b\"LightType\":\"SPOT\"," ++
      "\"InnerAngle\":0,\"OuterAngle\":89.999\x7d\x7d\x7d]\x7d"
    ∃ buffer scene, compiler.buffer text = .ok buffer ∧ Scene.decode buffer = .ok scene ∧
      ∃ node ∈ scene.nodes, ∃ item ∈ node.items, ∃ light, item.payload = .light light ∧
        light.Finite ∧ light.Obeys := by
  intro compiler text
  have lit : ((compiler.buffer text).toOption.bind fun buffer =>
      (Scene.decode buffer).toOption).any (fun scene => scene.nodes.any fun node =>
        node.items.any fun item => match item.payload with | .light _ => true | _ => false) := by
    decide +kernel
  cases compiled : compiler.buffer text with
  | error error =>
      rw [compiled] at lit
      cases lit
  | ok buffer =>
      obtain ⟨scene, decoded, lawful⟩ := (lights_obey compiler text).1 buffer compiled
      rw [compiled, Except.toOption, Option.bind_some, decoded, Except.toOption, Option.any_some,
        List.any_eq_true] at lit
      obtain ⟨node, nodeMember, lit⟩ := lit
      obtain ⟨item, itemMember, lit⟩ := List.any_eq_true.mp lit
      refine ⟨buffer, scene, rfl, decoded, node, nodeMember, item, itemMember, ?_⟩
      split at lit
      next light shines =>
        obtain ⟨finite, obeys, -⟩ := (lawful node nodeMember item itemMember).1 light shines
        exact ⟨light, shines, finite, obeys⟩
      next => cases lit

end SceneForge
