import SceneForge.Json.Value
import SceneForge.Proofs.Json.Grammar
import SceneForge.Proofs.Results

/-!
# The values that texts denote

What value a tree denotes (`Denotes`), apart from how it is computed: an object merges its
repeated keys, each of which keeps its first place and takes its last value (`Merges`). The
value of a tree is computed exactly if it denotes one and is not nested too deeply, and so a
text has a value exactly if it spells such a tree.
-/

namespace SceneForge.Json

/-- Pairs of keys and values, merged into an object: the keys stand in the order of their first
occurrences, and the last value of each key counts. -/
structure Merges (pairs : List (String × Value)) (object : Object) : Prop where
  keys : object.map Prod.fst = (pairs.map Prod.fst).eraseDups
  values : ∀ key, object.get? key = pairs.reverse.lookup key

namespace Object

variable {object : Object} {key other : String} {value : Value}

theorem keys_insert (object : Object) (key : String) (value : Value) :
    (object.insert key value).map Prod.fst =
      if key ∈ object.map Prod.fst then object.map Prod.fst else object.map Prod.fst ++ [key] := by
  induction object with
  | nil => rfl
  | cons member rest ih =>
      rw [insert]
      by_cases same : member.1 = key
      · simp [same]
      · rw [if_neg same, List.map_cons, ih, List.map_cons]
        simp only [List.mem_cons, Ne.symm same, false_or]
        split <;> rfl

theorem nodup_keys_insert (distinct : (object.map Prod.fst).Nodup) (key : String) (value : Value) :
    ((object.insert key value).map Prod.fst).Nodup := by
  rw [keys_insert]
  split
  next => exact distinct
  next fresh =>
    refine List.nodup_append.mpr ⟨distinct, List.pairwise_singleton .., ?_⟩
    intro other among last single same
    rw [List.mem_singleton.mp single] at same
    exact fresh (same ▸ among)

theorem get?_cons (member : String × Value) (rest : Object) (key : String) :
    get? (member :: rest) key = if key = member.1 then some member.2 else get? rest key := by
  rw [get?, List.lookup_cons]
  by_cases same : key = member.1
  · simp [same]
  · simp [same, beq_false_of_ne same, get?]

theorem get?_insert (object : Object) (key : String) (value : Value) (other : String) :
    (object.insert key value).get? other = if other = key then some value else object.get? other := by
  induction object with
  | nil => exact get?_cons (key, value) [] other
  | cons member rest ih =>
      rw [insert]
      by_cases same : member.1 = key
      · rw [if_pos same, get?_cons, get?_cons, same]
        split <;> rfl
      · rw [if_neg same, get?_cons, ih, get?_cons]
        by_cases first : other = member.1
        · rw [if_pos first, if_neg (first ▸ same), if_pos first]
        · rw [if_neg first, if_neg first]

end Object

namespace Merges

/-- Setting the members of an object one after the other merges them. -/
theorem foldl_insert (pairs : List (String × Value)) :
    Merges pairs (pairs.foldl (fun (object : Object) (key, value) => object.insert key value) []) := by
  induction pairs using List.reverseRecOn with
  | nil => exact ⟨rfl, fun _ => rfl⟩
  | append_singleton pairs last ih =>
      rw [List.foldl_append, List.foldl_cons, List.foldl_nil]
      constructor
      · rw [Object.keys_insert, ih.keys, List.map_append, List.eraseDups_append]
        by_cases repeated : last.1 ∈ pairs.map Prod.fst
        · simp [repeated, List.removeAll, List.eraseDups_nil]
        · simp [repeated, List.removeAll, List.eraseDups_cons, List.eraseDups_nil]
      · intro key
        rw [Object.get?_insert, ih.values, List.reverse_append, List.reverse_singleton,
          List.singleton_append]
        exact (Object.get?_cons last pairs.reverse key).symm

variable {pairs : List (String × Value)} {object other : Object}

theorem eq_of_get? (keys : object.map Prod.fst = other.map Prod.fst)
    (distinct : (object.map Prod.fst).Nodup) (values : ∀ key, object.get? key = other.get? key) :
    object = other := by
  induction object generalizing other with
  | nil =>
      cases other with
      | nil => rfl
      | cons member rest => cases keys
  | cons member rest ih =>
      cases other with
      | nil => cases keys
      | cons otherMember otherRest =>
          obtain ⟨sameKey, sameKeys⟩ := List.cons.inj keys
          obtain ⟨fresh, distinct⟩ := List.nodup_cons.mp distinct
          have here := values member.1
          rw [Object.get?_cons, Object.get?_cons, if_pos rfl, if_pos sameKey] at here
          have same : rest = otherRest := by
            refine ih sameKeys distinct fun key => ?_
            by_cases first : key = member.1
            · -- The key of the first member is no key of the others.
              rw [first, Object.get?, Object.get?, List.lookup_eq_none_iff.mpr, List.lookup_eq_none_iff.mpr]
              · intro found among
                rw [sameKeys] at fresh
                exact bne_iff_ne.mpr fun same => fresh (same ▸ List.mem_map_of_mem among)
              · intro found among
                exact bne_iff_ne.mpr fun same => fresh (same ▸ List.mem_map_of_mem among)
            · have there := values key
              rwa [Object.get?_cons, Object.get?_cons, if_neg first, if_neg (sameKey ▸ first)] at there
          rw [same, Prod.ext sameKey (Option.some.inj here)]

theorem nodup_keys_foldl (pairs : List (String × Value)) :
    ((pairs.foldl (fun (object : Object) (key, value) => object.insert key value) []).map
      Prod.fst).Nodup := by
  induction pairs using List.reverseRecOn with
  | nil => exact .nil
  | append_singleton pairs last ih =>
      rw [List.foldl_append]
      exact Object.nodup_keys_insert ih last.1 last.2

/-- Pairs are merged into one object only. -/
theorem eq_foldl (merges : Merges pairs object) :
    object = pairs.foldl (fun (object : Object) (key, value) => object.insert key value) [] := by
  have merged := foldl_insert pairs
  refine (eq_of_get? (merged.keys.trans merges.keys.symm) (nodup_keys_foldl pairs) fun key => ?_).symm
  rw [merged.values, merges.values]

end Merges

namespace Tree

variable {tree : Tree} {value : Value} {budget : Nat}

/-- Induction on a tree, with its elements and the values of its members. -/
@[elab_as_elim]
theorem induct {motive : Tree → Prop} (null : motive .null) (bool : ∀ value, motive (.bool value))
    (number : ∀ value, motive (.number value)) (string : ∀ value, motive (.string value))
    (array : ∀ elements fault, (∀ element ∈ elements, motive element) → motive (.array elements fault))
    (object : ∀ members fault, (∀ member ∈ members, motive member.2) → motive (.object members fault))
    (broken : ∀ fault, motive (.broken fault)) : ∀ tree, motive tree
  | .null => null
  | .bool value => bool value
  | .number value => number value
  | .string value => string value
  | .array elements fault => array elements fault fun element _among =>
      induct null bool number string array object broken element
  | .object members fault => object members fault fun member _among =>
      induct null bool number string array object broken member.2
  | .broken fault => broken fault
termination_by tree => sizeOf tree
decreasing_by
  · have smaller := List.sizeOf_lt_of_mem _among
    simp only [Tree.array.sizeOf_spec]
    omega
  · have smaller := List.sizeOf_lt_of_mem _among
    have part : sizeOf member.2 < sizeOf member := by
      cases member
      simp only [Prod.mk.sizeOf_spec]
      omega
    simp only [Tree.object.sizeOf_spec]
    omega

mutual

/-- How many containers are nested in a tree. -/
def depth : Tree → Nat
  | .null | .bool _ | .number _ | .string _ | .broken _ => 0
  | .array elements _ => elementsDepth elements + 1
  | .object members _ => membersDepth members + 1

/-- How many containers are nested in elements. -/
def elementsDepth : List Tree → Nat
  | [] => 0
  | element :: rest => max element.depth (elementsDepth rest)

/-- How many containers are nested in the values of members. -/
def membersDepth : List Member → Nat
  | [] => 0
  | (_, value) :: rest => max value.depth (membersDepth rest)

end

theorem elementsDepth_le_iff {elements : List Tree} :
    elementsDepth elements ≤ budget ↔ ∀ element ∈ elements, element.depth ≤ budget := by
  induction elements with
  | nil => simp [elementsDepth]
  | cons element rest ih => rw [elementsDepth, Nat.max_le, ih, List.forall_mem_cons]

theorem membersDepth_le_iff {members : List Member} :
    membersDepth members ≤ budget ↔ ∀ member ∈ members, member.2.depth ≤ budget := by
  induction members with
  | nil => simp [membersDepth]
  | cons member rest ih => rw [membersDepth, Nat.max_le, ih, List.forall_mem_cons]

/-- The value that a tree denotes. -/
inductive Denotes : Tree → Value → Prop
  | null : Denotes .null .null
  | bool (value : Bool) : Denotes (.bool value) (.bool value)
  | number (value : Number) : Denotes (.number (.ok value)) (.number value)
  | string (value : String) : Denotes (.string (.ok value)) (.string value)
  | array {elements : List Tree} {values : List Value} (same_length : elements.length = values.length)
      (all : ∀ pair ∈ elements.zip values, Denotes pair.1 pair.2) :
      Denotes (.array elements none) (.array values)
  | object {members : List Member} {pairs : List (String × Value)} {object : Object}
      (same_length : members.length = pairs.length)
      (same_keys : ∀ pair ∈ members.zip pairs, pair.1.1 = .ok pair.2.1)
      (all : ∀ pair ∈ members.zip pairs, Denotes pair.1.2 pair.2.2) (merges : Merges pairs object) :
      Denotes (.object members none) (.object object)

theorem forall₂_congr_of_mem {α β : Type} {related other : α → β → Prop} {list : List α}
    {images : List β} (same : ∀ element ∈ list, ∀ image, related element image ↔ other element image) :
    List.Forall₂ related list images ↔ List.Forall₂ other list images := by
  induction list generalizing images with
  | nil => rw [List.forall₂_nil_left_iff, List.forall₂_nil_left_iff]
  | cons element rest ih =>
      obtain ⟨first, others⟩ := List.forall_mem_cons.mp same
      rw [List.forall₂_cons_left_iff, List.forall₂_cons_left_iff]
      simp only [first, ih others]

theorem denotes_array_iff {elements : List Tree} {fault : Option Fault} :
    (Tree.array elements fault).Denotes value ↔
      fault = none ∧ ∃ values, value = .array values ∧ List.Forall₂ Denotes elements values := by
  constructor
  · intro denotes
    cases denotes with
    | @array _ values same_length all =>
        exact ⟨rfl, values, rfl, List.forall₂_iff_zip.mpr ⟨same_length, fun among => all _ among⟩⟩
  · rintro ⟨rfl, values, rfl, all⟩
    obtain ⟨same_length, all⟩ := List.forall₂_iff_zip.mp all
    exact .array same_length fun pair among => all among

theorem denotes_object_iff {members : List Member} {fault : Option Fault} :
    (Tree.object members fault).Denotes value ↔
      fault = none ∧ ∃ pairs object, value = .object object ∧ Merges pairs object ∧
        List.Forall₂ (fun member pair => member.1 = .ok pair.1 ∧ member.2.Denotes pair.2)
          members pairs := by
  constructor
  · intro denotes
    cases denotes with
    | @object _ pairs object same_length same_keys all merges =>
        refine ⟨rfl, pairs, object, rfl, merges, ?_⟩
        exact List.forall₂_iff_zip.mpr
          ⟨same_length, fun among => ⟨same_keys _ among, all _ among⟩⟩
  · rintro ⟨rfl, pairs, object, rfl, merges, all⟩
    obtain ⟨same_length, all⟩ := List.forall₂_iff_zip.mp all
    exact .object same_length (fun pair among => (all among).1) (fun pair among => (all among).2) merges

/-! ### How values are computed -/

/-- The key of a member, and what a reader makes of its value. -/
def readEntry {α : Type} (read : (budget : Nat) → (tree : Tree) → Except Category α) (budget : Nat)
    (member : Member) : Except Category (String × α) := do
  let key ← member.1
  let value ← read budget member.2
  .ok (key, value)

theorem elementValues_eq_mapM (elements : List Tree) :
    elementValues budget elements = elements.mapM (Tree.value budget) := by
  induction elements with
  | nil => rfl
  | cons element rest ih =>
      rw [elementValues, ih, List.mapM_cons]
      rfl

theorem memberValues_eq_mapM (object : Object) (members : List Member) :
    memberValues budget object members = (do
      let pairs ← members.mapM (readEntry Tree.value budget)
      .ok (pairs.foldl (fun (object : Object) (key, value) => object.insert key value) object)) := by
  induction members generalizing object with
  | nil => rfl
  | cons member rest ih =>
      simp only [memberValues, List.mapM_cons, readEntry, bind_assoc, ih]
      rfl

theorem readEntry_eq_ok_iff {α : Type} {read : Nat → Tree → Except Category α} {member : Member}
    {pair : String × α} :
    readEntry read budget member = .ok pair ↔
      member.1 = .ok pair.1 ∧ read budget member.2 = .ok pair.2 := by
  rw [readEntry, bind_eq_ok_iff]
  constructor
  · rintro ⟨key, known, rest⟩
    obtain ⟨value, read, same⟩ := bind_eq_ok_iff.mp rest
    cases same
    exact ⟨known, read⟩
  · rintro ⟨known, read⟩
    exact ⟨pair.1, known, bind_eq_ok_iff.mpr ⟨pair.2, read, rfl⟩⟩

theorem value_array_eq_ok_iff {elements : List Tree} {fault : Option Fault} :
    (Tree.array elements fault).value budget = .ok value ↔
      ∃ budget' values, budget = budget' + 1 ∧ fault = none ∧ value = .array values ∧
        List.Forall₂ (fun element value => element.value budget' = .ok value) elements values := by
  cases budget with
  | zero => simp [Tree.value]
  | succ budget =>
      rw [Tree.value, bind_eq_ok_iff]
      simp only [elementValues_eq_mapM, mapM_eq_ok_iff]
      constructor
      · rintro ⟨values, read, same⟩
        cases fault with
        | some fault => cases same
        | none =>
            cases same
            exact ⟨budget, values, rfl, rfl, rfl, read⟩
      · rintro ⟨_, values, same, rfl, rfl, read⟩
        cases same
        exact ⟨values, read, rfl⟩

theorem value_object_eq_ok_iff {members : List Member} {fault : Option Fault} :
    (Tree.object members fault).value budget = .ok value ↔
      ∃ budget' pairs object, budget = budget' + 1 ∧ fault = none ∧ value = .object object ∧
        List.Forall₂ (fun member pair => member.1 = .ok pair.1 ∧ member.2.value budget' = .ok pair.2)
          members pairs ∧ Merges pairs object := by
  cases budget with
  | zero => simp [Tree.value]
  | succ budget =>
      rw [Tree.value, bind_eq_ok_iff]
      simp only [memberValues_eq_mapM, bind_eq_ok_iff, mapM_eq_ok_iff, readEntry_eq_ok_iff]
      constructor
      · rintro ⟨object, ⟨pairs, read, merged⟩, same⟩
        cases merged
        cases fault with
        | some fault => cases same
        | none =>
            cases same
            exact ⟨budget, pairs, _, rfl, rfl, rfl, read, .foldl_insert pairs⟩
      · rintro ⟨_, pairs, object, same, rfl, rfl, read, merges⟩
        cases same
        exact ⟨object, ⟨pairs, read, congrArg _ merges.eq_foldl.symm⟩, rfl⟩

/-- The value of a tree is computed exactly if the tree denotes it and is not nested too
deeply. -/
theorem value_eq_ok_iff : tree.value budget = .ok value ↔ tree.depth ≤ budget ∧ tree.Denotes value := by
  induction tree using induct generalizing budget value with
  | null => exact ⟨fun same => Except.ok.inj same ▸ ⟨Nat.zero_le _, .null⟩, fun ⟨_, .null⟩ => rfl⟩
  | bool => exact ⟨fun same => Except.ok.inj same ▸ ⟨Nat.zero_le _, .bool _⟩, fun ⟨_, .bool _⟩ => rfl⟩
  | number read =>
      cases read with
      | error problem => exact ⟨nofun, nofun⟩
      | ok number =>
          exact ⟨fun same => Except.ok.inj same ▸ ⟨Nat.zero_le _, .number _⟩, fun ⟨_, .number _⟩ => rfl⟩
  | string read =>
      cases read with
      | error problem => exact ⟨nofun, nofun⟩
      | ok text =>
          exact ⟨fun same => Except.ok.inj same ▸ ⟨Nat.zero_le _, .string _⟩, fun ⟨_, .string _⟩ => rfl⟩
  | broken fault => exact ⟨nofun, nofun⟩
  | array elements fault ih =>
      rw [value_array_eq_ok_iff, denotes_array_iff, depth]
      constructor
      · rintro ⟨budget, values, rfl, rfl, rfl, read⟩
        rw [forall₂_congr_of_mem fun element among _ => ih element among, List.forall₂_and_left] at read
        exact ⟨Nat.succ_le_succ (elementsDepth_le_iff.mpr read.1), rfl, values, rfl, read.2⟩
      · rintro ⟨enough, rfl, values, rfl, denote⟩
        obtain ⟨budget, rfl⟩ := Nat.exists_eq_add_of_le' (Nat.le_of_add_left_le enough)
        refine ⟨budget, values, rfl, rfl, rfl, ?_⟩
        rw [forall₂_congr_of_mem fun element among _ => ih element among, List.forall₂_and_left]
        exact ⟨elementsDepth_le_iff.mp (Nat.le_of_succ_le_succ enough), denote⟩
  | object members fault ih =>
      have inside {budget : Nat} {pairs : List (String × Value)} :
          List.Forall₂ (fun member pair => member.1 = .ok pair.1 ∧ member.2.value budget = .ok pair.2)
              members pairs ↔
            (∀ member ∈ members, member.2.depth ≤ budget) ∧
              List.Forall₂ (fun member pair => member.1 = .ok pair.1 ∧ member.2.Denotes pair.2)
                members pairs := by
        rw [← List.forall₂_and_left]
        refine forall₂_congr_of_mem fun member among pair => ?_
        rw [ih member among, and_left_comm]
      rw [value_object_eq_ok_iff, denotes_object_iff, depth]
      constructor
      · rintro ⟨budget, pairs, object, rfl, rfl, rfl, read, merges⟩
        obtain ⟨depths, denote⟩ := inside.mp read
        exact ⟨Nat.succ_le_succ (membersDepth_le_iff.mpr depths), rfl, pairs, object, rfl, merges, denote⟩
      · rintro ⟨enough, rfl, pairs, object, rfl, merges, denote⟩
        obtain ⟨budget, rfl⟩ := Nat.exists_eq_add_of_le' (Nat.le_of_add_left_le enough)
        have depths := membersDepth_le_iff.mp (Nat.le_of_succ_le_succ enough)
        exact ⟨budget, pairs, object, rfl, rfl, rfl, inside.mpr ⟨depths, denote⟩, merges⟩

theorem whole_eq_ok_iff {α : Type} {reading : Reading} {outcome : Except Category α} {result : α} :
    reading.whole outcome = .ok result ↔ outcome = .ok result ∧ reading.surplus = false := by
  cases outcome with
  | error problem => exact ⟨nofun, nofun⟩
  | ok other => cases surplus : reading.surplus <;> simp [Reading.whole, surplus, Except.bind]

/-- A tree that denotes a value is without fault. -/
theorem whole_of_denotes (denotes : tree.Denotes value) : tree.Whole := by
  induction tree using induct generalizing value with
  | null => exact .null
  | bool read => exact .bool read
  | number read => exact .number read
  | string read => exact .string read
  | broken fault => cases denotes
  | array elements fault ih =>
      obtain ⟨rfl, values, -, all⟩ := denotes_array_iff.mp denotes
      refine .array fun element among => ?_
      obtain ⟨value, -, denotes⟩ := exists_of_forall₂ all among
      exact ih element among denotes
  | object members fault ih =>
      obtain ⟨rfl, pairs, object, -, -, all⟩ := denotes_object_iff.mp denotes
      refine .object fun member among => ?_
      obtain ⟨pair, -, -, denotes⟩ := exists_of_forall₂ all among
      exact ih member among denotes

theorem whole_of_value (readable : (tree.value budget).isOk) : tree.Whole := by
  obtain ⟨value, read⟩ := exists_of_isOk readable
  exact whole_of_denotes (value_eq_ok_iff.mp read).2

end Tree

namespace Token

/-- A token whose literal, if it is one, stands for something. -/
def Valued : Token → Prop
  | .number read => read.isOk
  | .string read => read.isOk
  | _ => True

end Token

namespace Tree

variable {tree : Tree}

theorem exists_forall₂ {α β : Type} {related : α → β → Prop} {list : List α}
    (all : ∀ element ∈ list, ∃ image, related element image) :
    ∃ images, List.Forall₂ related list images := by
  induction list with
  | nil => exact ⟨[], .nil⟩
  | cons element rest ih =>
      obtain ⟨⟨image, first⟩, others⟩ := List.forall_mem_cons.mp all
      obtain ⟨images, rest⟩ := ih others
      exact ⟨image :: images, .cons first rest⟩

theorem forall_mem_listed {parts : List (List Token)} {holds : Token → Prop} (comma : holds .comma) :
    (∀ token ∈ listed parts, holds token) ↔ ∀ part ∈ parts, ∀ token ∈ part, holds token := by
  cases parts with
  | nil => simp [listed]
  | cons part rest =>
      rw [listed_cons, List.forall_mem_append, List.forall_mem_flatMap, List.forall_mem_cons]
      simp [comma]

/-- A tree denotes a value if all literals in it stand for something. -/
theorem exists_denotes_iff (whole : tree.Whole) :
    (∃ value, tree.Denotes value) ↔ ∀ token ∈ tree.tokens, token.Valued := by
  induction whole with
  | null => exact ⟨fun _ => List.forall_mem_singleton.mpr trivial, fun _ => ⟨_, .null⟩⟩
  | bool read => exact ⟨fun _ => List.forall_mem_singleton.mpr trivial, fun _ => ⟨_, .bool read⟩⟩
  | number read =>
      rw [tokens, List.forall_mem_singleton]
      cases read with
      | error problem =>
          refine ⟨?_, Bool.noConfusion⟩
          rintro ⟨_, ⟨⟩⟩
      | ok number => exact ⟨fun _ => rfl, fun _ => ⟨_, .number number⟩⟩
  | string read =>
      rw [tokens, List.forall_mem_singleton]
      cases read with
      | error problem =>
          refine ⟨?_, Bool.noConfusion⟩
          rintro ⟨_, ⟨⟩⟩
      | ok text => exact ⟨fun _ => rfl, fun _ => ⟨_, .string text⟩⟩
  | @array elements all ih =>
      rw [tokens_array, List.forall_mem_cons, List.forall_mem_append, forall_mem_listed trivial,
        List.forall_mem_map]
      simp only [denotes_array_iff, true_and]
      constructor
      · rintro ⟨_, values, -, all⟩
        refine ⟨trivial, fun element among => ?_, by simp [Token.Valued]⟩
        obtain ⟨value, -, denotes⟩ := exists_of_forall₂ all among
        exact (ih element among).mp ⟨value, denotes⟩
      · rintro ⟨-, all, -⟩
        obtain ⟨values, all⟩ := exists_forall₂ fun element among =>
          (ih element among).mpr (all element among)
        exact ⟨_, values, rfl, all⟩
  | @object members all ih =>
      rw [tokens_object, List.forall_mem_cons, List.forall_mem_append, forall_mem_listed trivial,
        List.forall_mem_map]
      simp only [denotes_object_iff, true_and]
      constructor
      · rintro ⟨_, pairs, object, -, -, all⟩
        refine ⟨trivial, fun member among => ?_, by simp [Token.Valued]⟩
        obtain ⟨pair, -, key, denotes⟩ := exists_of_forall₂ all among
        rw [memberPart, key]
        exact List.forall_mem_cons.mpr ⟨rfl, List.forall_mem_cons.mpr
          ⟨trivial, (ih member among).mp ⟨pair.2, denotes⟩⟩⟩
      · rintro ⟨-, all, -⟩
        have images (member : Member) (among : member ∈ members) :
            ∃ pair : String × Value, member.1 = .ok pair.1 ∧ member.2.Denotes pair.2 := by
          obtain ⟨keyed, others⟩ := List.forall_mem_cons.mp (all member among)
          obtain ⟨-, valued⟩ := List.forall_mem_cons.mp others
          obtain ⟨key, known⟩ := exists_of_isOk keyed
          obtain ⟨value, denotes⟩ := (ih member among).mpr valued
          exact ⟨(key, value), known, denotes⟩
        obtain ⟨pairs, all⟩ := exists_forall₂ images
        exact ⟨_, pairs, _, rfl, .foldl_insert pairs, all⟩

end Tree

/-- A text has a value exactly if it spells a tree that denotes this value and in which at most
127 containers are nested. -/
theorem Value.read_eq_ok_iff {text : String} {value : Value} :
    Value.read text = .ok value ↔
      ∃ tree : Tree, tree.Spelled text ∧ tree.depth ≤ Tree.nestingLimit ∧ tree.Denotes value := by
  rw [Value.read, Tree.whole_eq_ok_iff, Tree.value_eq_ok_iff]
  constructor
  · rintro ⟨⟨enough, denotes⟩, no_surplus⟩
    refine ⟨(Tree.read text).tree, ?_, enough, denotes⟩
    rw [← Tree.read_eq_iff (Tree.whole_of_denotes denotes), ← no_surplus]
  · rintro ⟨tree, spelled, enough, denotes⟩
    rw [spelled.read]
    exact ⟨⟨enough, denotes⟩, rfl⟩

end SceneForge.Json
