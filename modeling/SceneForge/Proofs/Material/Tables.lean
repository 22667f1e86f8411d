import Mathlib.Data.List.SplitBy
import SceneForge.Proofs.Material

/-!
# Tables in order

A table whose identifiers increase is known by the property that it has under each identifier.
Bisection finds this property, putting one in changes it under one identifier and keeps the
order, and so does overlaying a whole table. The table of declarations is in order, whatever is
declared, and has the first of several declarations with one identifier.
-/

namespace SceneForge

namespace StringId

variable {a b : StringId}

theorem compare_eq_lt_iff : compare a b = .lt ↔ a.raw < b.raw :=
  Std.compare_eq_lt (a := a.raw) (b := b.raw)

theorem compare_eq_gt_iff : compare a b = .gt ↔ b.raw < a.raw :=
  Std.compare_eq_gt (a := a.raw) (b := b.raw)

theorem isLE_compare_iff : (compare a b).isLE ↔ a.raw ≤ b.raw :=
  Std.isLE_compare (a := a.raw) (b := b.raw)

theorem ne_of_raw_lt (less : a.raw < b.raw) : a ≠ b := by
  rintro rfl
  exact UInt32.lt_irrefl _ less

end StringId

namespace PropertyTable

variable {table own : PropertyTable} {property : MaterialProperty} {id other : StringId}

/-- The identifiers of a table increase. -/
def Ascending (table : PropertyTable) : Prop := table.Pairwise fun a b => a.id.raw < b.id.raw

/-- The property of a table with an identifier; of several, the first. -/
def property? (table : PropertyTable) (id : StringId) : Option MaterialProperty :=
  table.find? (·.id == id)

theorem property?_eq_some_of_mem (ascending : table.Ascending) (member : property ∈ table) :
    table.property? property.id = some property := by
  induction table with
  | nil => cases member
  | cons first rest ih =>
      obtain ⟨below, ascending⟩ := List.pairwise_cons.mp ascending
      rw [property?, List.find?_cons]
      rcases List.mem_cons.mp member with rfl | later
      · rw [beq_self_eq_true]
      · rw [beq_eq_false_iff_ne.mpr (StringId.ne_of_raw_lt (below property later))]
        exact ih ascending later

theorem mem_of_property? (found : table.property? id = some property) :
    property ∈ table ∧ property.id = id := by
  rw [property?] at found
  have named := List.find?_some found
  exact ⟨List.mem_of_find?_eq_some found, eq_of_beq named⟩

theorem property?_eq_none_iff : table.property? id = none ↔ ∀ property ∈ table, property.id ≠ id := by
  simp [property?, List.find?_eq_none]

theorem isSome_property?_iff : (table.property? id).isSome ↔ ∃ property ∈ table, property.id = id := by
  simp [property?, List.find?_isSome]

section Search

theorem idAt_of_lt {index : Nat} (inside : index < table.length) :
    table.idAt index = table[index].id := by
  rw [idAt, List.getElem?_eq_getElem inside]
  rfl

theorem Ascending.idAt_lt (ascending : table.Ascending) {index later : Nat} (less : index < later)
    (inside : later < table.length) : (table.idAt index).raw < (table.idAt later).raw := by
  rw [idAt_of_lt inside, idAt_of_lt (less.trans inside)]
  exact List.pairwise_iff_getElem.mp ascending index later _ inside less

/-- Narrowing ends at the last index whose identifier is not greater, or at the first one. -/
theorem narrow_spec (ascending : table.Ascending) {first count : Nat} (positive : 0 < count)
    (inside : first + count ≤ table.length) :
    first ≤ narrow table id first count ∧ narrow table id first count < first + count ∧
      (narrow table id first count = first ∨
        (table.idAt (narrow table id first count)).raw ≤ id.raw) ∧
      ∀ later, narrow table id first count < later → later < first + count →
        id.raw < (table.idAt later).raw := by
  fun_induction narrow table id first count with
  | case1 first count few => 
      exact ⟨le_refl _, by omega, .inl rfl, fun later above below => by omega⟩
  | case2 first count many middle greater ih =>
      have greater := StringId.compare_eq_gt_iff.mp greater
      obtain ⟨least, bound, found, beyond⟩ := ih (by omega) (by omega)
      refine ⟨least, by omega, found, fun later above below => ?_⟩
      by_cases near : later < first + (count - count / 2)
      · exact beyond later above near
      · -- What lies beyond the half is not before the middle.
        rcases Nat.eq_or_lt_of_le (show middle ≤ later by omega) with same | less
        · rwa [← same]
        · exact UInt32.lt_trans greater (ascending.idAt_lt less (by omega))
  | case3 first count many middle notGreater ih =>
      have notGreater := mt StringId.compare_eq_gt_iff.mpr notGreater
      obtain ⟨least, bound, found, beyond⟩ := ih (by omega) (by omega)
      refine ⟨by omega, by omega, .inr ?_, fun later above below => beyond later above (by omega)⟩
      rcases found with same | le
      · rw [same]
        exact UInt32.not_lt.mp notGreater
      · exact le

/-- Where the property with an identifier is in a table, or where it would have to be put. -/
inductive Located (table : PropertyTable) (id : StringId) : Place → Prop where
  | found {before after : PropertyTable} {property : MaterialProperty}
      (split : table = before ++ property :: after) (same : property.id = id) :
      Located table id (.found before.length)
  | missing {before after : PropertyTable} (split : table = before ++ after)
      (below : ∀ property ∈ before, property.id.raw < id.raw)
      (above : ∀ property ∈ after, id.raw < property.id.raw) :
      Located table id (.missing before.length)

/-- The property that is found is the one of the table with the identifier. -/
theorem property?_of_split {before after : PropertyTable} (ascending : table.Ascending)
    (split : table = before ++ property :: after) (same : property.id = id) :
    table.property? id = some property := by
  rw [← same]
  exact property?_eq_some_of_mem ascending (by simp [split])

/-- Where it is missing, there is none. -/
theorem property?_of_bounds {before after : PropertyTable} (split : table = before ++ after)
    (below : ∀ property ∈ before, property.id.raw < id.raw)
    (above : ∀ property ∈ after, id.raw < property.id.raw) : table.property? id = none := by
  rw [property?_eq_none_iff, split]
  intro property member
  rcases List.mem_append.mp member with earlier | later
  · exact StringId.ne_of_raw_lt (below property earlier)
  · exact (StringId.ne_of_raw_lt (above property later)).symm

theorem located_of_idAt {index : Nat} (inside : index < table.length)
    (same : (table.idAt index) = id) : Located table id (.found index) := by
  have split : table = table.take index ++ table[index] :: table.drop (index + 1) := by
    rw [← List.drop_eq_getElem_cons inside, List.take_append_drop]
  have found := Located.found split ((idAt_of_lt inside).symm.trans same)
  rwa [List.length_take_of_le inside.le] at found

theorem located_of_bounds {index : Nat} (inside : index ≤ table.length)
    (below : ∀ earlier < index, (table.idAt earlier).raw < id.raw)
    (above : ∀ later, index ≤ later → later < table.length → id.raw < (table.idAt later).raw) :
    Located table id (.missing index) := by
  have missing : Located table id (.missing (table.take index).length) := by
    apply Located.missing (List.take_append_drop index table).symm
    · intro property member
      obtain ⟨earlier, bound, rfl⟩ := List.mem_take_iff_getElem.mp member
      rw [← idAt_of_lt (by omega)]
      exact below earlier (by omega)
    · intro property member
      obtain ⟨offset, bound, rfl⟩ := List.mem_drop_iff_getElem.mp member
      rw [← idAt_of_lt (by omega)]
      exact above _ (by omega) (by omega)
  rwa [List.length_take_of_le inside] at missing

/-- In a table in order, bisection finds the property with an identifier, or the place where it
is missing. -/
theorem located_search (ascending : table.Ascending) (id : StringId) :
    Located table id (table.search id) := by
  rw [search]
  split
  next empty =>
    rw [List.isEmpty_iff.mp empty]
    exact located_of_bounds (Nat.le_refl 0) (fun _ impossible => absurd impossible (Nat.not_lt_zero _))
      fun _ _ impossible => absurd impossible (Nat.not_lt_zero _)
  next nonempty =>
    have positive : 0 < table.length := List.length_pos_iff.mpr (by simpa using nonempty)
    obtain ⟨-, inside, least, beyond⟩ :=
      @narrow_spec table id ascending 0 table.length positive (Nat.zero_add _).le
    rw [Nat.zero_add] at inside beyond
    dsimp only
    split
    next less =>
      have less := StringId.compare_eq_lt_iff.mp less
      apply located_of_bounds inside
      · intro earlier before
        rcases Nat.lt_succ_iff_lt_or_eq.mp before with before | rfl
        · exact UInt32.lt_trans (ascending.idAt_lt before inside) less
        · exact less
      · exact fun later after bound => beyond later after bound
    next same => exact located_of_idAt inside (Std.LawfulEqOrd.eq_of_compare same)
    next greater =>
      have greater := StringId.compare_eq_gt_iff.mp greater
      -- What narrowing ends at is greater only if it is the first index.
      have first : narrow table id 0 table.length = 0 := by
        rcases least with first | le
        · exact first
        · exact absurd greater (UInt32.not_lt.mpr le)
      apply located_of_bounds inside.le
      · intro earlier before
        omega
      · intro later after bound
        rcases Nat.eq_or_lt_of_le after with same | less
        · rwa [← same]
        · exact beyond later less bound

end Search

section Putting

theorem insertIdx_length (before after : PropertyTable) (property : MaterialProperty) :
    (before ++ after).insertIdx before.length property = before ++ property :: after := by
  induction before with
  | nil => rfl
  | cons first rest ih => exact congrArg (first :: ·) ih

/-- A table with a property put in: in place of the one with its identifier, or where it is
missing. -/
theorem put_cases (ascending : table.Ascending) (property : MaterialProperty) :
    ∃ before after, table.put property = before ++ property :: after ∧
      (∀ other ∈ before, other.id.raw < property.id.raw) ∧
      (∀ other ∈ after, property.id.raw < other.id.raw) ∧
      (table = before ++ after ∨
        ∃ replaced, replaced.id = property.id ∧ table = before ++ replaced :: after) := by
  have located := located_search ascending property.id
  rw [put]
  generalize table.search property.id = place at located
  cases located with
  | @found before after replaced split same =>
      subst split
      obtain ⟨-, ascending, below⟩ := List.pairwise_append.mp ascending
      refine ⟨before, after, by simp, ?_, ?_, .inr ⟨replaced, same, rfl⟩⟩
      · intro other member
        rw [← same]
        exact below other member replaced List.mem_cons_self
      · rw [← same]
        exact (List.pairwise_cons.mp ascending).1
  | @missing before after split below above =>
      subst split
      exact ⟨before, after, insertIdx_length before after property, below, above, .inl rfl⟩

/-- Putting a property into a table keeps the order. -/
theorem Ascending.put (ascending : table.Ascending) (property : MaterialProperty) :
    (table.put property).Ascending := by
  obtain ⟨before, after, put, below, above, whole⟩ := put_cases ascending property
  have parts : before.Pairwise (fun a b => a.id.raw < b.id.raw) ∧
      after.Pairwise (fun a b => a.id.raw < b.id.raw) := by
    rcases whole with rfl | ⟨replaced, -, rfl⟩
    · exact ⟨(List.pairwise_append.mp ascending).1, (List.pairwise_append.mp ascending).2.1⟩
    · obtain ⟨first, second, -⟩ := List.pairwise_append.mp ascending
      exact ⟨first, (List.pairwise_cons.mp second).2⟩
  rw [put, Ascending, List.pairwise_append]
  refine ⟨parts.1, List.pairwise_cons.mpr ⟨above, parts.2⟩, fun first earlier second later => ?_⟩
  rcases List.mem_cons.mp later with rfl | later
  · exact below first earlier
  · exact UInt32.lt_trans (below first earlier) (above second later)

/-- Putting a property into a table changes what is there under its identifier. -/
theorem property?_put (ascending : table.Ascending) (property : MaterialProperty) (id : StringId) :
    (table.put property).property? id =
      if property.id = id then some property else table.property? id := by
  obtain ⟨before, after, put, below, -, whole⟩ := put_cases ascending property
  rw [put]
  split
  next same =>
    have none : property? before id = none :=
      property?_eq_none_iff.mpr fun other member => same ▸ StringId.ne_of_raw_lt (below other member)
    rw [property?] at none ⊢
    simp [none, same]
  next differs =>
    rcases whole with rfl | ⟨replaced, same, rfl⟩
    · simp [property?, differs]
    · simp [property?, differs, same]

/-- A table with another one put into it is in order. -/
theorem Ascending.overlay (ascending : table.Ascending) (own : PropertyTable) :
    (table.overlay own).Ascending := by
  induction own generalizing table with
  | nil => exact ascending
  | cons first rest ih => exact ih (ascending.put first)

/-- A table with another one put into it has the properties of the other one, and else its
own. -/
theorem property?_overlay (ascending : table.Ascending) (ownAscending : own.Ascending) (id : StringId) :
    (table.overlay own).property? id = (own.property? id).or (table.property? id) := by
  induction own generalizing table with
  | nil => rfl
  | cons first rest ih =>
      obtain ⟨below, rising⟩ := List.pairwise_cons.mp ownAscending
      have step : (table.overlay (first :: rest)).property? id =
          (property? rest id).or ((table.put first).property? id) := ih (ascending.put first) rising
      rw [step, property?_put ascending]
      split
      next same =>
        have none : property? rest id = none :=
          property?_eq_none_iff.mpr fun other member =>
            same ▸ (StringId.ne_of_raw_lt (below other member)).symm
        rw [none]
        simp [property?, same]
      next differs => simp [property?, differs]

end Putting

section Declarations

/-- The first of each group of properties that share an identifier, where the groups follow each
other in order: they are in order, and each is the first with its identifier. -/
theorem firsts_of_groups {groups : List PropertyTable} (nonempty : [] ∉ groups)
    (ordered : groups.flatten.Pairwise fun a b => a.id.raw ≤ b.id.raw)
    (alike : ∀ group ∈ groups, ∀ first ∈ group, ∀ second ∈ group, first.id = second.id)
    (apart : groups.IsChain fun group next =>
      ∃ last ∈ group, ∃ first ∈ next.head?, last.id ≠ first.id) :
    Ascending (groups.filterMap List.head?) ∧
      ∀ id, property? (groups.filterMap List.head?) id = property? groups.flatten id := by
  induction groups with
  | nil => exact ⟨.nil, fun _ => rfl⟩
  | cons group rest ih =>
      rw [List.mem_cons, not_or] at nonempty
      obtain ⟨first, others, rfl⟩ := List.exists_cons_of_ne_nil (Ne.symm nonempty.1)
      obtain ⟨same, alike⟩ := List.forall_mem_cons.mp alike
      rw [List.flatten_cons, List.pairwise_append] at ordered
      obtain ⟨-, ordered, upward⟩ := ordered
      obtain ⟨next, apart⟩ := List.isChain_cons.mp apart
      obtain ⟨ascending, found⟩ := ih nonempty.2 ordered alike apart
      have heads : List.filterMap List.head? ((first :: others) :: rest) =
          first :: rest.filterMap List.head? := List.filterMap_cons_some rfl
      rw [heads]
      refine ⟨List.pairwise_cons.mpr ⟨fun other member => ?_, ascending⟩, fun id => ?_⟩
      · -- The first property of the next group is greater, and those behind it are not less.
        cases rest with
        | nil => cases member
        | cons group more =>
            obtain ⟨last, lastMember, head, isHead, differs⟩ := next group rfl
            rw [List.filterMap_cons_some isHead] at member
            have less : first.id.raw < head.id.raw := by
              have le := upward first List.mem_cons_self head
                (List.mem_append_left _ (List.mem_of_mem_head? isHead))
              refine UInt32.lt_of_le_of_ne le fun equal => differs ?_
              rw [← same first List.mem_cons_self last lastMember]
              exact congrArg StringId.mk equal
            rcases List.mem_cons.mp member with rfl | later
            · exact less
            · rw [List.filterMap_cons_some isHead] at ascending
              exact UInt32.lt_trans less ((List.pairwise_cons.mp ascending).1 other later)
      · have step := found id
        rw [property?, property?, List.find?_cons, List.flatten_cons, List.find?_append, List.find?_cons]
        by_cases equal : (first.id == id) = true
        · rw [equal]
          rfl
        · have none : others.find? (·.id == id) = none := by
            rw [List.find?_eq_none]
            intro other member
            rwa [← same first List.mem_cons_self other (List.mem_cons_of_mem first member)]
          rw [Bool.not_eq_true] at equal
          rw [equal, none]
          exact step

theorem ofDeclarations_nil : ofDeclarations [] = [] := by
  simp [ofDeclarations]

/-- The declarations in the order of their identifiers. -/
def sort (properties : List MaterialProperty) : List MaterialProperty :=
  properties.mergeSort fun a b => (compare a.id b.id).isLE

theorem le_trans_ids (a b c : MaterialProperty) (first : (compare a.id b.id).isLE)
    (second : (compare b.id c.id).isLE) : (compare a.id c.id).isLE := by
  rw [StringId.isLE_compare_iff] at first second ⊢
  exact UInt32.le_trans first second

theorem le_total_ids (a b : MaterialProperty) :
    (compare a.id b.id).isLE || (compare b.id a.id).isLE := by
  rw [Bool.or_eq_true, StringId.isLE_compare_iff, StringId.isLE_compare_iff]
  exact UInt32.le_total _ _

theorem pairwise_sort (properties : List MaterialProperty) :
    (sort properties).Pairwise fun a b => a.id.raw ≤ b.id.raw :=
  (List.pairwise_mergeSort le_trans_ids le_total_ids properties).imp
    StringId.isLE_compare_iff.mp

/-- Sorting declarations keeps those that share an identifier as they are. -/
theorem filter_sort (properties : List MaterialProperty) (id : StringId) :
    (sort properties).filter (·.id == id) = properties.filter (·.id == id) := by
  have alike : (properties.filter (·.id == id)).Pairwise fun a b => (compare a.id b.id).isLE := by
    apply List.pairwise_of_forall_mem_list
    intro first firstMember second secondMember
    rw [eq_of_beq (List.mem_filter.mp firstMember).2, eq_of_beq (List.mem_filter.mp secondMember).2]
    exact StringId.isLE_compare_iff.mpr (UInt32.le_refl _)
  have kept := List.sublist_mergeSort le_trans_ids le_total_ids alike List.filter_sublist
  have within := kept.filter (·.id == id)
  rw [List.filter_filter, List.filter_congr fun _ _ => Bool.and_self _] at within
  refine (within.eq_of_length ?_).symm
  exact ((List.mergeSort_perm properties _).filter _).length_eq.symm

theorem property?_sort (properties : List MaterialProperty) (id : StringId) :
    property? (sort properties) id = property? properties id := by
  rw [property?, property?, ← List.head?_filter, ← List.head?_filter, filter_sort]

/-- The table of declarations is in order, and of several declarations with one identifier it has
the first. -/
theorem ofDeclarations_spec (properties : List MaterialProperty) :
    (ofDeclarations properties).Ascending ∧
      ∀ id, (ofDeclarations properties).property? id = property? properties id := by
  have whole : ((sort properties).splitBy fun a b => a.id == b.id).flatten = sort properties :=
    List.flatten_splitBy _ _
  have firsts := @firsts_of_groups ((sort properties).splitBy fun a b => a.id == b.id)
    (List.nil_notMem_splitBy _ _) (by rw [whole]; exact pairwise_sort properties) ?_ ?_
  · refine ⟨firsts.1, fun id => (firsts.2 id).trans ?_⟩
    rw [whole, property?_sort]
  · intro group member
    have chain : group.IsChain fun a b => a.id = b.id :=
      (List.isChain_of_mem_splitBy member).imp fun _ _ same => eq_of_beq same
    have trans : IsTrans MaterialProperty fun a b => a.id = b.id := ⟨fun _ _ _ => Eq.trans⟩
    have symm : Std.Symm fun a b : MaterialProperty => a.id = b.id := ⟨fun _ _ => Eq.symm⟩
    have alike := List.isChain_iff_pairwise.mp chain
    have all : ∀ ⦃first⦄, first ∈ group → ∀ ⦃second⦄, second ∈ group → first.id = second.id :=
      List.Pairwise.forall_of_forall (R := fun a b : MaterialProperty => a.id = b.id)
        (fun _ _ => rfl) alike
    exact fun first firstMember second secondMember => all firstMember secondMember
  · refine (List.isChain_getLast_head_splitBy _ _).imp fun group next found => ?_
    obtain ⟨groupNonempty, nextNonempty, differs⟩ := found
    exact ⟨_, List.getLast_mem groupNonempty, _, List.head_mem_head? nextNonempty,
      beq_eq_false_iff_ne.mp differs⟩

end Declarations

end PropertyTable

end SceneForge
