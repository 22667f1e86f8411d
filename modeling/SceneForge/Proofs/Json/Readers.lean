import Mathlib.Data.List.Nodup
import SceneForge.Json.Record
import SceneForge.Proofs.Json.Meaning

/-!
# What readers find

What the readers of options, lists, maps and records make of a tree. A map or a list is read
element by element. A record gives at most one tree for a field, as a member or at the field's
place among its elements (`Gives`), and this tree alone decides what is read for the field. How
deep a reader may go does not matter as long as it is deep enough (`Depthwise`).
-/

namespace SceneForge.Json.Tree

variable {α β σ : Type} {tree : Tree} {budget : Nat}

/-! ## Options, lists and maps -/

section Containers

variable {read : (budget : Nat) → (tree : Tree) → Except Category α}

theorem readElements_eq_mapM (elements : List Tree) :
    readElements read budget elements = elements.mapM (read budget) := by
  induction elements with
  | nil => rfl
  | cons element rest ih =>
      rw [readElements, ih, List.mapM_cons]
      rfl

theorem readEntries_eq_mapM (members : List Member) :
    readEntries read budget members = members.mapM (readEntry read budget) := by
  induction members with
  | nil => rfl
  | cons member rest ih =>
      simp only [readEntries, List.mapM_cons, readEntry, bind_assoc, ih]
      rfl

theorem readOption_eq_ok_iff {result : Option α} :
    readOption read budget tree = .ok result ↔
      (tree = .null ∧ result = none) ∨
        (tree ≠ .null ∧ ∃ value, result = some value ∧ read budget tree = .ok value) := by
  by_cases null : tree = .null
  · subst null
    simp [readOption, eq_comm]
  · have reads : readOption read budget tree = (read budget tree).map some := by
      cases tree with
      | null => contradiction
      | _ => rfl
    rw [reads]
    cases read budget tree <;> simp [null, Except.map, eq_comm]

theorem readList_eq_ok_iff {results : List α} :
    readList read budget tree = .ok results ↔
      ∃ budget' elements, budget = budget' + 1 ∧ tree = .array elements none ∧
        List.Forall₂ (fun element result => read budget' element = .ok result) elements results := by
  cases tree with
  | array elements fault =>
      cases budget with
      | zero => simp [readList]
      | succ budget =>
          rw [readList, bind_eq_ok_iff]
          simp only [readElements_eq_mapM, mapM_eq_ok_iff]
          constructor
          · rintro ⟨values, all, same⟩
            cases fault with
            | some fault => cases same
            | none =>
                cases same
                exact ⟨budget, elements, rfl, rfl, all⟩
          · rintro ⟨_, _, same, sameTree, all⟩
            cases same
            cases sameTree
            exact ⟨results, all, rfl⟩
  | _ => cases budget <;> simp [readList]

theorem readMap_eq_ok_iff {results : List (String × α)} :
    readMap read budget tree = .ok results ↔
      ∃ budget' members, budget = budget' + 1 ∧ tree = .object members none ∧
        List.Forall₂
          (fun member result => member.1 = .ok result.1 ∧ read budget' member.2 = .ok result.2)
          members results := by
  cases tree with
  | object members fault =>
      cases budget with
      | zero => simp [readMap]
      | succ budget =>
          rw [readMap, bind_eq_ok_iff]
          simp only [readEntries_eq_mapM, mapM_eq_ok_iff, readEntry_eq_ok_iff]
          constructor
          · rintro ⟨values, all, same⟩
            cases fault with
            | some fault => cases same
            | none =>
                cases same
                exact ⟨budget, members, rfl, rfl, all⟩
          · rintro ⟨_, _, same, sameTree, all⟩
            cases same
            cases sameTree
            exact ⟨results, all, rfl⟩
  | _ => cases budget <;> simp [readMap]

end Containers

/-! ## How deep readers go -/

section Depth

variable {read : (budget : Nat) → (tree : Tree) → Except Category α}

/-- A reader that makes the same of a tree however deep it may go, if it may go deep enough. -/
def Depthwise (read : (budget : Nat) → (tree : Tree) → Except Category α) : Prop :=
  ∀ ⦃tree : Tree⦄ ⦃budget other : Nat⦄, tree.depth ≤ budget → tree.depth ≤ other →
    read budget tree = read other tree

theorem mapM_congr_of_mem {ε : Type} {run other : β → Except ε α} {values : List β}
    (same : ∀ value ∈ values, run value = other value) : values.mapM run = values.mapM other := by
  induction values with
  | nil => rfl
  | cons value rest ih =>
      obtain ⟨first, others⟩ := List.forall_mem_cons.mp same
      rw [List.mapM_cons, List.mapM_cons, first, ih others]

theorem Depthwise.mapM_elements (depthwise : Depthwise read) {elements : List Tree} {other : Nat}
    (enough : elementsDepth elements ≤ budget) (enoughToo : elementsDepth elements ≤ other) :
    elements.mapM (read budget) = elements.mapM (read other) :=
  mapM_congr_of_mem fun element among =>
    depthwise (elementsDepth_le_iff.mp enough element among)
      (elementsDepth_le_iff.mp enoughToo element among)

theorem Depthwise.mapM_members (depthwise : Depthwise read) {members : List Member} {other : Nat}
    (enough : membersDepth members ≤ budget) (enoughToo : membersDepth members ≤ other) :
    members.mapM (readEntry read budget) = members.mapM (readEntry read other) :=
  mapM_congr_of_mem fun member among => by
    rw [readEntry, readEntry, depthwise (membersDepth_le_iff.mp enough member among)
      (membersDepth_le_iff.mp enoughToo member among)]

/-- Every container has room in a budget that is deep enough for it. -/
theorem exists_budget {depth : Nat} (enough : depth + 1 ≤ budget) :
    ∃ inner, budget = inner + 1 ∧ depth ≤ inner := by
  obtain ⟨inner, rfl⟩ := Nat.exists_eq_add_of_le' (Nat.le_of_add_left_le enough)
  exact ⟨inner, rfl, Nat.le_of_succ_le_succ enough⟩

/-- What is made of a reader's result does not depend on how deep the reader goes. -/
theorem Depthwise.bind (depthwise : Depthwise read) (next : α → Except Category β) :
    Depthwise fun budget tree => read budget tree >>= next := by
  intro tree budget other enough enoughToo
  dsimp only
  rw [depthwise enough enoughToo]

theorem depthwise_value : Depthwise Tree.value := by
  intro tree budget other enough enoughToo
  induction tree using induct generalizing budget other with
  | null | bool | number | string | broken => rfl
  | array elements fault ih =>
      obtain ⟨first, rfl, deep⟩ := exists_budget enough
      obtain ⟨second, rfl, deepToo⟩ := exists_budget enoughToo
      have same : elements.mapM (Tree.value first) = elements.mapM (Tree.value second) :=
        mapM_congr_of_mem fun element among => ih element among
          (elementsDepth_le_iff.mp deep element among)
          (elementsDepth_le_iff.mp deepToo element among)
      rw [Tree.value, Tree.value, elementValues_eq_mapM, elementValues_eq_mapM, same]
  | object members fault ih =>
      obtain ⟨first, rfl, deep⟩ := exists_budget enough
      obtain ⟨second, rfl, deepToo⟩ := exists_budget enoughToo
      have same : members.mapM (readEntry Tree.value first) =
          members.mapM (readEntry Tree.value second) :=
        mapM_congr_of_mem fun member among => by
          rw [readEntry, readEntry, ih member among (membersDepth_le_iff.mp deep member among)
            (membersDepth_le_iff.mp deepToo member among)]
      rw [Tree.value, Tree.value, memberValues_eq_mapM, memberValues_eq_mapM, same]

theorem depthwise_readOption (depthwise : Depthwise read) : Depthwise (readOption read) := by
  intro tree budget other enough enoughToo
  cases tree with
  | null => rfl
  | _ => exact congrArg (Except.map some) (depthwise enough enoughToo)

theorem depthwise_readList (depthwise : Depthwise read) : Depthwise (readList read) := by
  intro tree budget other enough enoughToo
  cases tree with
  | array elements fault =>
      obtain ⟨first, rfl, deep⟩ := exists_budget enough
      obtain ⟨second, rfl, deepToo⟩ := exists_budget enoughToo
      rw [readList, readList, readElements_eq_mapM, readElements_eq_mapM,
        depthwise.mapM_elements deep deepToo]
  | _ => rfl

theorem depthwise_readMap (depthwise : Depthwise read) : Depthwise (readMap read) := by
  intro tree budget other enough enoughToo
  cases tree with
  | object members fault =>
      obtain ⟨first, rfl, deep⟩ := exists_budget enough
      obtain ⟨second, rfl, deepToo⟩ := exists_budget enoughToo
      rw [readMap, readMap, readEntries_eq_mapM, readEntries_eq_mapM,
        depthwise.mapM_members deep deepToo]
  | _ => rfl

variable {fields : List (Field σ)} {state : σ}

/-- The fields of a record read their trees in the same way however deep they may go. -/
def FieldsDepthwise (fields : List (Field σ)) : Prop :=
  ∀ field ∈ fields, ∀ state, Depthwise fun budget tree => field.read budget tree state

theorem readPositions_depthwise (depthwise : FieldsDepthwise fields) {elements : List Tree}
    {other : Nat} (enough : elementsDepth elements ≤ budget)
    (enoughToo : elementsDepth elements ≤ other) :
    readPositions budget state fields elements = readPositions other state fields elements := by
  induction elements generalizing fields state with
  | nil => cases fields <;> rfl
  | cons element rest ih =>
      cases fields with
      | nil => rfl
      | cons field fields =>
          obtain ⟨first, others⟩ := List.forall_mem_cons.mp depthwise
          rw [elementsDepth, Nat.max_le] at enough enoughToo
          have same := first state enough.1 enoughToo.1
          dsimp only at same
          rw [readPositions, readPositions, same]
          exact bind_congr_of_ok fun next _ => ih others enough.2 enoughToo.2

theorem readMembers_depthwise (depthwise : FieldsDepthwise fields) {seen : List String}
    {members : List Member} {other : Nat} (enough : membersDepth members ≤ budget)
    (enoughToo : membersDepth members ≤ other) :
    readMembers budget fields seen state members = readMembers other fields seen state members := by
  induction members generalizing seen state with
  | nil => rfl
  | cons member rest ih =>
      rw [membersDepth, Nat.max_le] at enough enoughToo
      rw [readMembers, readMembers]
      refine bind_congr_of_ok fun key _ => ?_
      cases found : fields.find? (·.name == key) with
      | none => exact bind_congr_of_ok fun _ _ => ih enough.2 enoughToo.2
      | some field =>
          have same := depthwise field (List.mem_of_find?_eq_some found) state enough.1 enoughToo.1
          dsimp only at same ⊢
          rw [same]
          split
          next => rfl
          next => exact bind_congr_of_ok fun next _ => ih enough.2 enoughToo.2

theorem depthwise_readRecord (depthwise : FieldsDepthwise fields) :
    Depthwise (readRecord fields state) := by
  intro tree budget other enough enoughToo
  cases tree with
  | array elements fault =>
      obtain ⟨first, rfl, deep⟩ := exists_budget enough
      obtain ⟨second, rfl, deepToo⟩ := exists_budget enoughToo
      rw [readRecord, readRecord, readPositions_depthwise depthwise deep deepToo]
  | object members fault =>
      obtain ⟨first, rfl, deep⟩ := exists_budget enough
      obtain ⟨second, rfl, deepToo⟩ := exists_budget enoughToo
      rw [readRecord, readRecord, readMembers_depthwise depthwise deep deepToo]
  | _ => rfl

end Depth

/-! ## The members of a record -/

section Members

variable {fields : List (Field σ)} {state result : σ} {seen : List String}

theorem readMembers_cons_eq_ok_iff {member : Member} {rest : List Member} :
    readMembers budget fields seen state (member :: rest) = .ok result ↔
      ∃ key, member.1 = .ok key ∧
        ((fields.find? (·.name == key) = none ∧ member.2.skip = .ok () ∧
            readMembers budget fields seen state rest = .ok result) ∨
          ∃ field next, fields.find? (·.name == key) = some field ∧ key ∉ seen ∧
            field.read budget member.2 state = .ok next ∧
            readMembers budget fields (key :: seen) next rest = .ok result) := by
  rw [readMembers, bind_eq_ok_iff]
  refine exists_congr fun key => and_congr_right fun _ => ?_
  cases found : fields.find? (·.name == key) with
  | none =>
      rw [bind_eq_ok_iff]
      constructor
      · rintro ⟨_, skipped, reads⟩
        exact .inl ⟨rfl, skipped, reads⟩
      · rintro (⟨-, skipped, reads⟩ | ⟨_, _, impossible, -⟩)
        · exact ⟨(), skipped, reads⟩
        · cases impossible
  | some field =>
      by_cases known : key ∈ seen
      · simp [known]
      · simp [known, bind_eq_ok_iff]

theorem readRecord_array_eq_ok_iff {elements : List Tree} {fault : Option Fault} :
    readRecord fields state budget (.array elements fault) = .ok result ↔
      ∃ inner, budget = inner + 1 ∧ fault = none ∧
        readPositions inner state fields elements = .ok result := by
  cases budget with
  | zero => simp [readRecord]
  | succ inner => cases fault <;> simp [readRecord, bind_eq_ok_iff]

theorem readRecord_object_eq_ok_iff {members : List Member} {fault : Option Fault} :
    readRecord fields state budget (.object members fault) = .ok result ↔
      ∃ inner, budget = inner + 1 ∧ fault = none ∧
        readMembers inner fields [] state members = .ok result := by
  cases budget with
  | zero => simp [readRecord]
  | succ inner => cases fault <;> simp [readRecord, bind_eq_ok_iff]

end Members

/-! ## The fields of a record -/

section Records

variable {names : List String} {name : String}

/-- A record gives a tree for a field: it is the only member of this name, or the element at the
field's place. -/
inductive Gives (names : List String) (name : String) : Tree → Tree → Prop
  | member {before after : List Member} {part : Tree} {fault : Option Fault}
      (only : .ok name ∉ (before ++ after).map Prod.fst) :
      Gives names name (.object (before ++ (.ok name, part) :: after) fault) part
  | element {elements : List Tree} {part : Tree} {fault : Option Fault} {place : Nat}
      (named : names[place]? = some name) (found : elements[place]? = some part) :
      Gives names name (.array elements fault) part

/-- A record does not give a tree for a field. -/
inductive Lacks (names : List String) (name : String) : Tree → Prop
  | members {members : List Member} {fault : Option Fault}
      (absent : .ok name ∉ members.map Prod.fst) : Lacks names name (.object members fault)
  | elements {elements : List Tree} {fault : Option Fault} {place : Nat}
      (named : names[place]? = some name) (short : elements.length ≤ place) :
      Lacks names name (.array elements fault)

variable {before after : List (Field σ)} {field : Field σ} {state result : σ} {view : σ → β}

/-- What a field says about the state, if no other field of the record says anything about it. -/
def Untouched (view : σ → β) (fields : List (Field σ)) : Prop :=
  ∀ field ∈ fields, ∀ budget tree state next,
    field.read budget tree state = .ok next → view next = view state

/-- A field that sets its part of the state leaves the other parts as they are. -/
theorem untouched_of_set {read : (budget : Nat) → (tree : Tree) → Except Category α}
    {set : α → σ → σ} {name : String} (kept : ∀ value state, view (set value state) = view state) :
    Untouched view
      [⟨name, fun budget tree state => do return set (← read budget tree) state⟩] := by
  intro field single budget tree state next reads
  rw [List.mem_singleton.mp single] at reads
  obtain ⟨value, -, same⟩ := bind_eq_ok_iff.mp reads
  cases same
  exact kept value state

/-- What reading a record finds for a field: nothing, or what the field makes of a tree. -/
def Finds (field : Field σ) (budget : Nat) (view : σ → β) (lacks : Prop) (gives : Tree → Prop)
    (state result : σ) : Prop :=
  (lacks ∧ view result = view state) ∨
    ∃ part first next, gives part ∧ field.read budget part first = .ok next ∧ view result = view next

theorem readPositions_untouched {fields : List (Field σ)} (untouched : Untouched view fields)
    {elements : List Tree} (reads : readPositions budget state fields elements = .ok result) :
    view result = view state := by
  induction fields generalizing state elements with
  | nil =>
      cases elements with
      | nil =>
          cases reads
          rfl
      | cons element rest => cases reads
  | cons first others ih =>
      cases elements with
      | nil =>
          cases reads
          rfl
      | cons element rest =>
          obtain ⟨head, tail⟩ := List.forall_mem_cons.mp untouched
          rw [readPositions] at reads
          obtain ⟨next, read, rest⟩ := bind_eq_ok_iff.mp reads
          exact (ih tail rest).trans (head _ _ _ _ read)

theorem readPositions_field (untouched : Untouched view (before ++ after)) {elements : List Tree}
    (reads : readPositions budget state (before ++ field :: after) elements = .ok result) :
    Finds field budget view (elements.length ≤ before.length)
      (fun part => elements[before.length]? = some part) state result := by
  induction before generalizing state elements with
  | nil =>
      cases elements with
      | nil =>
          cases reads
          exact .inl ⟨Nat.le_refl _, rfl⟩
      | cons element rest =>
          rw [List.nil_append, readPositions] at reads
          obtain ⟨next, read, rest⟩ := bind_eq_ok_iff.mp reads
          exact .inr ⟨element, state, next, rfl, read, readPositions_untouched untouched rest⟩
  | cons other before ih =>
      cases elements with
      | nil =>
          cases reads
          exact .inl ⟨Nat.zero_le _, rfl⟩
      | cons element rest =>
          obtain ⟨head, tail⟩ := List.forall_mem_cons.mp untouched
          rw [List.cons_append, readPositions] at reads
          obtain ⟨next, read, rest⟩ := bind_eq_ok_iff.mp reads
          have kept := head _ _ _ _ read
          rcases ih tail rest with ⟨short, same⟩ | ⟨part, first, last, found, read, same⟩
          · exact .inl ⟨Nat.succ_le_succ short, same.trans kept⟩
          · exact .inr ⟨part, first, last, found, read, same⟩

theorem find?_field (fresh : ∀ other ∈ before ++ after, other.name ≠ field.name) :
    (before ++ field :: after).find? (·.name == field.name) = some field := by
  rw [List.find?_append, List.find?_eq_none.mpr]
  · simp
  · intro other among
    simpa using fresh other (List.mem_append_left _ among)

theorem mem_of_find?_ne {key : String} {other : Field σ} (different : key ≠ field.name)
    (found : (before ++ field :: after).find? (·.name == key) = some other) :
    other ∈ before ++ after := by
  have named : other.name = key := by simpa using List.find?_some found
  have among := List.mem_of_find?_eq_some found
  rw [List.mem_append, List.mem_cons] at among
  rcases among with among | rfl | among
  · exact List.mem_append_left _ among
  · exact absurd named.symm different
  · exact List.mem_append_right _ among

/-- After a field has been read, no other member has its name. -/
theorem readMembers_seen (fresh : ∀ other ∈ before ++ after, other.name ≠ field.name)
    (untouched : Untouched view (before ++ after)) {members : List Member} {seen : List String}
    (known : field.name ∈ seen)
    (reads : readMembers budget (before ++ field :: after) seen state members = .ok result) :
    .ok field.name ∉ members.map Prod.fst ∧ view result = view state := by
  induction members generalizing seen state with
  | nil =>
      cases reads
      exact ⟨nofun, rfl⟩
  | cons member rest ih =>
      obtain ⟨key, keyed, found⟩ := readMembers_cons_eq_ok_iff.mp reads
      have different : key ≠ field.name := by
        rintro rfl
        rcases found with ⟨unknown, -⟩ | ⟨_, _, -, unseen, -⟩
        · cases (find?_field fresh).symm.trans unknown
        · exact unseen known
      have other : (.ok field.name : Except Category String) ≠ member.1 := by
        rw [keyed]
        exact fun same => different (Except.ok.inj same).symm
      rcases found with ⟨-, -, reads⟩ | ⟨second, next, found, -, read, reads⟩
      · obtain ⟨absent, same⟩ := ih known reads
        exact ⟨List.not_mem_cons_of_ne_of_not_mem other absent, same⟩
      · have kept := untouched second (mem_of_find?_ne different found) _ _ _ _ read
        obtain ⟨absent, same⟩ := ih (List.mem_cons_of_mem _ known) reads
        exact ⟨List.not_mem_cons_of_ne_of_not_mem other absent, same.trans kept⟩

theorem readMembers_field (fresh : ∀ other ∈ before ++ after, other.name ≠ field.name)
    (untouched : Untouched view (before ++ after)) {members : List Member} {seen : List String}
    (reads : readMembers budget (before ++ field :: after) seen state members = .ok result) :
    Finds field budget view (.ok field.name ∉ members.map Prod.fst)
      (fun part => ∃ earlier later, members = earlier ++ (.ok field.name, part) :: later ∧
        .ok field.name ∉ (earlier ++ later).map Prod.fst) state result := by
  induction members generalizing seen state with
  | nil =>
      cases reads
      exact .inl ⟨nofun, rfl⟩
  | cons member rest ih =>
      obtain ⟨key, keyed, found⟩ := readMembers_cons_eq_ok_iff.mp reads
      -- What is found among the others is found if this member is for another field.
      have further {next : σ} (other : (.ok field.name : Except Category String) ≠ member.1)
          (kept : view next = view state)
          (finds : Finds field budget view (.ok field.name ∉ rest.map Prod.fst)
            (fun part => ∃ earlier later, rest = earlier ++ (.ok field.name, part) :: later ∧
              .ok field.name ∉ (earlier ++ later).map Prod.fst) next result) :
          Finds field budget view (.ok field.name ∉ (member :: rest).map Prod.fst)
            (fun part => ∃ earlier later, member :: rest = earlier ++ (.ok field.name, part) :: later ∧
              .ok field.name ∉ (earlier ++ later).map Prod.fst) state result := by
        rcases finds with ⟨absent, same⟩ | ⟨part, first, last, ⟨earlier, later, rfl, only⟩, read, same⟩
        · exact .inl ⟨List.not_mem_cons_of_ne_of_not_mem other absent, same.trans kept⟩
        · exact .inr ⟨part, first, last, ⟨member :: earlier, later, rfl,
            List.not_mem_cons_of_ne_of_not_mem other only⟩, read, same⟩
      by_cases this : key = field.name
      · subst this
        rcases found with ⟨unknown, -⟩ | ⟨second, next, found, -, read, reads⟩
        · cases (find?_field fresh).symm.trans unknown
        · cases (find?_field fresh).symm.trans found
          obtain ⟨absent, same⟩ := readMembers_seen fresh untouched (List.mem_cons_self ..) reads
          refine .inr ⟨member.2, state, next, ⟨[], rest, ?_, absent⟩, read, same⟩
          rw [← keyed]
          rfl
      · have other : (.ok field.name : Except Category String) ≠ member.1 := by
          rw [keyed]
          exact fun same => this (Except.ok.inj same).symm
        rcases found with ⟨-, -, reads⟩ | ⟨second, next, found, -, read, reads⟩
        · exact further other rfl (ih reads)
        · have kept := untouched second (mem_of_find?_ne this found) _ _ _ _ read
          exact further other kept (ih reads)

/-- What a record says about a field is what the field makes of the tree that the record gives
for it, if the names of the fields are distinct and no other field says anything about it. -/
theorem readRecord_field {fields : List (Field σ)} (member : field ∈ fields)
    (distinct : (fields.map Field.name).Nodup)
    (others : ∀ other ∈ fields, other.name ≠ field.name → Untouched view [other])
    (reads : readRecord fields state budget tree = .ok result) :
    ∃ inner, budget = inner + 1 ∧ Finds field inner view
      (tree.Lacks (fields.map Field.name) field.name) (tree.Gives (fields.map Field.name) field.name)
      state result := by
  obtain ⟨before, after, rfl⟩ := List.append_of_mem member
  have fresh : ∀ other ∈ before ++ after, other.name ≠ field.name := by
    intro other among same
    rw [List.map_append, List.map_cons, List.nodup_middle, List.nodup_cons, ← List.map_append] at distinct
    exact distinct.1 (same ▸ List.mem_map_of_mem among)
  have untouched : Untouched view (before ++ after) := by
    intro other among
    have inside : other ∈ before ++ field :: after := by
      simp only [List.mem_append, List.mem_cons] at among ⊢
      exact among.imp_right .inr
    exact others other inside (fresh other among) other (List.mem_singleton_self other)
  have named : ((before ++ field :: after).map Field.name)[before.length]? = some field.name := by
    simp
  cases tree with
  | array elements fault =>
      obtain ⟨inner, rfl, -, reads⟩ := readRecord_array_eq_ok_iff.mp reads
      refine ⟨inner, rfl, ?_⟩
      rcases readPositions_field untouched reads with ⟨short, same⟩ | ⟨part, first, next, found, rest⟩
      · exact .inl ⟨.elements named short, same⟩
      · exact .inr ⟨part, first, next, .element named found, rest⟩
  | object members fault =>
      obtain ⟨inner, rfl, -, reads⟩ := readRecord_object_eq_ok_iff.mp reads
      refine ⟨inner, rfl, ?_⟩
      rcases readMembers_field fresh untouched reads with
        ⟨absent, same⟩ | ⟨part, first, next, ⟨earlier, later, rfl, only⟩, rest⟩
      · exact .inl ⟨.members absent, same⟩
      · exact .inr ⟨part, first, next, .member only, rest⟩
  | _ => cases budget <;> cases reads

/-- A record of one field is read as what the field makes of a tree, if there is one. -/
theorem readRecord_singleton (reads : readRecord [field] state budget tree = .ok result) :
    (tree.Lacks [field.name] field.name ∧ result = state) ∨
      ∃ part inner first, tree.Gives [field.name] field.name part ∧
        field.read inner part first = .ok result := by
  have others : ∀ other ∈ [field], other.name ≠ field.name → Untouched id [other] := by
    intro other among different
    exact absurd (congrArg Field.name (List.mem_singleton.mp among)) different
  obtain ⟨inner, -, ⟨lacks, same⟩ | ⟨part, first, next, gives, read, same⟩⟩ :=
    readRecord_field (List.mem_singleton_self field) (List.pairwise_singleton ..) others reads
  · exact .inl ⟨lacks, same⟩
  · cases same
    exact .inr ⟨part, inner, first, gives, read⟩

end Records

end SceneForge.Json.Tree
