import Mathlib.Data.List.Perm.Basic
import SceneForge.Proofs.Json.Readers
import SceneForge.SortedMap

/-!
# The order of members

Which readers do not care in which order the members of objects stand. Trees that differ only in
the order of members, down to some depth, are connected by single rearrangements (`Reordered`).
A map whose keys are sorted forgets the order, and so does a record whose fields set different
parts of its state, if the readers of their parts do.
-/

namespace SceneForge.Json.Tree

variable {α β γ σ : Type}

/-- Trees that differ only in the order of members of objects, in at most `depth` containers
inside one another. The keys of an object whose members change places are distinct. -/
inductive Reordered : (depth : Nat) → Tree → Tree → Prop
  | refl {depth : Nat} (tree : Tree) : Reordered depth tree tree
  | trans {depth : Nat} {tree other last : Tree} (first : Reordered depth tree other)
      (second : Reordered depth other last) : Reordered depth tree last
  | element {depth : Nat} {element other : Tree} (inside : Reordered depth element other)
      (before after : List Tree) (fault : Option Fault) :
      Reordered (depth + 1) (.array (before ++ element :: after) fault)
        (.array (before ++ other :: after) fault)
  | member {depth : Nat} {value other : Tree} (inside : Reordered depth value other)
      (key : Except Category String) (before after : List Member) (fault : Option Fault) :
      Reordered (depth + 1) (.object (before ++ (key, value) :: after) fault)
        (.object (before ++ (key, other) :: after) fault)
  | members {depth : Nat} {members others : List Member} (permuted : members.Perm others)
      (distinct : (members.map Prod.fst).Nodup) (fault : Option Fault) :
      Reordered (depth + 1) (.object members fault) (.object others fault)

/-- A reader that succeeds on every rearrangement of a tree that it can read, with a result of
which `view` is the same. -/
def Indifferent (view : α → β) (depth : Nat)
    (read : (budget : Nat) → (tree : Tree) → Except Category α) : Prop :=
  ∀ ⦃tree other : Tree⦄ ⦃budget : Nat⦄ ⦃result : α⦄, Reordered depth tree other →
    read budget tree = .ok result →
      ∃ second, read budget other = .ok second ∧ view second = view result

section Readers

variable {view : α → β} {depth : Nat} {read : (budget : Nat) → (tree : Tree) → Except Category α}

/-- It is enough to look at single rearrangements. -/
theorem Indifferent.of_steps
    (element : ∀ {element other : Tree} {before after : List Tree} {fault : Option Fault}
      {budget : Nat} {result : α}, Reordered depth element other →
      read budget (.array (before ++ element :: after) fault) = .ok result →
        ∃ second, read budget (.array (before ++ other :: after) fault) = .ok second ∧
          view second = view result)
    (member : ∀ {value other : Tree} {key : Except Category String} {before after : List Member}
      {fault : Option Fault} {budget : Nat} {result : α}, Reordered depth value other →
      read budget (.object (before ++ (key, value) :: after) fault) = .ok result →
        ∃ second, read budget (.object (before ++ (key, other) :: after) fault) = .ok second ∧
          view second = view result)
    (members : ∀ {members others : List Member} {fault : Option Fault} {budget : Nat} {result : α},
      members.Perm others → (members.map Prod.fst).Nodup →
      read budget (.object members fault) = .ok result →
        ∃ second, read budget (.object others fault) = .ok second ∧ view second = view result) :
    Indifferent view (depth + 1) read := by
  intro tree other budget result reordered reads
  generalize same : depth + 1 = steps at reordered
  induction reordered generalizing result with
  | refl => exact ⟨result, reads, rfl⟩
  | trans _ _ ih ih' =>
      obtain ⟨between, readBetween, sameView⟩ := ih reads same
      obtain ⟨last, readLast, sameViewToo⟩ := ih' readBetween same
      exact ⟨last, readLast, sameViewToo.trans sameView⟩
  | element inside before after fault =>
      cases same
      exact element inside reads
  | member inside key before after fault =>
      cases same
      exact member inside reads
  | members permuted distinct fault => exact members permuted distinct reads

/-- Nothing changes its place in no containers. -/
theorem eq_of_reordered {tree other : Tree} (reordered : Reordered 0 tree other) : other = tree := by
  generalize same : 0 = steps at reordered
  induction reordered with
  | refl => rfl
  | trans _ _ ih ih' => exact (ih' same).trans (ih same)
  | element | member | members => cases same

theorem indifferent_zero (view : α → β)
    (read : (budget : Nat) → (tree : Tree) → Except Category α) : Indifferent view 0 read := by
  intro tree other budget result reordered reads
  rw [eq_of_reordered reordered]
  exact ⟨result, reads, rfl⟩

/-- A tree that is no container has no rearrangement. -/
theorem eq_of_reordered_scalar {tree other : Tree} (reordered : Reordered depth tree other)
    (scalar : tree.depth = 0) : other = tree := by
  induction reordered with
  | refl => rfl
  | trans _ _ ih ih' =>
      have same := ih scalar
      exact (ih' (same ▸ scalar)).trans same
  | element | member | members => cases scalar

theorem indifferent_of_scalar (view : α → β)
    (scalar : ∀ {budget tree result}, read budget tree = .ok result → tree.depth = 0) :
    Indifferent view depth read := by
  intro tree other budget result reordered reads
  rw [eq_of_reordered_scalar reordered (scalar reads)]
  exact ⟨result, reads, rfl⟩

theorem indifferent_readString (view : String → β) : Indifferent view depth readString := by
  refine indifferent_of_scalar view fun {budget tree result} reads => ?_
  cases tree with
  | array | object => cases reads
  | _ => rfl

theorem indifferent_readWord (view : UInt32 → β) : Indifferent view depth readWord := by
  refine indifferent_of_scalar view fun {budget tree result} reads => ?_
  cases tree with
  | array | object => cases reads
  | _ => rfl

theorem eq_null_of_reordered {tree : Tree} (reordered : Reordered depth tree .null) :
    tree = .null := by
  generalize same : Tree.null = other at reordered
  induction reordered with
  | refl => rfl
  | trans _ _ ih ih' =>
      have last := ih' same
      exact (ih (same.trans last.symm)).trans last
  | element | member | members => cases same

theorem indifferent_readOption (indifferent : Indifferent view depth read) :
    Indifferent (Option.map view) depth (readOption read) := by
  intro tree other budget result reordered reads
  rcases readOption_eq_ok_iff.mp reads with ⟨rfl, rfl⟩ | ⟨not_null, value, rfl, valueRead⟩
  · rw [eq_of_reordered_scalar reordered rfl]
    exact ⟨none, rfl, rfl⟩
  · obtain ⟨second, readToo, same⟩ := indifferent reordered valueRead
    refine ⟨some second, readOption_eq_ok_iff.mpr (.inr ⟨?_, second, rfl, readToo⟩), congrArg some same⟩
    rintro rfl
    exact not_null (eq_null_of_reordered reordered)

/-- What is made of a result may depend on no more than what is the same of all results. -/
theorem Indifferent.bind (indifferent : Indifferent view depth read) {next : α → Except Category γ}
    (agree : ∀ result same, view same = view result → next same = next result) :
    Indifferent id depth fun budget tree => read budget tree >>= next := by
  intro tree other budget result reordered reads
  obtain ⟨first, firstRead, reads⟩ := bind_eq_ok_iff.mp reads
  obtain ⟨second, readToo, same⟩ := indifferent reordered firstRead
  exact ⟨result, bind_eq_ok_iff.mpr ⟨second, readToo, (agree first second same).trans reads⟩, rfl⟩

theorem Indifferent.bind_id (indifferent : Indifferent id depth read) (next : α → Except Category γ) :
    Indifferent id depth fun budget tree => read budget tree >>= next :=
  indifferent.bind fun _ _ same => congrArg next same

end Readers

/-! ## Maps -/

section Maps

theorem insert_comm (map : SortedMap String α) {key other : String} (different : key ≠ other)
    (value second : α) :
    (map.insert key value).insert other second = (map.insert other second).insert key value := by
  apply SortedMap.ext_get?
  intro found
  simp only [SortedMap.get?_insert]
  by_cases first : found = key
  · simp [first, different]
  · simp [first]

/-- A map does not depend on the order in which distinct keys are set. -/
theorem ofList_perm {entries others : List (String × α)} (permuted : entries.Perm others)
    (distinct : (entries.map Prod.fst).Nodup) : SortedMap.ofList entries = SortedMap.ofList others := by
  refine permuted.foldl_eq' (fun entry among other amongToo map => ?_) _
  by_cases same : entry = other
  · rw [same]
  · exact insert_comm map (fun sameKey => same (List.inj_on_of_nodup_map distinct among amongToo sameKey)) ..

variable {depth : Nat} {read : (budget : Nat) → (tree : Tree) → Except Category α}

theorem forall₂_replace {related : α → β → Prop} {element other : α} {before after : List α}
    {images : List β} (same : ∀ image, related element image → related other image)
    (all : List.Forall₂ related (before ++ element :: after) images) :
    List.Forall₂ related (before ++ other :: after) images := by
  induction before generalizing images with
  | nil =>
      cases all with
      | cons first rest => exact .cons (same _ first) rest
  | cons _ _ ih =>
      cases all with
      | cons first rest => exact .cons first (ih rest)

/-- The keys of a map that is read are those of the members. -/
theorem keys_of_forall₂ {members : List Member} {entries : List (String × α)}
    (all : List.Forall₂ (fun member entry => member.1 = .ok entry.1) members entries) :
    members.map Prod.fst = (entries.map Prod.fst).map .ok := by
  induction all with
  | nil => rfl
  | cons first _ ih => rw [List.map_cons, List.map_cons, List.map_cons, ih, first]

theorem indifferent_readMap (indifferent : Indifferent id depth read) :
    Indifferent SortedMap.ofList (depth + 1) (readMap read) := by
  refine .of_steps ?_ ?_ ?_
  · intro element other before after fault budget result _ reads
    obtain ⟨_, _, -, impossible, -⟩ := readMap_eq_ok_iff.mp reads
    cases impossible
  · intro value other key before after fault budget result inside reads
    obtain ⟨inner, members, rfl, same, all⟩ := readMap_eq_ok_iff.mp reads
    cases same
    refine ⟨result, readMap_eq_ok_iff.mpr ⟨inner, _, rfl, rfl, ?_⟩, rfl⟩
    have replaced (entry : String × α) (gives : key = .ok entry.1 ∧ read inner value = .ok entry.2) :
        key = .ok entry.1 ∧ read inner other = .ok entry.2 := by
      obtain ⟨second, readToo, same⟩ := indifferent inside gives.2
      cases same
      exact ⟨gives.1, readToo⟩
    exact forall₂_replace replaced all
  · intro members others fault budget result permuted distinct reads
    obtain ⟨inner, _, rfl, same, all⟩ := readMap_eq_ok_iff.mp reads
    cases same
    obtain ⟨entries, allToo, permutedToo⟩ := List.perm_comp_forall₂ permuted.symm all
    refine ⟨entries, readMap_eq_ok_iff.mpr ⟨inner, others, rfl, rfl, allToo⟩, ?_⟩
    have keys := (permuted.map Prod.fst).nodup_iff.mp distinct
    rw [keys_of_forall₂ (allToo.imp fun _ _ both => both.1)] at keys
    exact ofList_perm permutedToo (keys.of_map _)

end Maps

/-! ## What is skipped -/

section Skipping

theorem skipElements_eq_ok_iff {elements : List Tree} :
    skipElements elements = .ok () ↔ ∀ element ∈ elements, element.skip = .ok () := by
  induction elements with
  | nil => simp [skipElements]
  | cons element rest ih =>
      rw [skipElements, bind_eq_ok_iff, List.forall_mem_cons, ih]
      exact ⟨fun ⟨_, both⟩ => both, fun both => ⟨(), both⟩⟩

theorem skipMembers_eq_ok_iff {members : List Member} :
    skipMembers members = .ok () ↔ ∀ member ∈ members, member.2.skip = .ok () := by
  induction members with
  | nil => simp [skipMembers]
  | cons member rest ih =>
      rw [skipMembers, bind_eq_ok_iff, List.forall_mem_cons, ih]
      exact ⟨fun ⟨_, both⟩ => both, fun both => ⟨(), both⟩⟩

/-- What can be skipped can be skipped in any order. -/
theorem Reordered.skip_eq_ok {depth : Nat} {tree other : Tree} (reordered : Reordered depth tree other)
    (skipped : tree.skip = .ok ()) : other.skip = .ok () := by
  induction reordered with
  | refl => exact skipped
  | trans _ _ ih ih' => exact ih' (ih skipped)
  | element inside before after fault ih =>
      rw [skip, bind_eq_ok_iff] at skipped ⊢
      obtain ⟨_, all, ending⟩ := skipped
      refine ⟨(), skipElements_eq_ok_iff.mpr ?_, ending⟩
      have all := skipElements_eq_ok_iff.mp all
      simp only [List.forall_mem_append, List.forall_mem_cons] at all ⊢
      exact ⟨all.1, ih all.2.1, all.2.2⟩
  | member inside key before after fault ih =>
      rw [skip, bind_eq_ok_iff] at skipped ⊢
      obtain ⟨_, all, ending⟩ := skipped
      refine ⟨(), skipMembers_eq_ok_iff.mpr ?_, ending⟩
      have all := skipMembers_eq_ok_iff.mp all
      simp only [List.forall_mem_append, List.forall_mem_cons] at all ⊢
      exact ⟨all.1, ih all.2.1, all.2.2⟩
  | members permuted distinct fault =>
      rw [skip, bind_eq_ok_iff] at skipped ⊢
      obtain ⟨_, all, ending⟩ := skipped
      refine ⟨(), skipMembers_eq_ok_iff.mpr fun member among => ?_, ending⟩
      exact skipMembers_eq_ok_iff.mp all member (permuted.mem_iff.mpr among)

end Skipping

/-! ## Records -/

section Records

variable {view : σ → γ} {depth budget : Nat} {fields : List (Field σ)} {state result : σ}
  {seen : List String}

/-- Fields that can be read in either order. -/
def Independent (first second : Field σ) : Prop :=
  ∀ budget tree other state result,
    (first.read budget tree state >>= second.read budget other) = .ok result ↔
      (second.read budget other state >>= first.read budget tree) = .ok result

/-- A field that makes the same of every rearrangement of a tree, as far as `view` sees the state. -/
def Settled (view : σ → γ) (depth : Nat) (field : Field σ) : Prop :=
  ∀ ⦃tree other : Tree⦄ ⦃budget : Nat⦄ ⦃state same next : σ⦄, Reordered depth tree other →
    view same = view state → field.read budget tree state = .ok next →
      ∃ second, field.read budget other same = .ok second ∧ view second = view next

instance : Std.Symm (Independent (σ := σ)) where
  symm _ _ independent budget tree other state result :=
    (independent budget other tree state result).symm

theorem readMembers_congr_seen {other : List String} (same : ∀ key, key ∈ seen ↔ key ∈ other)
    (members : List Member) :
    readMembers budget fields seen state members = readMembers budget fields other state members := by
  induction members generalizing seen other state with
  | nil => rfl
  | cons member rest ih =>
      rw [readMembers, readMembers]
      refine bind_congr_of_ok fun key _ => ?_
      have known : seen.contains key = other.contains key := by
        rw [Bool.eq_iff_iff, List.contains_iff_mem, List.contains_iff_mem, same]
      cases fields.find? (·.name == key) with
      | none => exact bind_congr_of_ok fun _ _ => ih same
      | some field =>
          dsimp only
          rw [known]
          split
          next => rfl
          next =>
            refine bind_congr_of_ok fun next _ => ih fun found => ?_
            rw [List.mem_cons, List.mem_cons, same]

/-- Two members of distinct names may be read in either order. -/
theorem readMembers_swap (independent : fields.Pairwise Independent) {first second : Member}
    {rest : List Member} (differ : second.1 ≠ first.1)
    (reads : readMembers budget fields seen state (first :: second :: rest) = .ok result) :
    readMembers budget fields seen state (second :: first :: rest) = .ok result := by
  obtain ⟨key, keyed, found⟩ := readMembers_cons_eq_ok_iff.mp reads
  rcases found with ⟨unknown, skipped, reads⟩ | ⟨field, next, known, fresh, read, reads⟩
  · obtain ⟨other, keyedToo, found⟩ := readMembers_cons_eq_ok_iff.mp reads
    refine readMembers_cons_eq_ok_iff.mpr ⟨other, keyedToo, ?_⟩
    rcases found with ⟨unknownToo, skippedToo, reads⟩ | ⟨field, next, known, fresh, read, reads⟩
    · exact .inl ⟨unknownToo, skippedToo,
        readMembers_cons_eq_ok_iff.mpr ⟨key, keyed, .inl ⟨unknown, skipped, reads⟩⟩⟩
    · exact .inr ⟨field, next, known, fresh, read,
        readMembers_cons_eq_ok_iff.mpr ⟨key, keyed, .inl ⟨unknown, skipped, reads⟩⟩⟩
  · obtain ⟨other, keyedToo, found⟩ := readMembers_cons_eq_ok_iff.mp reads
    refine readMembers_cons_eq_ok_iff.mpr ⟨other, keyedToo, ?_⟩
    rcases found with ⟨unknown, skipped, reads⟩ | ⟨fieldToo, last, knownToo, freshToo, readToo, reads⟩
    · exact .inl ⟨unknown, skipped,
        readMembers_cons_eq_ok_iff.mpr ⟨key, keyed, .inr ⟨field, next, known, fresh, read, reads⟩⟩⟩
    -- Both are given to fields, which are different ones because their names are.
    · have different : key ≠ other := by
        rintro rfl
        exact differ (keyedToo.trans keyed.symm)
      have named : field.name = key := by simpa using List.find?_some known
      have namedToo : fieldToo.name = other := by simpa using List.find?_some knownToo
      have apart : Independent field fieldToo :=
        independent.forall (List.mem_of_find?_eq_some known) (List.mem_of_find?_eq_some knownToo)
          fun same => different (named.symm.trans ((congrArg Field.name same).trans namedToo))
      obtain ⟨between, readFirst, readSecond⟩ := bind_eq_ok_iff.mp
        ((apart budget first.2 second.2 state last).mp (bind_eq_ok_iff.mpr ⟨next, read, readToo⟩))
      refine .inr ⟨fieldToo, between, knownToo, fun among => freshToo (List.mem_cons_of_mem _ among),
        readFirst, readMembers_cons_eq_ok_iff.mpr ⟨key, keyed, .inr ⟨field, last, known, ?_,
          readSecond, ?_⟩⟩⟩
      · exact List.not_mem_cons_of_ne_of_not_mem different fresh
      · rw [← reads]
        exact readMembers_congr_seen (fun found => by simp only [List.mem_cons, or_left_comm]) rest

/-- Members of distinct names may be read in any order. -/
theorem readMembers_perm (independent : fields.Pairwise Independent) {members others : List Member}
    (permuted : members.Perm others) (distinct : (members.map Prod.fst).Nodup)
    (reads : readMembers budget fields seen state members = .ok result) :
    readMembers budget fields seen state others = .ok result := by
  induction permuted generalizing seen state with
  | nil => exact reads
  | cons member _ ih =>
      obtain ⟨-, distinct⟩ := List.nodup_cons.mp distinct
      obtain ⟨key, keyed, found⟩ := readMembers_cons_eq_ok_iff.mp reads
      refine readMembers_cons_eq_ok_iff.mpr ⟨key, keyed, ?_⟩
      rcases found with ⟨unknown, skipped, reads⟩ | ⟨field, next, known, fresh, read, reads⟩
      · exact .inl ⟨unknown, skipped, ih distinct reads⟩
      · exact .inr ⟨field, next, known, fresh, read, ih distinct reads⟩
  | swap second first rest =>
      refine readMembers_swap independent (fun same => ?_) reads
      simp [same] at distinct
  | trans first _ ih ih' =>
      exact ih' ((first.map Prod.fst).nodup_iff.mp distinct) (ih distinct reads)

/-! ## Reading records -/

theorem forall₂_middle {related : α → α → Prop} (refl : ∀ element, related element element)
    {element other : α} (middle : related element other) {before after : List α} :
    List.Forall₂ related (before ++ element :: after) (before ++ other :: after) :=
  List.rel_append (List.forall₂_same.mpr fun element _ => refl element)
    (.cons middle (List.forall₂_same.mpr fun element _ => refl element))

/-- Elements that are rearranged one by one are read as the same, as far as `view` sees the state. -/
theorem readPositions_reordered (settled : ∀ field ∈ fields, Settled view depth field)
    {elements others : List Tree} (inside : List.Forall₂ (Reordered depth) elements others)
    {same : σ} (agree : view same = view state)
    (reads : readPositions budget state fields elements = .ok result) :
    ∃ second, readPositions budget same fields others = .ok second ∧ view second = view result := by
  induction inside generalizing fields state same with
  | nil =>
      cases fields <;> cases reads <;> exact ⟨same, rfl, agree⟩
  | cons first _ ih =>
      cases fields with
      | nil => cases reads
      | cons field fields =>
          obtain ⟨head, tail⟩ := List.forall_mem_cons.mp settled
          rw [readPositions] at reads
          obtain ⟨next, read, reads⟩ := bind_eq_ok_iff.mp reads
          obtain ⟨between, readToo, agree⟩ := head first agree read
          obtain ⟨second, readsToo, agree⟩ := ih tail agree reads
          exact ⟨second, bind_eq_ok_iff.mpr ⟨between, readToo, readsToo⟩, agree⟩

/-- So are members whose values are. -/
theorem readMembers_reordered (settled : ∀ field ∈ fields, Settled view depth field)
    {members others : List Member}
    (inside : List.Forall₂ (fun member other => member.1 = other.1 ∧ Reordered depth member.2 other.2)
      members others) {same : σ} (agree : view same = view state)
    (reads : readMembers budget fields seen state members = .ok result) :
    ∃ second, readMembers budget fields seen same others = .ok second ∧
      view second = view result := by
  induction inside generalizing seen state same with
  | nil =>
      cases reads
      exact ⟨same, rfl, agree⟩
  | cons first _ ih =>
      obtain ⟨key, keyed, ⟨unknown, skipped, reads⟩ | ⟨field, next, known, fresh, read, reads⟩⟩ :=
        readMembers_cons_eq_ok_iff.mp reads
      · obtain ⟨second, readsToo, agree⟩ := ih agree reads
        exact ⟨second, readMembers_cons_eq_ok_iff.mpr ⟨key, first.1 ▸ keyed,
          .inl ⟨unknown, first.2.skip_eq_ok skipped, readsToo⟩⟩, agree⟩
      · obtain ⟨between, readToo, agree⟩ :=
          settled field (List.mem_of_find?_eq_some known) first.2 agree read
        obtain ⟨second, readsToo, agree⟩ := ih agree reads
        exact ⟨second, readMembers_cons_eq_ok_iff.mpr ⟨key, first.1 ▸ keyed,
          .inr ⟨field, between, known, fresh, readToo, readsToo⟩⟩, agree⟩

/-- A record of independent fields does not depend on the order of members if its fields do not. -/
theorem indifferent_readRecord (independent : fields.Pairwise Independent)
    (settled : ∀ field ∈ fields, Settled view depth field) :
    Indifferent view (depth + 1) (readRecord fields state) := by
  refine .of_steps ?_ ?_ ?_
  · intro element other before after fault budget result inside reads
    obtain ⟨inner, rfl, whole, reads⟩ := readRecord_array_eq_ok_iff.mp reads
    obtain ⟨second, readsToo, agree⟩ :=
      readPositions_reordered settled (forall₂_middle .refl inside) rfl reads
    exact ⟨second, readRecord_array_eq_ok_iff.mpr ⟨inner, rfl, whole, readsToo⟩, agree⟩
  · intro value other key before after fault budget result inside reads
    obtain ⟨inner, rfl, whole, reads⟩ := readRecord_object_eq_ok_iff.mp reads
    have rearranged : List.Forall₂
        (fun member other : Member => member.1 = other.1 ∧ Reordered depth member.2 other.2)
        (before ++ (key, value) :: after) (before ++ (key, other) :: after) :=
      forall₂_middle (fun member => ⟨rfl, .refl member.2⟩) ⟨rfl, inside⟩
    obtain ⟨second, readsToo, agree⟩ := readMembers_reordered settled rearranged rfl reads
    exact ⟨second, readRecord_object_eq_ok_iff.mpr ⟨inner, rfl, whole, readsToo⟩, agree⟩
  · intro members others fault budget result permuted distinct reads
    obtain ⟨inner, rfl, whole, reads⟩ := readRecord_object_eq_ok_iff.mp reads
    exact ⟨result, readRecord_object_eq_ok_iff.mpr ⟨inner, rfl, whole,
      readMembers_perm independent permuted distinct reads⟩, rfl⟩

variable {read : (budget : Nat) → (tree : Tree) → Except Category α}
  {second : (budget : Nat) → (tree : Tree) → Except Category β} {set : α → σ → σ} {change : β → σ → σ}
  {name other : String}

/-- A field that sets its part of the state to what an indifferent reader makes of a tree. -/
theorem settled_of_set {part : α → β} (indifferent : Indifferent part depth read)
    (agree : ∀ value same state other, part same = part value → view other = view state →
      view (set same other) = view (set value state)) :
    Settled view depth
      ⟨name, fun budget tree state => do return set (← read budget tree) state⟩ := by
  intro tree rearranged budget state same next reordered sameView reads
  obtain ⟨value, valueRead, set⟩ := bind_eq_ok_iff.mp reads
  cases set
  obtain ⟨again, readToo, samePart⟩ := indifferent reordered valueRead
  exact ⟨_, bind_eq_ok_iff.mpr ⟨again, readToo, rfl⟩, agree _ _ _ _ samePart sameView⟩

/-- Fields that set different parts of the state. -/
theorem independent_of_set
    (comm : ∀ value part state, change part (set value state) = set value (change part state)) :
    Independent ⟨name, fun budget tree state => do return set (← read budget tree) state⟩
      ⟨other, fun budget tree state => do return change (← second budget tree) state⟩ := by
  intro budget tree rearranged state result
  cases first : read budget tree <;> cases last : second budget rearranged <;>
    simp [bind, Except.bind, pure, Except.pure, first, last, comm]

end Records

end SceneForge.Json.Tree
