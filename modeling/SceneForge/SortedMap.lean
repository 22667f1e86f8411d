/-!
# Sorted maps

A finite map as the list of its entries in increasing order of keys. The list is
determined by the map, so maps with the same entries are equal (`ext_get?`), and
what is iterated or written comes out in the order of the keys.
-/

namespace SceneForge

/-- A finite map. -/
structure SortedMap (α β : Type) [Ord α] where
  entries : List (α × β)
  sorted : entries.Pairwise fun a b => compare a.1 b.1 = .lt

namespace SortedMap

variable {α β : Type} [Ord α]

/-- The value of the first entry with a key. -/
def lookup (key : α) : (entries : List (α × β)) → Option β
  | [] => none
  | entry :: rest => if compare key entry.1 = .eq then some entry.2 else lookup key rest

/-- Puts an entry at its place in a sorted list; an entry with the same key is
replaced. -/
def insertEntry (key : α) (value : β) : (entries : List (α × β)) → List (α × β)
  | [] => [(key, value)]
  | entry :: rest =>
      match compare key entry.1 with
      | .lt => (key, value) :: entry :: rest
      | .eq => (key, value) :: rest
      | .gt => entry :: insertEntry key value rest

theorem mem_insertEntry {key : α} {value : β} {entry : α × β} {entries : List (α × β)}
    (h : entry ∈ insertEntry key value entries) : entry = (key, value) ∨ entry ∈ entries := by
  induction entries with
  | nil => simpa [insertEntry] using h
  | cons first rest ih =>
      rw [insertEntry] at h
      split at h <;> simp only [List.mem_cons] at h ⊢
      · exact h
      · exact h.imp_right .inr
      · rcases h with h | h
        · exact .inr (.inl h)
        · exact (ih h).imp_right .inr

section Ordered

variable [Std.TransOrd α] [Std.LawfulEqOrd α]

theorem sorted_insertEntry {key : α} {value : β} {entries : List (α × β)}
    (h : entries.Pairwise fun a b => compare a.1 b.1 = .lt) :
    (insertEntry key value entries).Pairwise fun a b => compare a.1 b.1 = .lt := by
  induction entries with
  | nil => simp [insertEntry]
  | cons first rest ih =>
      obtain ⟨hfirst, hrest⟩ := List.pairwise_cons.mp h
      rw [insertEntry]
      split
      · rename_i hlt
        refine List.pairwise_cons.mpr ⟨fun entry hentry => ?_, h⟩
        rcases List.mem_cons.mp hentry with rfl | hentry
        · exact hlt
        · exact Std.TransCmp.lt_trans hlt (hfirst entry hentry)
      · rename_i heq
        have heq := Std.LawfulEqOrd.eq_of_compare heq
        subst heq
        exact List.pairwise_cons.mpr ⟨hfirst, hrest⟩
      · rename_i hgt
        refine List.pairwise_cons.mpr ⟨fun entry hentry => ?_, ih hrest⟩
        rcases mem_insertEntry hentry with rfl | hentry
        · exact Std.OrientedCmp.lt_of_gt hgt
        · exact hfirst entry hentry

/-- The map without entries. -/
def empty : SortedMap α β := ⟨[], .nil⟩

instance : EmptyCollection (SortedMap α β) := ⟨empty⟩

instance : Inhabited (SortedMap α β) := ⟨empty⟩

/-- The value of a key. -/
def get? (map : SortedMap α β) (key : α) : Option β := lookup key map.entries

/-- Whether a key has a value. -/
def contains (map : SortedMap α β) (key : α) : Bool := (map.get? key).isSome

/-- Sets the value of a key. -/
def insert (map : SortedMap α β) (key : α) (value : β) : SortedMap α β :=
  ⟨insertEntry key value map.entries, sorted_insertEntry map.sorted⟩

/-- Keeps the entries whose keys satisfy a condition. -/
def filterKeys (map : SortedMap α β) (keep : α → Bool) : SortedMap α β :=
  ⟨map.entries.filter fun entry => keep entry.1, map.sorted.filter _⟩

/-- Removes a key. -/
def erase (map : SortedMap α β) (key : α) : SortedMap α β :=
  map.filterKeys fun other => compare key other != .eq

/-- The number of entries. -/
def size (map : SortedMap α β) : Nat := map.entries.length

/-- The map with the entries of a list; of several values of a key the last
counts. -/
def ofList (entries : List (α × β)) : SortedMap α β :=
  entries.foldl (fun map entry => map.insert entry.1 entry.2) empty

/-- The keys, in increasing order. -/
def keys (map : SortedMap α β) : List α := map.entries.map (·.1)

omit [Std.TransOrd α] in
theorem mem_of_lookup_eq_some {key : α} {value : β} {entries : List (α × β)}
    (h : lookup key entries = some value) : (key, value) ∈ entries := by
  induction entries with
  | nil => cases h
  | cons first rest ih =>
      rw [lookup] at h
      split at h
      · rename_i heq
        have heq := Std.LawfulEqOrd.eq_of_compare heq
        cases h
        exact heq ▸ List.mem_cons_self
      · exact List.mem_cons_of_mem _ (ih h)

omit [Std.TransOrd α] in
theorem lookup_insertEntry [DecidableEq α] (key other : α) (value : β) (entries : List (α × β)) :
    lookup other (insertEntry key value entries) =
      if other = key then some value else lookup other entries := by
  induction entries with
  | nil => simp [insertEntry, lookup]
  | cons first rest ih =>
      rw [insertEntry]
      split
      · simp [lookup]
      · rename_i heq
        have heq := Std.LawfulEqOrd.eq_of_compare heq
        by_cases hkey : other = key <;> simp [lookup, hkey, ← heq]
      · rename_i hgt
        by_cases hkey : other = key
        · subst hkey
          simp [lookup, hgt, ih]
        · simp [lookup, ih, hkey]

/-- Setting a key changes the value of this key only. -/
theorem get?_insert [DecidableEq α] (map : SortedMap α β) (key other : α) (value : β) :
    (map.insert key value).get? other = if other = key then some value else map.get? other :=
  lookup_insertEntry key other value map.entries

@[simp] theorem get?_insert_self (map : SortedMap α β) (key : α) (value : β) :
    (map.insert key value).get? key = some value := by
  classical simp [get?_insert]

theorem get?_insert_of_ne (map : SortedMap α β) {key other : α} (value : β) (h : other ≠ key) :
    (map.insert key value).get? other = map.get? other := by
  classical simp [get?_insert, h]

omit [Std.TransOrd α] [Std.LawfulEqOrd α] in
@[simp] theorem get?_empty (key : α) : (empty : SortedMap α β).get? key = none := rfl

omit [Std.TransOrd α] in
/-- Filtering by keys keeps the values of the keys that stay. -/
theorem get?_filterKeys (map : SortedMap α β) (keep : α → Bool) (key : α) :
    (map.filterKeys keep).get? key = if keep key then map.get? key else none := by
  simp only [get?, filterKeys]
  induction map.entries with
  | nil => simp [lookup]
  | cons first rest ih =>
      rw [List.filter_cons]
      by_cases hkey : key = first.1
      · subst hkey
        cases hkeep : keep first.1 <;> simp_all [lookup]
      · cases hfirst : keep first.1 <;> simp_all [lookup]

omit [Std.TransOrd α] in
/-- Removing a key changes the value of this key only. -/
theorem get?_erase [DecidableEq α] (map : SortedMap α β) (key other : α) :
    (map.erase key).get? other = if other = key then none else map.get? other := by
  rw [erase, get?_filterKeys]
  by_cases h : other = key
  · simp [h]
  · have hcompare : compare key other ≠ .eq := fun heq => h (Std.LawfulEqOrd.eq_of_compare heq).symm
    simp [h, hcompare]

omit [Std.TransOrd α] [Std.LawfulEqOrd α] in
/-- In a sorted list, the keys of later entries are not found among the first. -/
theorem lookup_eq_none_of_lt {key : α} {entries : List (α × β)}
    (h : ∀ entry ∈ entries, compare key entry.1 = .lt) : lookup key entries = none := by
  induction entries with
  | nil => rfl
  | cons first rest ih =>
      rw [lookup, h first (List.mem_cons_self ..)]
      exact ih fun entry hentry => h entry (List.mem_cons_of_mem _ hentry)

theorem entries_eq_of_lookup {left right : List (α × β)}
    (hleft : left.Pairwise fun a b => compare a.1 b.1 = .lt)
    (hright : right.Pairwise fun a b => compare a.1 b.1 = .lt)
    (h : ∀ key, lookup key left = lookup key right) : left = right := by
  induction left generalizing right with
  | nil =>
      cases right with
      | nil => rfl
      | cons second others => simpa [lookup] using h second.1
  | cons first rest ih =>
      obtain ⟨hfirst, hrest⟩ := List.pairwise_cons.mp hleft
      cases right with
      | nil => simpa [lookup] using h first.1
      | cons second others =>
          obtain ⟨hsecond, hothers⟩ := List.pairwise_cons.mp hright
          have hkeys : first.1 = second.1 := by
            cases hcompare : compare first.1 second.1 with
            | eq => exact Std.LawfulEqOrd.eq_of_compare hcompare
            | lt =>
                have hnone : lookup first.1 others = none := lookup_eq_none_of_lt fun entry hentry =>
                  Std.TransCmp.lt_trans hcompare (hsecond entry hentry)
                simpa [lookup, hcompare, hnone] using h first.1
            | gt =>
                have hless := Std.OrientedCmp.lt_of_gt hcompare
                have hnone : lookup second.1 rest = none := lookup_eq_none_of_lt fun entry hentry =>
                  Std.TransCmp.lt_trans hless (hfirst entry hentry)
                simpa [lookup, hless, hnone] using h second.1
          have hvalues : first.2 = second.2 := by simpa [lookup, hkeys] using h first.1
          have hheads : first = second := Prod.ext hkeys hvalues
          subst hheads
          congr 1
          refine ih hrest hothers fun key => ?_
          by_cases hkey : key = first.1
          · subst hkey
            rw [lookup_eq_none_of_lt hfirst, lookup_eq_none_of_lt hsecond]
          · simpa [lookup, hkey] using h key

/-- The entries are the keys with their values. -/
theorem get?_eq_some_iff {map : SortedMap α β} {key : α} {value : β} :
    map.get? key = some value ↔ (key, value) ∈ map.entries := by
  constructor
  · exact mem_of_lookup_eq_some
  · intro h
    obtain ⟨entries, sorted⟩ := map
    simp only [get?] at h ⊢
    induction entries with
    | nil => cases h
    | cons first rest ih =>
        obtain ⟨hfirst, hrest⟩ := List.pairwise_cons.mp sorted
        rcases List.mem_cons.mp h with rfl | h
        · simp [lookup]
        · have hgt := Std.OrientedCmp.gt_of_lt (hfirst _ h)
          rw [lookup, hgt]
          exact ih hrest h

/-- What a map made from a list holds is in the list. -/
theorem mem_of_get?_ofList {entries : List (α × β)} {key : α} {value : β}
    (h : (ofList entries).get? key = some value) : (key, value) ∈ entries := by
  classical
  have holds (map : SortedMap α β) (entries : List (α × β))
      (h : (entries.foldl (fun map entry => map.insert entry.1 entry.2) map).get? key = some value) :
      map.get? key = some value ∨ (key, value) ∈ entries := by
    induction entries generalizing map with
    | nil => exact .inl h
    | cons first rest ih =>
        rcases ih _ h with h | h
        · rw [get?_insert] at h
          split at h
          · rename_i hkey
            cases h
            exact .inr (hkey ▸ List.mem_cons_self)
          · exact .inl h
        · exact .inr (List.mem_cons_of_mem _ h)
  rcases holds empty entries h with h | h
  · cases h
  · exact h

/-- Entries in the order of their keys replace no other when they are set one after the
other. -/
theorem get?_foldl_insert {entries : List (α × β)}
    (sorted : entries.Pairwise fun a b => compare a.1 b.1 = .lt) (map : SortedMap α β) (key : α) :
    (entries.foldl (fun map entry => map.insert entry.1 entry.2) map).get? key =
      (lookup key entries).or (map.get? key) := by
  classical
  induction entries generalizing map with
  | nil => rfl
  | cons first rest ih =>
      obtain ⟨below, sorted⟩ := List.pairwise_cons.mp sorted
      rw [List.foldl_cons, ih sorted, get?_insert, lookup]
      by_cases same : key = first.1
      · rw [same, lookup_eq_none_of_lt below]
        simp
      · simp [same]

/-- Setting a key without a value makes one entry more. -/
theorem size_insert_of_none {map : SortedMap α β} {key : α} (value : β)
    (absent : map.get? key = none) : (map.insert key value).size = map.size + 1 := by
  obtain ⟨entries, sorted⟩ := map
  simp only [size, insert, get?] at absent ⊢
  clear sorted
  induction entries with
  | nil => rfl
  | cons first rest ih =>
      rw [insertEntry]
      split
      next => rfl
      next same => simp [lookup, same] at absent
      next greater =>
        rw [lookup, if_neg (by simp [greater])] at absent
        rw [List.length_cons, ih absent, List.length_cons]

/-- Setting a key that has a value makes no further entry. -/
theorem size_insert_of_some {map : SortedMap α β} {key : α} {previous : β} (value : β)
    (found : map.get? key = some previous) : (map.insert key value).size = map.size := by
  obtain ⟨entries, sorted⟩ := map
  simp only [size, insert, get?] at found ⊢
  induction entries with
  | nil => cases found
  | cons first rest ih =>
      obtain ⟨below, sorted⟩ := List.pairwise_cons.mp sorted
      rw [insertEntry]
      split
      next less =>
        have absent : lookup key rest = none := lookup_eq_none_of_lt fun entry member =>
          Std.TransCmp.lt_trans less (below entry member)
        simp [lookup, less, absent] at found
      next => rfl
      next greater =>
        rw [lookup, if_neg (by simp [greater])] at found
        rw [List.length_cons, ih sorted found, List.length_cons]

/-- The entries before one are those with lesser keys. -/
theorem mem_before_iff {map : SortedMap α β} {key : α} {value : β} {before after : List (α × β)}
    (split : map.entries = before ++ (key, value) :: after) {entry : α × β} :
    entry ∈ before ↔ entry ∈ map.entries ∧ compare entry.1 key = .lt := by
  have sorted := map.sorted
  rw [split, List.pairwise_append, List.pairwise_cons] at sorted
  obtain ⟨-, ⟨above, -⟩, below⟩ := sorted
  rw [split, List.mem_append, List.mem_cons]
  constructor
  · exact fun member => ⟨.inl member, below entry member (key, value) (List.mem_cons_self ..)⟩
  · rintro ⟨member | rfl | member, less⟩
    · exact member
    · simp at less
    · exact absurd less (by simp [Std.OrientedCmp.gt_of_lt (above entry member)])

/-- Maps with the same values are equal. -/
theorem ext_get? {left right : SortedMap α β} (h : ∀ key, left.get? key = right.get? key) :
    left = right := by
  cases left
  cases right
  congr 1
  exact entries_eq_of_lookup ‹_› ‹_› h

/-- A map is made again of its entries. -/
theorem ofList_entries (map : SortedMap α β) : ofList map.entries = map := by
  apply ext_get?
  intro key
  rw [ofList, get?_foldl_insert map.sorted, get?_empty, Option.or_none]
  rfl

end Ordered

end SortedMap

end SceneForge
