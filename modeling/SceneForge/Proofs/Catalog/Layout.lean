import SceneForge.Catalog.Reading
import SceneForge.Compile.Compiler
import SceneForge.Proofs.Json.Reordering

/-!
# The layout of a catalog's text

The order in which a text lists assets, the fields of an asset and the properties it declares
does not matter. Five objects are inside one another in such a text: the root, the assets, an
asset, its properties and a declaration; what is below a declaration is a value, whose members
stay where they are. Each reader is indifferent to the order of members at its own depth because
the ones that it calls are indifferent one below.
-/

namespace SceneForge.Catalog

open Json (Category Tree)

/-! ## Readers -/

theorem indifferent_declaration : Tree.Indifferent id 1 Declaration.read := by
  refine Tree.Indifferent.bind_id (Tree.indifferent_readRecord ?_ ?_) _
  · exact List.pairwise_pair.mpr (Tree.independent_of_set fun _ _ _ => rfl)
  · exact List.forall_mem_cons.mpr
      ⟨Tree.settled_of_set (Tree.indifferent_zero id _) (by rintro _ _ _ _ rfl rfl; rfl),
        List.forall_mem_singleton.mpr
          (Tree.settled_of_set (Tree.indifferent_zero id _) (by rintro _ _ _ _ rfl rfl; rfl))⟩

theorem independent_assetFields : SourceAsset.fields.Pairwise Tree.Independent := by
  simp only [SourceAsset.fields, List.pairwise_cons, List.forall_mem_cons]
  exact ⟨⟨Tree.independent_of_set fun _ _ _ => rfl, Tree.independent_of_set fun _ _ _ => rfl, nofun⟩,
    ⟨Tree.independent_of_set fun _ _ _ => rfl, nofun⟩, nofun, .nil⟩

/-- What an asset declares is kept in the order of names. -/
theorem settled_assetFields : ∀ field ∈ SourceAsset.fields, Tree.Settled id 2 field := by
  simp only [SourceAsset.fields, List.forall_mem_cons]
  refine ⟨Tree.settled_of_set (Tree.indifferent_readOption (Tree.indifferent_readWord id)) ?_,
    Tree.settled_of_set (Tree.indifferent_readOption (Tree.indifferent_readString id)) ?_,
    Tree.settled_of_set (Tree.indifferent_readMap indifferent_declaration) ?_, nofun⟩
  · rintro value same state other sameValue rfl
    obtain rfl : same = value := by simpa using sameValue
    rfl
  · rintro value same state other sameValue rfl
    obtain rfl : same = value := by simpa using sameValue
    rfl
  · rintro declared others state other same rfl
    exact congrArg (SourceAsset.mk _ _) same

theorem indifferent_asset : Tree.Indifferent id 3 SourceAsset.read :=
  Tree.indifferent_readRecord independent_assetFields settled_assetFields

/-- The field for the assets; what is repeated counts where it stands last. -/
def assetsField : Tree.Field (Option (List (String × SourceAsset))) :=
  ⟨"Assets", fun budget tree _ => some <$> Tree.readMap SourceAsset.read budget tree⟩

/-- The assets that are listed in a tree. -/
def assetsIn (budget : Nat) (tree : Tree) : Except Category (SortedMap String SourceAsset) := do
  match ← Tree.readRecord [assetsField] none budget tree with
  | some assets => return .ofList assets
  | none => throw .mismatch

theorem settled_assetsField : Tree.Settled (Option.map SortedMap.ofList) 4 assetsField := by
  have settled : Tree.Settled (Option.map SortedMap.ofList) 4
      ⟨"Assets", fun budget tree _ => do return some (← Tree.readMap SourceAsset.read budget tree)⟩ :=
    Tree.settled_of_set (Tree.indifferent_readMap indifferent_asset)
      fun _ _ _ _ same _ => congrArg some same
  simpa only [assetsField, bind_pure_comp] using settled

theorem indifferent_assetsIn : Tree.Indifferent id 5 assetsIn := by
  have record : Tree.Indifferent (Option.map SortedMap.ofList) 5 (Tree.readRecord [assetsField] none) :=
    Tree.indifferent_readRecord (List.pairwise_singleton ..)
      (List.forall_mem_singleton.mpr settled_assetsField)
  refine record.bind ?_
  rintro (_ | assets) (_ | others) same
  · rfl
  · cases same
  · cases same
  · exact congrArg Except.ok (Option.some.inj same)

section Layout

variable {first second : String} {tree other : Tree}

theorem readAssets_of_spelled (spelled : tree.Spelled first) :
    readAssets first = assetsIn Tree.nestingLimit tree := by
  rw [readAssets, spelled.read]
  change Except.bind (assetsIn Tree.nestingLimit tree) _ = _
  cases assetsIn Tree.nestingLimit tree <;> rfl

/-- The assets that a text lists do not depend on the order in which it lists them. -/
theorem readAssets_reordered {assets : SortedMap String SourceAsset} (spelled : tree.Spelled first)
    (spelledToo : other.Spelled second) (reordered : tree.Reordered 5 other)
    (listed : readAssets first = .ok assets) : readAssets second = .ok assets := by
  rw [readAssets_of_spelled spelled] at listed
  obtain ⟨_, listedToo, rfl⟩ := indifferent_assetsIn reordered listed
  rw [readAssets_of_spelled spelledToo, listedToo]
  rfl

end Layout

/-! ## Catalogs -/

/-- Catalogs that cannot be told apart by what compiling asks of them. -/
structure Agrees (catalog other : Catalog) : Prop where
  size : catalog.size = other.size
  resolve : ∀ reference, catalog.resolve? reference = other.resolve? reference
  declared : ∀ id, catalog.declared? id = other.declared? id

section Agreement

variable {catalog other : Catalog}

theorem Agrees.refl (catalog : Catalog) : catalog.Agrees catalog := ⟨rfl, fun _ => rfl, fun _ => rfl⟩

theorem Agrees.context (agrees : catalog.Agrees other) {σ : Type} :
    (catalog.context : AssetContext σ) = other.context := by
  have resolves : catalog.resolve = other.resolve := funext fun reference => by
    rw [Catalog.resolve, Catalog.resolve, agrees.resolve]
  rw [Catalog.context, Catalog.context, resolves, funext agrees.declared]

/-- Every document compiles to the same buffer or fails with the same error. -/
theorem Agrees.buffer (agrees : catalog.Agrees other) (config : Config) (compressor : Compressor)
    (source : String) : (⟨config, catalog, compressor⟩ : Compiler).buffer source =
      (⟨config, other, compressor⟩ : Compiler).buffer source := by
  rw [Compiler.buffer, Compiler.buffer, agrees.context]

theorem Agrees.artifact (agrees : catalog.Agrees other) (config : Config) (compressor : Compressor)
    (source : String) : (⟨config, catalog, compressor⟩ : Compiler).artifact source =
      (⟨config, other, compressor⟩ : Compiler).artifact source := by
  rw [Compiler.artifact, Compiler.artifact, agrees.buffer]

end Agreement

/-- Two texts that differ only in the order in which they list assets, the fields of assets and
declared properties are both rejected with the same error or both accepted, with catalogs that
agree, so that every document compiles to the same against both. -/
theorem read_reordered {first second : String} {tree other : Tree} (spelled : tree.Spelled first)
    (spelledToo : other.Spelled second) (reordered : tree.Reordered 5 other)
    (shaped : (readAssets first).isOk) :
    (∃ error, read first = .error error ∧ read second = .error error) ∨
      ∃ catalog same, read first = .ok catalog ∧ read second = .ok same ∧ catalog.Agrees same ∧
        ∀ config compressor source,
          (⟨config, catalog, compressor⟩ : Compiler).buffer source =
              (⟨config, same, compressor⟩ : Compiler).buffer source ∧
            (⟨config, catalog, compressor⟩ : Compiler).artifact source =
              (⟨config, same, compressor⟩ : Compiler).artifact source := by
  obtain ⟨assets, listed⟩ := exists_of_isOk shaped
  have listedToo := readAssets_reordered spelled spelledToo reordered listed
  have equal : read second = read first := by rw [read, read, listed, listedToo]
  rw [equal]
  cases read first with
  | error error => exact .inl ⟨error, rfl, rfl⟩
  | ok catalog =>
      have agrees := Agrees.refl catalog
      exact .inr ⟨catalog, catalog, rfl, rfl, agrees, fun config compressor source =>
        ⟨agrees.buffer config compressor source, agrees.artifact config compressor source⟩⟩

/-- A member that declares a number. -/
def numberMember (name : String) (value : Int) : Tree.Member :=
  (.ok name, .array [.string (.ok "INTEGER"), .number (.ok (.integer value))] none)

/-- Two assets, the first of which has an identifier and declares two numbers. -/
def listing : Tree :=
  .object [(.ok "Assets", .object
    [(.ok "a", .object
      [(.ok "Id", .number (.ok (.integer 1))),
        (.ok "Properties", .object [numberMember "p" 1, numberMember "q" 2] none)] none),
      (.ok "b", .object [] none)] none)] none

/-- The same assets with the members of all objects in the opposite order. -/
def rearranged : Tree :=
  .object [(.ok "Assets", .object
    [(.ok "b", .object [] none),
      (.ok "a", .object
        [(.ok "Properties", .object [numberMember "q" 2, numberMember "p" 1] none),
          (.ok "Id", .number (.ok (.integer 1)))] none)] none)] none

theorem reordered_listing : listing.Reordered 5 rearranged := by
  refine .member (.trans (.members (.swap ..) (by simp) none) ?_) (.ok "Assets") [] [] none
  refine .member (.trans (.members (.swap ..) (by simp) none) ?_) (.ok "a") [_] [] none
  exact .member (.members (.swap ..) (by simp [numberMember]) none) (.ok "Properties") [] [_] none

/-- A text of the assets. -/
def listingText : String :=
  "\x7b\"Assets\":\x7b\"a\":\x7b\"Id\":1,\"Properties\":\x7b\"p\":[\"INTEGER\",1],\"q\":[\"INTEGER\",2]\x7d\x7d,\"b\":\x7b\x7d\x7d\x7d"

/-- A text of the assets in the opposite order. -/
def rearrangedText : String :=
  "\x7b\"Assets\":\x7b\"b\":\x7b\x7d,\"a\":\x7b\"Properties\":\x7b\"q\":[\"INTEGER\",2],\"p\":[\"INTEGER\",1]\x7d,\"Id\":1\x7d\x7d\x7d"

theorem spelled_listing : listing.Spelled listingText := by
  refine (Tree.read_eq_iff (Tree.whole_of_value (rfl : (listing.value 5).isOk))).mp ?_
  unfold listingText
  rfl

theorem spelled_rearranged : rearranged.Spelled rearrangedText := by
  refine (Tree.read_eq_iff (Tree.whole_of_value (rfl : (rearranged.value 5).isOk))).mp ?_
  unfold rearrangedText
  rfl

/-- Nothing changes if assets, fields and properties are listed in the opposite order. -/
theorem read_reordered_listing :
    listing.Spelled listingText ∧ rearranged.Spelled rearrangedText ∧
      listing.Reordered 5 rearranged ∧ (readAssets listingText).isOk ∧
      ∃ catalog same, read listingText = .ok catalog ∧ read rearrangedText = .ok same ∧
        catalog.Agrees same := by
  have shaped : (readAssets listingText).isOk := by decide +kernel
  have accepted : (read listingText).isOk := by decide +kernel
  refine ⟨spelled_listing, spelled_rearranged, reordered_listing, shaped, ?_⟩
  rcases read_reordered spelled_listing spelled_rearranged reordered_listing shaped with
    ⟨error, failed, -⟩ | ⟨catalog, same, read, readToo, agrees, -⟩
  · rw [failed] at accepted
    cases accepted
  · exact ⟨catalog, same, read, readToo, agrees⟩

end SceneForge.Catalog
