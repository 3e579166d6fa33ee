import Graft.Proofs.Json.Rearranged
import Graft.Proofs.Tree.Growth

/-!
# Which trees a copy of their leaves reproduces

A copy is built from leaves and their paths alone, so the kind of each node below the root is
guessed from the first key that leads on from it. The guess goes wrong where the first name of an
object spells a position: there the copy has an array. Every tree without such objects is copied as
it is, in the order of its members, and no other tree is, up to the order of members. What comes of
any copying has no such objects.
-/

namespace Graft.Json

/-- Whether a node is an object whose first name spells a position. -/
def startsLikeArray : Json → Bool
  | .object ((name, _) :: _) => (arrayIndex? name).isSome
  | _ => false

/-- No object below the root starts like an array. -/
def Reproducible (root : Json) : Prop :=
  ∀ path node, path ≠ [] → root.get? path = some node → node.startsLikeArray = false

theorem reproducible_iff_child? {root : Json} :
    root.Reproducible ↔ ∀ key child, root.child? key = some child →
      child.startsLikeArray = false ∧ child.Reproducible := by
  constructor
  · intro reproducible key child isChild
    constructor
    · apply reproducible [key] child (by simp)
      rw [get?_cons, isChild]
      rfl
    · intro path node _ leads
      apply reproducible (key :: path) node (by simp)
      rw [get?_cons, isChild]
      exact leads
  · intro children path node nonempty leads
    rcases path with _ | ⟨key, path⟩
    · exact absurd rfl nonempty
    · rw [get?_cons] at leads
      rcases Option.bind_eq_some_iff.mp leads with ⟨child, isChild, leadsOn⟩
      rcases children key child isChild with ⟨clear, reproducible⟩
      rcases path with _ | ⟨next, path⟩
      · cases leadsOn
        exact clear
      · exact reproducible (next :: path) node (by simp) leadsOn

theorem Regular.reproducible_iff_entries {root : Json} (regular : root.Regular) :
    root.Reproducible ↔ ∀ entry ∈ root.entries,
      entry.2.startsLikeArray = false ∧ entry.2.Reproducible := by
  rw [reproducible_iff_child?]
  constructor
  · intro children entry inside
    exact children entry.1 entry.2 (regular.child?_eq_some_iff.mpr inside)
  · intro each key child isChild
    exact each (key, child) (mem_entries_of_child? isChild)

theorem startsLikeArray_of_isArray {node : Json} (isArray : node.isArray) :
    node.startsLikeArray = false := by
  cases node with
  | array items => rfl
  | object members => cases isArray
  | null => rfl
  | bool value => rfl
  | number value => rfl
  | string text => rfl

/-- A node of the same kind with other entries. -/
def refill (node : Json) (entries : List (String × Json)) : Json :=
  match node with
  | .array _ => .array ⟨entries.map Prod.snd⟩
  | .object _ => .object entries
  | other => other

theorem refill_entries (node : Json) : node.refill node.entries = node := by
  cases node with
  | array items => simp [refill, entries]
  | object members => rfl
  | null => rfl
  | bool value => rfl
  | number value => rfl
  | string text => rfl

theorem mem_of_mem_entries_refill {node : Json} {entries : List (String × Json)} {key : String}
    {child : Json} (isChild : (node.refill entries).child? key = some child) :
    ∃ entry ∈ entries, entry.2 = child := by
  cases node with
  | array items =>
      rcases mem_itemEntries.mp (mem_entries_of_child? isChild) with ⟨position, found, _⟩
      exact List.mem_map.mp (List.mem_of_getElem? found)
  | object members => exact ⟨(key, child), mem_entries_of_child? isChild, rfl⟩
  | null => cases isChild
  | bool value => cases isChild
  | number value => cases isChild
  | string text => cases isChild

/-- Where the kind of a node is guessed, the node that is created for its first key can be grown by
all its entries, and it grows to a node of that kind. -/
theorem Regular.grows {node first : Json} {key : String} {others : List (String × Json)}
    (regular : node.Regular) (clear : node.startsLikeArray = false)
    (hasEntries : node.entries = (key, first) :: others) :
    (containerFor key).TakesAll node.entries ∧
      ∀ entries : List (String × Json),
        entries.foldl putLast (containerFor key) = node.refill entries := by
  cases regular with
  | scalar noContainer => simp [entries_of_isContainer_eq_false noContainer] at hasEntries
  | @array items fits each =>
      rcases items with _ | ⟨item, items⟩
      · cases hasEntries
      · rw [entries, itemEntries_cons] at hasEntries
        cases hasEntries
        have empty : containerFor (toString 0) = .array ⟨[]⟩ := by
          have spelled : arrayIndex? (toString 0) = some 0 := by decide
          rw [containerFor, spelled]
          rfl
        rw [empty]
        refine ⟨takesAll_array (by simpa using fits), ?_⟩
        intro entries
        rw [foldl_putLast_array]
        rfl
  | @object members distinct each =>
      rw [entries] at hasEntries
      subst hasEntries
      have spellsNone : (arrayIndex? key).isSome = false := clear
      have empty : containerFor key = .object [] := by
        simp [containerFor, spellsNone]
      rw [empty]
      refine ⟨takesAll_object distinct, ?_⟩
      intro entries
      rw [foldl_putLast_object]
      rfl

/-- A node whose kind is guessed is copied entry by entry. -/
theorem Regular.copyOf_eq_ok_iff {node copy : Json} {location : KeyPath} (regular : node.Regular)
    (clear : node.startsLikeArray = false) :
    copyOf location node = (copy, .ok ()) ↔
      (∀ entry ∈ node.entries, (copyOf (location.child entry.1) entry.2).2 = .ok ()) ∧
        copy = node.refill (node.entries.map (copyEntry location)) := by
  rcases hasEntries : node.entries with _ | ⟨⟨key, first⟩, others⟩
  · have unchanged := node.refill_entries
    rw [hasEntries] at unchanged
    rw [copyOf_of_entries_eq_nil hasEntries, List.map_nil, unchanged]
    simp [eq_comm]
  · rcases regular.grows clear hasEntries with ⟨takes, grown⟩
    rw [copyOf_of_entries_eq_cons hasEntries, relativeLeaves_eq_memberLeaves,
      storeAll_memberLeaves takes, grown, hasEntries]

/-- A node that is an object but starts like an array is copied to an array, whose items are padding
and copies of members. -/
theorem Regular.child?_of_copyOf {node copy : Json} {location : KeyPath} (regular : node.Regular)
    (misleads : node.startsLikeArray) (isCopy : copyOf location node = (copy, .ok ())) :
    copy.isArray ∧ ∀ key child, copy.child? key = some child → child = .null ∨
      ∃ entry ∈ node.entries, copyOf (location.child entry.1) entry.2 = (child, .ok ()) := by
  cases node with
  | object members =>
      rcases members with _ | ⟨⟨name, value⟩, members⟩
      · cases misleads
      · have spells : (arrayIndex? name).isSome := misleads
        have empty : containerFor name = .array #[] := by
          simp [containerFor, spells]
        have noChild : ∀ key, (Json.array #[]).child? key = none := child?_of_isLeaf rfl
        rw [copyOf_of_entries_eq_cons rfl, relativeLeaves_eq_memberLeaves, empty] at isCopy
        rcases child?_of_storeAll_memberLeaves regular.nodup_keys
          (fun entry _ => Or.inl (noChild entry.1)) isCopy with ⟨sameKind, children⟩
        refine ⟨sameKind, ?_⟩
        intro key child isChild
        rcases children key child isChild with isNull | impossible | isOther
        · exact Or.inl isNull
        · rw [noChild] at impossible
          cases impossible
        · exact Or.inr isOther
  | array items => cases misleads
  | null => cases misleads
  | bool value => cases misleads
  | number value => cases misleads
  | string text => cases misleads

theorem copyOf_eq_of_ok {location : KeyPath} {entry : String × Json}
    (success : (copyOf (location.child entry.1) entry.2).2 = .ok ()) :
    copyOf (location.child entry.1) entry.2 = ((copyEntry location entry).2, .ok ()) :=
  Prod.ext rfl success

theorem map_copyEntry_eq_self {location : KeyPath} {entries : List (String × Json)}
    (copies : ∀ entry ∈ entries,
      copyOf (location.child entry.1) entry.2 = (entry.2, .ok ())) :
    entries.map (copyEntry location) = entries := by
  calc
    entries.map (copyEntry location) = entries.map id := by
      apply List.map_congr_left
      intro entry inside
      rw [copyEntry, copies entry inside]
      rfl
    _ = entries := List.map_id _

theorem Regular.copyOf_eq_self {node : Json} (regular : node.Regular)
    (clear : node.startsLikeArray = false) (reproducible : node.Reproducible) (location : KeyPath) :
    copyOf location node = (node, .ok ()) := by
  induction regular using Regular.induction_entries generalizing location with
  | step node regular below =>
      have each := regular.reproducible_iff_entries.mp reproducible
      have copies : ∀ entry ∈ node.entries,
          copyOf (location.child entry.1) entry.2 = (entry.2, .ok ()) := by
        intro entry inside
        rcases each entry inside with ⟨entryClear, entryReproducible⟩
        exact below entry inside entryClear entryReproducible _
      apply (regular.copyOf_eq_ok_iff clear).mpr
      constructor
      · intro entry inside
        rw [copies entry inside]
      · rw [map_copyEntry_eq_self copies, refill_entries]

theorem startsLikeArray_refill (location : KeyPath) (node : Json) :
    (node.refill (node.entries.map (copyEntry location))).startsLikeArray =
      node.startsLikeArray := by
  cases node with
  | object members => cases members <;> rfl
  | array items => rfl
  | null => rfl
  | bool value => rfl
  | number value => rfl
  | string text => rfl

/-- Whatever is copied, the copy is one that is copied as it is. -/
theorem Regular.reproducible_of_copyOf {node copy : Json} {location : KeyPath}
    (regular : node.Regular) (isCopy : copyOf location node = (copy, .ok ())) :
    copy.startsLikeArray = false ∧ copy.Reproducible := by
  induction regular using Regular.induction_entries generalizing location copy with
  | step node regular below =>
      rcases clear : node.startsLikeArray with _ | _
      · rcases (regular.copyOf_eq_ok_iff clear).mp isCopy with ⟨success, isRefilled⟩
        subst isRefilled
        constructor
        · rw [startsLikeArray_refill, clear]
        · apply reproducible_iff_child?.mpr
          intro key child isChild
          rcases mem_of_mem_entries_refill isChild with ⟨copied, inside, rfl⟩
          rcases List.mem_map.mp inside with ⟨entry, isEntry, rfl⟩
          exact below entry isEntry (copyOf_eq_of_ok (success entry isEntry))
      · -- The guess goes wrong, and the copy is an array of padding and of copies.
        rcases regular.child?_of_copyOf clear isCopy with ⟨isArray, children⟩
        refine ⟨startsLikeArray_of_isArray isArray, reproducible_iff_child?.mpr ?_⟩
        intro key child isChild
        rcases children key child isChild with rfl | ⟨entry, inside, isOther⟩
        · exact ⟨rfl, reproducible_iff_child?.mpr fun _ _ impossible => nomatch impossible⟩
        · exact below entry inside isOther

theorem Regular.rearranged_entry {node : Json} {location : KeyPath} (regular : node.Regular)
    (rearranged : node.Rearranged (node.refill (node.entries.map (copyEntry location)))) :
    ∀ entry ∈ node.entries, entry.2.Rearranged (copyEntry location entry).2 := by
  rintro ⟨key, child⟩ inside
  cases regular with
  | scalar noContainer => simp [entries_of_isContainer_eq_false noContainer] at inside
  | @array items fits each =>
      rcases mem_itemEntries.mp inside with ⟨position, found, rfl⟩
      rw [Nat.zero_add]
      apply rearranged.item found
      simp [entries, itemEntries, found, copyEntry]
  | object distinct each =>
      exact rearranged.member distinct inside (List.mem_map_of_mem inside)

/-- Only what is reproduced is copied to a rearrangement of itself. -/
theorem Regular.reproducible_of_rearranged {node copy : Json} {location : KeyPath}
    (regular : node.Regular) (isCopy : copyOf location node = (copy, .ok ()))
    (rearranged : node.Rearranged copy) :
    node.startsLikeArray = false ∧ node.Reproducible := by
  induction regular using Regular.induction_entries generalizing location copy with
  | step node regular below =>
      rcases clear : node.startsLikeArray with _ | _
      · rcases (regular.copyOf_eq_ok_iff clear).mp isCopy with ⟨success, isRefilled⟩
        subst isRefilled
        refine ⟨rfl, regular.reproducible_iff_entries.mpr ?_⟩
        intro entry inside
        exact below entry inside (copyOf_eq_of_ok (success entry inside))
          (regular.rearranged_entry rearranged entry inside)
      · -- The guess goes wrong, but no array is a rearrangement of an object.
        rcases regular.child?_of_copyOf clear isCopy with ⟨isArray, _⟩
        rw [← rearranged.isArray_eq] at isArray
        rw [startsLikeArray_of_isArray isArray] at clear
        cases clear

end Graft.Json
