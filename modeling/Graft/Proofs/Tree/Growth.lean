import Graft.Proofs.Tree.Children
import Graft.Proofs.Tree.Entries
import Graft.Proofs.Tree.Store

/-!
# Storing one leaf after the other

A tree that is built from listed leaves grows by one store after the other. What is stored below one
child does the same to that child alone, so a node that is built from the leaves of its children has
a copy of each child, and copies are made from leaves in the same way, level by level.

A node can grow at its end: an object by a member of a new name, an array by the item at the next
position. Then the copies come in the order of the children.
-/

namespace Graft.Json

/-- Stores leaves one after the other, where nothing is vacated, until one cannot be stored. -/
def storeAll (location : KeyPath) : List (KeyPath × Json) → Json → Json × Except WriteError Unit
  | [], node => (node, .ok ())
  | leaf :: leaves, node =>
      match store (fun _ => false) leaf.2 location leaf.1 node with
      | (changed, .ok _) => storeAll location leaves changed
      | (changed, .error error) => (changed, .error error)

theorem storeAll_append (location : KeyPath) (first second : List (KeyPath × Json)) (node : Json) :
    storeAll location (first ++ second) node =
      match storeAll location first node with
      | (changed, .ok _) => storeAll location second changed
      | (changed, .error error) => (changed, .error error) := by
  induction first generalizing node with
  | nil => rfl
  | cons leaf first ih =>
      rw [List.cons_append, storeAll, storeAll]
      rcases store (fun _ => false) leaf.2 location leaf.1 node with ⟨changed, error | replaced⟩
      · rfl
      · exact ih changed

/-- What a child becomes that is created for its leaves and has them stored one after the other. A
child without entries is a leaf itself and is stored as it is. -/
def copyOf (location : KeyPath) (value : Json) : Json × Except WriteError Unit :=
  match value.entries with
  | [] => (value, .ok ())
  | (key, _) :: _ => storeAll location value.relativeLeaves (containerFor key)

theorem copyOf_of_entries_eq_nil {location : KeyPath} {value : Json}
    (noEntries : value.entries = []) : copyOf location value = (value, .ok ()) := by
  rw [copyOf, noEntries]

theorem copyOf_of_entries_eq_cons {location : KeyPath} {value first : Json} {key : String}
    {others : List (String × Json)} (hasEntries : value.entries = (key, first) :: others) :
    copyOf location value = storeAll location value.relativeLeaves (containerFor key) := by
  rw [copyOf, hasEntries]

theorem exists_childLeaves_eq_cons (key : String) : (child : Json) →
    ∃ rest value leaves, childLeaves key child = (key :: rest, value) :: leaves
  | .array ⟨[]⟩ => ⟨[], _, [], rfl⟩
  | .array ⟨item :: items⟩ => by
      rcases exists_childLeaves_eq_cons (toString 0) item with ⟨rest, value, leaves, first⟩
      rw [childLeaves, if_neg (by simp [isLeaf]), relativeLeaves, itemLeaves_cons, first]
      exact ⟨toString 0 :: rest, value, _, rfl⟩
  | .object [] => ⟨[], _, [], rfl⟩
  | .object ((name, value) :: members) => by
      rcases exists_childLeaves_eq_cons name value with ⟨rest, value, leaves, first⟩
      rw [childLeaves, if_neg (by simp [isLeaf]), relativeLeaves, memberLeaves_cons, first]
      exact ⟨name :: rest, value, _, rfl⟩
  | .null => ⟨[], _, [], rfl⟩
  | .bool _ => ⟨[], _, [], rfl⟩
  | .number _ => ⟨[], _, [], rfl⟩
  | .string _ => ⟨[], _, [], rfl⟩

/-- The first leaf below a node lies below its first child. -/
theorem exists_relativeLeaves_eq_cons {node first : Json} {key : String}
    {others : List (String × Json)} (hasEntries : node.entries = (key, first) :: others) :
    ∃ rest value leaves, node.relativeLeaves = (key :: rest, value) :: leaves := by
  rcases exists_childLeaves_eq_cons key first with ⟨rest, value, leaves, firstLeaves⟩
  rw [relativeLeaves_eq_memberLeaves, hasEntries, memberLeaves_cons, firstLeaves]
  exact ⟨rest, value, leaves ++ memberLeaves others, rfl⟩

theorem childLeaves_of_entries_eq_nil {key : String} {child : Json}
    (noEntries : child.entries = []) :
    childLeaves key child = [([key], child)] := by
  rw [childLeaves, if_pos (entries_eq_nil_iff.mp noEntries)]

theorem childLeaves_of_entries_eq_cons {key next : String} {child first : Json}
    {others : List (String × Json)} (hasEntries : child.entries = (next, first) :: others) :
    childLeaves key child = child.relativeLeaves.map fun leaf => (key :: leaf.1, leaf.2) := by
  have notLeaf : ¬child.isLeaf := by
    rw [← entries_eq_nil_iff, hasEntries]
    exact List.cons_ne_nil _ _
  rw [childLeaves, if_neg notLeaf]

/-- Puts one more child at the end of a node. -/
def putLast (node : Json) (entry : String × Json) : Json :=
  match node with
  | .object members => .object (members ++ [entry])
  | .array ⟨items⟩ => .array ⟨items ++ [entry.2]⟩
  | other => other

/-- Whether a key is one that a node can get a new last child under. -/
def TakesLast (node : Json) (key : String) : Prop :=
  match node with
  | .object members => key ∉ members.map Prod.fst
  | .array ⟨items⟩ => key = toString items.length ∧ items.length < UInt64.size
  | _ => False

theorem enterItem_length {α : Type} (created : Json) (change : Json → Json × α)
    (items : List Json) :
    enterItem items.length created change ⟨items⟩ =
      (⟨items ++ [(change created).1]⟩, (change created).2) := by
  simp [enterItem, changeItem]

theorem enterItem_append {α : Type} (created : Json) (change : Json → Json × α)
    (items : List Json) (child : Json) :
    enterItem items.length created change ⟨items ++ [child]⟩ =
      (⟨items ++ [(change child).1]⟩, (change child).2) := by
  simp only [enterItem, changeItem_append]

theorem enterMember_append {α : Type} {name : String} (created : Json)
    (change : Json → Json × α) {members : List (String × Json)}
    (missing : name ∉ members.map Prod.fst) (child : Json) :
    enterMember name created change (members ++ [(name, child)]) =
      (members ++ [(name, (change child).1)], (change child).2) := by
  induction members with
  | nil => simp [enterMember]
  | cons member members ih =>
      simp only [List.map_cons, List.mem_cons, not_or] at missing
      rcases missing with ⟨differs, notLater⟩
      simp [enterMember, Ne.symm differs, ih notLater]

variable {location : KeyPath} {key : String} {node : Json}

theorem store_putLast (takes : node.TakesLast key) (value : Json) (rest : KeyPath) :
    store (fun _ => false) value location (key :: rest) node =
      (node.putLast (key, (store (fun _ => false) value (location.child key) rest (fresh rest)).1),
        (store (fun _ => false) value (location.child key) rest (fresh rest)).2) := by
  cases node with
  | object members =>
      simp only [store, Bool.and_false, Bool.false_eq_true, if_false, putLast]
      rw [enterMember_of_not_mem _ _ takes]
  | array items =>
      rcases takes with ⟨rfl, fits⟩
      have near : ¬items.size + maxGap < items.toList.length := by
        simp only [Array.length_toList]
        omega
      simp only [store, arrayIndex?_eq_some_iff.mpr ⟨fits, rfl⟩, near, if_false, Bool.and_false,
        Bool.false_eq_true, putLast, enterItem_length _ _ items.toList]
  | null => cases takes
  | bool value => cases takes
  | number value => cases takes
  | string text => cases takes

theorem store_of_putLast (takes : node.TakesLast key) (child value : Json) (rest : KeyPath) :
    store (fun _ => false) value location (key :: rest) (node.putLast (key, child)) =
      (node.putLast (key, (store (fun _ => false) value (location.child key) rest child).1),
        (store (fun _ => false) value (location.child key) rest child).2) := by
  cases node with
  | object members =>
      simp only [store, Bool.and_false, Bool.false_eq_true, if_false, putLast]
      rw [enterMember_append _ _ takes]
  | array items =>
      rcases takes with ⟨rfl, fits⟩
      have near : ¬(items.toList ++ [child]).toArray.size + maxGap < items.toList.length := by
        simp only [List.size_toArray, List.length_append]
        omega
      simp only [store, arrayIndex?_eq_some_iff.mpr ⟨fits, rfl⟩, near, if_false, Bool.and_false,
        Bool.false_eq_true, putLast, enterItem_append]
  | null => cases takes
  | bool value => cases takes
  | number value => cases takes
  | string text => cases takes

theorem storeAll_putLast (takes : node.TakesLast key) (leaves : List (KeyPath × Json))
    (child : Json) :
    storeAll location (leaves.map fun leaf => (key :: leaf.1, leaf.2)) (node.putLast (key, child)) =
      (node.putLast (key, (storeAll (location.child key) leaves child).1),
        (storeAll (location.child key) leaves child).2) := by
  induction leaves generalizing child with
  | nil => rfl
  | cons leaf leaves ih =>
      rw [List.map_cons, storeAll, store_of_putLast takes, storeAll]
      rcases store (fun _ => false) leaf.2 (location.child key) leaf.1 child with
        ⟨changed, error | replaced⟩
      · rfl
      · exact ih changed

/-- The leaves of a new last child make a copy of the child there. -/
theorem storeAll_childLeaves (takes : node.TakesLast key) (child : Json) :
    storeAll location (childLeaves key child) node =
      (node.putLast (key, (copyOf (location.child key) child).1),
        (copyOf (location.child key) child).2) := by
  rcases hasEntries : child.entries with _ | ⟨⟨next, first⟩, others⟩
  · rw [childLeaves_of_entries_eq_nil hasEntries, copyOf_of_entries_eq_nil hasEntries, storeAll,
      store_putLast takes]
    rfl
  · rcases exists_relativeLeaves_eq_cons hasEntries with ⟨rest, value, leaves, isLeaves⟩
    rw [childLeaves_of_entries_eq_cons hasEntries, copyOf_of_entries_eq_cons hasEntries, isLeaves,
      List.map_cons, storeAll, store_putLast takes, fresh, storeAll]
    rcases store (fun _ => false) value (location.child key) (next :: rest) (containerFor next) with
      ⟨changed, error | replaced⟩
    · rfl
    · exact storeAll_putLast takes leaves changed

/-- Whether a node can get children at its end under the keys of all the entries. -/
def TakesAll : Json → List (String × Json) → Prop
  | _, [] => True
  | node, entry :: entries =>
      node.TakesLast entry.1 ∧ ∀ child, TakesAll (node.putLast (entry.1, child)) entries

/-- The copy of an entry in the node at a location. -/
def copyEntry (location : KeyPath) (entry : String × Json) : String × Json :=
  (entry.1, (copyOf (location.child entry.1) entry.2).1)

/-- A node that grows by the leaves of entries gets a copy of each, if all of them can be copied. -/
theorem storeAll_memberLeaves {entries : List (String × Json)} {grown : Json}
    (takes : node.TakesAll entries) :
    storeAll location (memberLeaves entries) node = (grown, .ok ()) ↔
      (∀ entry ∈ entries, (copyOf (location.child entry.1) entry.2).2 = .ok ()) ∧
        grown = (entries.map (copyEntry location)).foldl putLast node := by
  induction entries generalizing node with
  | nil => simp [memberLeaves, storeAll, eq_comm]
  | cons entry entries ih =>
      rcases takes with ⟨takesFirst, takesOthers⟩
      rw [memberLeaves_cons, storeAll_append, storeAll_childLeaves takesFirst, List.forall_mem_cons,
        List.map_cons, List.foldl_cons]
      rcases outcome : (copyOf (location.child entry.1) entry.2).2 with error | _
      · simp
      · simp only [true_and]
        exact ih (takesOthers _)

theorem takesAll_object {members entries : List (String × Json)}
    (distinct : ((members ++ entries).map Prod.fst).Nodup) :
    (Json.object members).TakesAll entries := by
  induction entries generalizing members with
  | nil => trivial
  | cons entry entries ih =>
      have notThere : entry.1 ∉ members.map Prod.fst := by
        rw [List.map_append, List.nodup_append] at distinct
        intro inside
        exact distinct.2.2 _ inside _ (by simp) rfl
      refine ⟨notThere, ?_⟩
      intro child
      apply ih
      simpa using distinct

theorem takesAll_array {done items : List Json} (fits : done.length + items.length ≤ UInt64.size) :
    (Json.array ⟨done⟩).TakesAll (itemEntries done.length items) := by
  induction items generalizing done with
  | nil => trivial
  | cons item items ih =>
      simp only [List.length_cons] at fits
      rw [itemEntries_cons]
      refine ⟨⟨rfl, by omega⟩, ?_⟩
      intro child
      have stillFits : (done ++ [child]).length + items.length ≤ UInt64.size := by
        rw [List.length_append, List.length_singleton]
        omega
      have later := ih stillFits
      rwa [List.length_append, List.length_singleton] at later

theorem foldl_putLast_object (members entries : List (String × Json)) :
    entries.foldl putLast (.object members) = .object (members ++ entries) := by
  induction entries generalizing members with
  | nil => simp
  | cons entry entries ih => simp [putLast, ih]

theorem foldl_putLast_array (items : List Json) (entries : List (String × Json)) :
    entries.foldl putLast (.array ⟨items⟩) = .array ⟨items ++ entries.map Prod.snd⟩ := by
  induction entries generalizing items with
  | nil => simp
  | cons entry entries ih => simp [putLast, ih]

/-- A key under which a node has no child, or only padding. -/
def Vacant (node : Json) (key : String) : Prop :=
  node.child? key = none ∨ node.child? key = some .null

theorem EntersChild.vacant {child changed : Json} {other : String}
    (enters : EntersChild key child node changed) (differs : other ≠ key)
    (vacant : node.Vacant other) : changed.Vacant other := by
  rcases vacant with missing | isNull
  · exact enters.padded other differs missing
  · exact Or.inr (enters.kept other differs .null isNull)

theorem EntersChild.refl {child : Json} (isChild : node.child? key = some child) :
    EntersChild key child node node :=
  ⟨rfl, rfl, isChild, fun _ _ _ isOld => isOld, fun _ _ missing => Or.inl missing⟩

theorem EntersChild.trans {first second middle last : Json}
    (enters : EntersChild key first node middle)
    (entersAgain : EntersChild key second middle last) :
    EntersChild key second node last := by
  refine ⟨entersAgain.sameKind.trans enters.sameKind,
    entersAgain.sameContainer.trans enters.sameContainer, entersAgain.self, ?_, ?_⟩
  · intro other differs old isOld
    exact entersAgain.kept other differs old (enters.kept other differs old isOld)
  · intro other differs missing
    exact entersAgain.vacant differs (enters.padded other differs missing)

theorem EntersChild.eq_null_or_child? {child changed found : Json} {other : String}
    (enters : EntersChild key child node changed) (differs : other ≠ key)
    (isChild : changed.child? other = some found) :
    found = .null ∨ node.child? other = some found := by
  rcases old : node.child? other with _ | oldChild
  · rcases enters.padded other differs old with stillMissing | isNull
    · rw [stillMissing] at isChild
      cases isChild
    · rw [isNull] at isChild
      cases isChild
      exact Or.inl rfl
  · rw [enters.kept other differs oldChild old] at isChild
    exact Or.inr isChild

theorem refusal?_eq_none_of_child? {child : Json} (isChild : node.child? key = some child) :
    node.refusal? location key = none := by
  cases node with
  | object members => rfl
  | array items =>
      rcases Option.bind_eq_some_iff.mp isChild with ⟨position, spelled, found⟩
      have inside : position < items.size := (Array.getElem?_eq_some_iff.mp found).1
      have near : ¬items.size + maxGap < position := by omega
      simp only [refusal?, spelled, near, if_false]
  | null => cases isChild
  | bool value => cases isChild
  | number value => cases isChild
  | string text => cases isChild

/-- What is stored below a child that is there is stored into the child. -/
theorem storeAll_map_cons {child : Json} (isChild : node.child? key = some child)
    (leaves : List (KeyPath × Json)) :
    ∃ changed,
      storeAll location (leaves.map fun leaf => (key :: leaf.1, leaf.2)) node =
          (changed, (storeAll (location.child key) leaves child).2) ∧
        EntersChild key (storeAll (location.child key) leaves child).1 node changed := by
  induction leaves generalizing node child with
  | nil => exact ⟨node, rfl, .refl isChild⟩
  | cons leaf leaves ih =>
      rcases store_of_not_refused (fun _ => false) leaf.2 location leaf.1
        (refusal?_eq_none_of_child? isChild) with ⟨changed, stored, enters⟩
      rw [entered_of_kept isChild (by simp)] at stored enters
      rw [List.map_cons, storeAll, stored, storeAll]
      rcases outcome : store (fun _ => false) leaf.2 (location.child key) leaf.1 child with
        ⟨next, error | replaced⟩
      · rw [outcome] at enters
        exact ⟨changed, rfl, enters⟩
      · rw [outcome] at enters
        rcases ih enters.self with ⟨last, storedOthers, entersOthers⟩
        exact ⟨last, storedOthers, enters.trans entersOthers⟩

/-- Where there is no child, the leaves of a child that has entries make a copy of it if they can be
stored at all. -/
theorem exists_copyOf_eq_of_missing {child first grown : Json} {next : String}
    {others : List (String × Json)} (accepts : node.refusal? location key = none)
    (missing : node.child? key = none) (hasEntries : child.entries = (next, first) :: others)
    (stored : storeAll location (childLeaves key child) node = (grown, .ok ())) :
    ∃ copy, copyOf (location.child key) child = (copy, .ok ()) ∧
      EntersChild key copy node grown := by
  rcases exists_relativeLeaves_eq_cons hasEntries with ⟨rest, value, leaves, isLeaves⟩
  rcases store_of_not_refused (fun _ => false) value location (next :: rest) accepts with
    ⟨changed, isStored, enters⟩
  rw [entered_of_child?_eq_none missing, fresh] at isStored enters
  rw [childLeaves_of_entries_eq_cons hasEntries, isLeaves, List.map_cons, storeAll, isStored]
    at stored
  rw [copyOf_of_entries_eq_cons hasEntries, isLeaves, storeAll]
  rcases outcome : store (fun _ => false) value (location.child key) (next :: rest)
    (containerFor next) with ⟨copy, error | replaced⟩
  · rw [outcome] at stored
    cases stored
  · rw [outcome] at stored enters
    simp only at stored enters ⊢
    rcases @storeAll_map_cons location key changed copy enters.self leaves with
      ⟨last, storedOthers, entersOthers⟩
    rw [storedOthers] at stored
    rcases Prod.mk.inj stored with ⟨rfl, success⟩
    exact ⟨_, Prod.ext rfl success, enters.trans entersOthers⟩

/-- Where there is no child, or only padding, the leaves of a child make a copy of it if they can be
stored at all. -/
theorem exists_copyOf_eq_of_storeAll {child grown : Json} (vacant : node.Vacant key)
    (stored : storeAll location (childLeaves key child) node = (grown, .ok ())) :
    ∃ copy, copyOf (location.child key) child = (copy, .ok ()) ∧
      EntersChild key copy node grown := by
  rcases accepts : node.refusal? location key with _ | error
  · rcases hasEntries : child.entries with _ | ⟨⟨next, first⟩, others⟩
    · rcases store_of_not_refused (fun _ => false) child location [] accepts with
        ⟨changed, isStored, enters⟩
      rw [childLeaves_of_entries_eq_nil hasEntries, storeAll, isStored] at stored
      cases stored
      exact ⟨child, copyOf_of_entries_eq_nil hasEntries, enters⟩
    · rcases vacant with missing | isNull
      · exact exists_copyOf_eq_of_missing accepts missing hasEntries stored
      · -- Padding is a leaf, and nothing can be stored below it.
        rcases exists_relativeLeaves_eq_cons hasEntries with ⟨rest, value, leaves, isLeaves⟩
        rcases store_of_not_refused (fun _ => false) value location (next :: rest) accepts with
          ⟨changed, isStored, _⟩
        rw [childLeaves_of_entries_eq_cons hasEntries, isLeaves, List.map_cons, storeAll, isStored,
          entered_of_kept isNull (by simp), store_of_refusal? rfl] at stored
        cases stored
  · rcases exists_childLeaves_eq_cons key child with ⟨rest, value, leaves, isLeaves⟩
    rw [isLeaves, storeAll, store_of_refusal? accepts] at stored
    cases stored

/-- A node that has grown by the leaves of entries keeps its kind, and its children are the old
ones, padding, and copies of the entries. -/
theorem child?_of_storeAll_memberLeaves {entries : List (String × Json)} {grown : Json}
    (distinct : (entries.map Prod.fst).Nodup)
    (vacant : ∀ entry ∈ entries, node.Vacant entry.1)
    (stored : storeAll location (memberLeaves entries) node = (grown, .ok ())) :
    grown.isArray = node.isArray ∧
      ∀ name child, grown.child? name = some child → child = .null ∨
        node.child? name = some child ∨
        ∃ entry ∈ entries, copyOf (location.child entry.1) entry.2 = (child, .ok ()) := by
  induction entries generalizing node with
  | nil =>
      cases stored
      exact ⟨rfl, fun name child isChild => Or.inr (Or.inl isChild)⟩
  | cons entry entries ih =>
      simp only [List.map_cons, List.nodup_cons] at distinct
      rcases distinct with ⟨notLater, othersDistinct⟩
      rcases List.forall_mem_cons.mp vacant with ⟨entryVacant, othersVacant⟩
      rw [memberLeaves_cons, storeAll_append] at stored
      rcases first : storeAll location (childLeaves entry.1 entry.2) node with ⟨middle, error | _⟩
      · rw [first] at stored
        cases stored
      · rw [first] at stored
        rcases exists_copyOf_eq_of_storeAll entryVacant first with ⟨copy, isCopy, enters⟩
        -- The first entry may have padded the node up to where a later one goes.
        have stillVacant : ∀ other ∈ entries, middle.Vacant other.1 := by
          intro other inside
          apply enters.vacant _ (othersVacant other inside)
          intro same
          apply notLater
          rw [← same]
          exact List.mem_map_of_mem inside
        rcases ih othersDistinct stillVacant stored with ⟨sameKind, children⟩
        refine ⟨sameKind.trans enters.sameKind, ?_⟩
        intro name child isChild
        rcases children name child isChild with isNull | inMiddle | ⟨other, inside, isOther⟩
        · exact Or.inl isNull
        · by_cases isEntry : name = entry.1
          · rw [isEntry, enters.self] at inMiddle
            cases inMiddle
            exact Or.inr (Or.inr ⟨entry, List.mem_cons_self, isCopy⟩)
          · rcases enters.eq_null_or_child? isEntry inMiddle with isNull | wasChild
            · exact Or.inl isNull
            · exact Or.inr (Or.inl wasChild)
        · exact Or.inr (Or.inr ⟨other, List.mem_cons_of_mem _ inside, isOther⟩)

theorem map_fst_enterMember {α : Type} (name : String) (created : Json) (change : Json → Json × α)
    (members : List (String × Json)) :
    (enterMember name created change members).1.map Prod.fst =
      if name ∈ members.map Prod.fst then members.map Prod.fst
      else members.map Prod.fst ++ [name] := by
  induction members with
  | nil => rfl
  | cons member members ih =>
      rw [enterMember]
      by_cases isFirst : member.1 = name
      · simp [isFirst]
      · simp only [isFirst, if_false, List.map_cons, List.mem_cons, Ne.symm isFirst, false_or, ih]
        split <;> rfl

theorem mem_map_fst_enterMember {α : Type} {name : String} {created : Json}
    {change : Json → Json × α} {members : List (String × Json)} {other : String} :
    other ∈ (enterMember name created change members).1.map Prod.fst ↔
      other ∈ members.map Prod.fst ∨ other = name := by
  rw [map_fst_enterMember]
  split
  case isTrue inside =>
    refine ⟨Or.inl, ?_⟩
    rintro (isOld | rfl)
    · exact isOld
    · exact inside
  case isFalse => rw [List.mem_append, List.mem_singleton]

theorem nodup_map_fst_enterMember {α : Type} {name : String} {created : Json}
    {change : Json → Json × α} {members : List (String × Json)}
    (distinct : (members.map Prod.fst).Nodup) :
    ((enterMember name created change members).1.map Prod.fst).Nodup := by
  rw [map_fst_enterMember]
  split
  case isTrue => exact distinct
  case isFalse missing =>
    apply List.nodup_append.mpr
    refine ⟨distinct, by simp, ?_⟩
    rintro other inside new isNew rfl
    cases List.mem_singleton.mp isNew
    exact missing inside

theorem forall_mem_enterMember {α : Type} {property : Json → Prop} {name : String}
    {created : Json} {change : Json → Json × α} {members : List (String × Json)}
    (made : property created) (kept : ∀ child, property child → property (change child).1)
    (each : ∀ member ∈ members, property member.2) :
    ∀ member ∈ (enterMember name created change members).1, property member.2 := by
  induction members with
  | nil =>
      rw [enterMember]
      simpa using kept created made
  | cons member members ih =>
      rcases List.forall_mem_cons.mp each with ⟨ofMember, ofMembers⟩
      rw [enterMember]
      split
      · exact List.forall_mem_cons.mpr ⟨kept _ ofMember, ofMembers⟩
      · exact List.forall_mem_cons.mpr ⟨ofMember, ih ofMembers⟩

theorem size_enterItem {α : Type} (position : Nat) (created : Json) (change : Json → Json × α)
    (items : Array Json) :
    (enterItem position created change items).1.size = max items.size (position + 1) := by
  by_cases inside : position < items.size
  · have sameSize : (enterItem position created change items).1.size = items.size := by
      simp [enterItem, changeItem, inside]
    omega
  · have grown : (enterItem position created change items).1.size =
        items.size + (position - items.size + 1) := by
      simp [enterItem, changeItem, inside]
    omega

theorem forall_mem_enterItem {α : Type} {property : Json → Prop} {position : Nat}
    {created : Json} {change : Json → Json × α} {items : Array Json} (padding : property .null)
    (made : property created) (kept : ∀ child, property child → property (change child).1)
    (each : ∀ item ∈ items, property item) :
    ∀ item ∈ (enterItem position created change items).1, property item := by
  intro item inside
  rcases Array.mem_iff_getElem?.mp inside with ⟨other, found⟩
  rcases enterItem_spec position created change items with ⟨self, others, padded, _⟩
  by_cases isEntered : other = position
  · subst isEntered
    rw [self] at found
    cases found
    apply kept
    rcases old : items[other]? with _ | child
    · exact made
    · exact each child (Array.mem_of_getElem? old)
  · rcases old : items[other]? with _ | child
    · rcases padded other isEntered old with missing | isNull
      · rw [missing] at found
        cases found
      · rw [isNull] at found
        cases found
        exact padding
    · rw [others other isEntered child old] at found
      cases found
      exact each item (Array.mem_of_getElem? old)

theorem regular_fresh (keys : KeyPath) : (fresh keys).Regular := by
  cases keys with
  | nil => exact .scalar rfl
  | cons next keys =>
      rw [fresh, containerFor]
      split
      · exact .array (by simp) (by simp)
      · exact .object (by simp) (by simp)

/-- Storing a regular value leaves a regular tree regular, whether or not it fails. -/
theorem Regular.store {isVacated : KeyPath → Bool} {value : Json} {path : KeyPath}
    (regular : Regular node) (valueRegular : Regular value) :
    Regular (store isVacated value location path node).1 := by
  induction path generalizing location node with
  | nil => exact valueRegular
  | cons key rest ih =>
      have kept : ∀ child, Regular child →
          Regular (Json.store isVacated value (location.child key) rest
            (if !rest.isEmpty && isVacated (location.child key) then fresh rest else child)).1 := by
        intro child childRegular
        apply ih
        split
        · exact regular_fresh rest
        · exact childRegular
      cases node with
      | object members =>
          rcases regular_object_iff.mp regular with ⟨distinct, each⟩
          exact .object (nodup_map_fst_enterMember distinct)
            (forall_mem_enterMember (regular_fresh rest) kept each)
      | array items =>
          rcases regular_array_iff.mp regular with ⟨fits, each⟩
          simp only [Json.store]
          rcases spelled : arrayIndex? key with _ | position
          · exact regular
          · simp only
            split
            · exact regular
            · rcases arrayIndex?_eq_some_iff.mp spelled with ⟨inWord, _⟩
              refine .array ?_ ?_
              · rw [Array.length_toList] at fits ⊢
                rw [size_enterItem]
                omega
              · intro item inside
                refine forall_mem_enterItem (.scalar rfl) (regular_fresh rest) kept ?_ item
                  (Array.mem_toList_iff.mp inside)
                intro old isOld
                exact each old (Array.mem_toList_iff.mpr isOld)
      | null => exact regular
      | bool value => exact regular
      | number value => exact regular
      | string text => exact regular

theorem Regular.storeAll {leaves : List (KeyPath × Json)} (regular : Regular node)
    (each : ∀ leaf ∈ leaves, Regular leaf.2) : Regular (storeAll location leaves node).1 := by
  induction leaves generalizing node with
  | nil => exact regular
  | cons leaf leaves ih =>
      rcases List.forall_mem_cons.mp each with ⟨ofLeaf, ofLeaves⟩
      have changedRegular : Regular (Json.store (fun _ => false) leaf.2 location leaf.1 node).1 :=
        regular.store ofLeaf
      rw [Json.storeAll]
      rcases stored : Json.store (fun _ => false) leaf.2 location leaf.1 node with
        ⟨changed, error | replaced⟩
      · rw [stored] at changedRegular
        exact changedRegular
      · rw [stored] at changedRegular
        exact ih changedRegular ofLeaves

end Graft.Json
