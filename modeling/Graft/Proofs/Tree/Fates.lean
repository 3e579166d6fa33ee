import Graft.Proofs.Tree.Children
import Graft.Proofs.Tree.Regular

/-!
# What becomes of the leaves

A leaf can stay, go, or become another value; in the last case it is taken out, and the new value is
stored in its place. Settling the fates of all leaves of a regular tree one after the other, in the
tree as the leaves before left it, amounts to one pass over the tree: items stay in place, and the
members of an object that were rewritten come after those that were not.
-/

namespace Graft.Json

open KeyPath (Apart)

/-- What becomes of a leaf. -/
inductive Fate where
  | stays
  | goes
  | becomes (value : Json)

/-- Settles the fate of the leaf under a key of a node. -/
def settleChild (fate : Fate) (key : String) (node : Json) : Json :=
  match fate with
  | .stays => node
  | .goes => (takeChild key node).1
  | .becomes value => (store (fun _ => false) value [] [key] (takeChild key node).1).1

/-- Settles the fate of the leaf at a path. -/
def settleAt (fate : Fate) : KeyPath → Json → Json
  | [], node => node
  | [key], node => settleChild fate key node
  | key :: rest, node => (changeChild key (fun child => (settleAt fate rest child, ())) node).1

/-- Settles the fates of listed leaves, one after the other. -/
def settleAll (fate : KeyPath → Json → Fate) (listed : List (KeyPath × Json)) (node : Json) :
    Json :=
  listed.foldl (fun node leaf => settleAt (fate leaf.1 leaf.2) leaf.1 node) node

/-- The member that a leaf member is rewritten as, if it becomes something. -/
def rewrittenMember? (fate : KeyPath → Json → Fate) (member : String × Json) :
    Option (String × Json) :=
  if member.2.isLeaf then
    match fate [member.1] member.2 with
    | .becomes revised => some (member.1, revised)
    | _ => none
  else none

mutual

/-- A tree after every leaf has met its fate. -/
def leafImage (fate : KeyPath → Json → Fate) : Json → Json
  | .array ⟨items⟩ => .array ⟨itemImages fate 0 items⟩
  | .object members =>
      .object (stayingMembers fate members ++ members.filterMap (rewrittenMember? fate))
  | node => node

/-- The items of an array afterwards; `null` is left in the place of a leaf that goes. -/
def itemImages (fate : KeyPath → Json → Fate) (position : Nat) : List Json → List Json
  | [] => []
  | item :: rest =>
      (if item.isLeaf then
        match fate [toString position] item with
        | .stays => item
        | .goes => .null
        | .becomes value => value
      else leafImage (fun path => fate (toString position :: path)) item) ::
        itemImages fate (position + 1) rest

/-- The members of an object that stay where they are: no leaves, or leaves that stay. -/
def stayingMembers (fate : KeyPath → Json → Fate) : List (String × Json) → List (String × Json)
  | [] => []
  | (name, value) :: rest =>
      (if value.isLeaf then
        match fate [name] value with
        | .stays => [(name, value)]
        | _ => []
      else [(name, leafImage (fun path => fate (name :: path)) value)]) ++
        stayingMembers fate rest

end

/-- What stands in the place of an item afterwards. -/
def itemImage (fate : KeyPath → Json → Fate) (key : String) (item : Json) : Json :=
  if item.isLeaf then
    match fate [key] item with
    | .stays => item
    | .goes => .null
    | .becomes value => value
  else leafImage (fun path => fate (key :: path)) item

theorem itemImages_eq_mapIdx (fate : KeyPath → Json → Fate) (start : Nat) (items : List Json) :
    itemImages fate start items =
      items.mapIdx fun offset item => itemImage fate (toString (start + offset)) item := by
  induction items generalizing start with
  | nil => rfl
  | cons item rest ih =>
      rw [itemImages, List.mapIdx_cons, ih, itemImage]
      simp only [Nat.add_zero, Nat.add_assoc, Nat.add_comm 1]

/-- What stands in the place of a member afterwards, if anything does. -/
def stayingMember? (fate : KeyPath → Json → Fate) (member : String × Json) :
    Option (String × Json) :=
  if member.2.isLeaf then
    match fate [member.1] member.2 with
    | .stays => some member
    | _ => none
  else some (member.1, leafImage (fun path => fate (member.1 :: path)) member.2)

theorem stayingMember?_spec {fate : KeyPath → Json → Fate} {member image : String × Json}
    (stays : stayingMember? fate member = some image) :
    image.1 = member.1 ∧
      (image.2 = member.2 ∨
        image.2 = leafImage (fun path => fate (member.1 :: path)) member.2) := by
  simp only [stayingMember?] at stays
  split at stays
  · split at stays
    · cases stays
      exact ⟨rfl, Or.inl rfl⟩
    · cases stays
  · cases stays
    exact ⟨rfl, Or.inr rfl⟩

theorem stayingMembers_eq_filterMap (fate : KeyPath → Json → Fate)
    (members : List (String × Json)) :
    stayingMembers fate members = members.filterMap (stayingMember? fate) := by
  induction members with
  | nil => rfl
  | cons member rest ih =>
      rcases member with ⟨name, value⟩
      rw [stayingMembers, ih, List.filterMap_cons, stayingMember?]
      split
      · cases fate [name] value <;> rfl
      · rfl

theorem settleAt_cons (fate : Fate) (key : String) {rest : KeyPath} (further : rest ≠ [])
    (node : Json) :
    settleAt fate (key :: rest) node =
      (changeChild key (fun child => (settleAt fate rest child, ())) node).1 := by
  rcases rest with _ | ⟨next, rest⟩
  · exact absurd rfl further
  · rfl

theorem settleAll_append (fate : KeyPath → Json → Fate) (first second : List (KeyPath × Json))
    (node : Json) :
    settleAll fate (first ++ second) node = settleAll fate second (settleAll fate first node) :=
  List.foldl_append

/-- Settling leaves below one child changes that child and nothing else. Here `plug` puts the child
in its place. -/
theorem settleAll_map_cons {key : String} (plug : Json → Json)
    (entering : ∀ (change : Json → Json × Unit) child,
      (changeChild key change (plug child)).1 = plug (change child).1)
    (fate : KeyPath → Json → Fate) {listed : List (KeyPath × Json)}
    (below : ∀ leaf ∈ listed, leaf.1 ≠ []) (child : Json) :
    settleAll fate (listed.map fun leaf => (key :: leaf.1, leaf.2)) (plug child) =
      plug (settleAll (fun path => fate (key :: path)) listed child) := by
  induction listed generalizing child with
  | nil => rfl
  | cons leaf listed ih =>
      rcases List.forall_mem_cons.mp below with ⟨further, others⟩
      simp only [settleAll, List.map_cons, List.foldl_cons] at ih ⊢
      rw [settleAt_cons _ _ further, entering]
      exact ih others _

theorem settleAll_childLeaves {key : String} (plug : Json → Json)
    (entering : ∀ (change : Json → Json × Unit) child,
      (changeChild key change (plug child)).1 = plug (change child).1)
    (fate : KeyPath → Json → Fate) {child : Json} (regular : child.Regular)
    (isImage : settleAll (fun path => fate (key :: path)) child.relativeLeaves child =
      leafImage (fun path => fate (key :: path)) child) :
    settleAll fate (childLeaves key child) (plug child) =
      if child.isLeaf then settleChild (fate [key] child) key (plug child)
      else plug (leafImage (fun path => fate (key :: path)) child) := by
  unfold childLeaves
  split
  · rfl
  · have below : ∀ leaf ∈ child.relativeLeaves, leaf.1 ≠ [] := by
      rintro ⟨path, value⟩ inside rfl
      exact not_mem_relativeLeaves_nil regular inside
    rw [settleAll_map_cons plug entering fate below, isImage]

theorem settleAll_itemLeaves (fate : KeyPath → Json → Fate) {items : List Json}
    (each : ∀ item ∈ items, item.Regular)
    (areImages : ∀ item ∈ items, ∀ fate, settleAll fate item.relativeLeaves item =
      leafImage fate item)
    (done : List Json) (fits : done.length + items.length ≤ UInt64.size) :
    settleAll fate (itemLeaves done.length items) (.array ⟨done ++ items⟩) =
      .array ⟨done ++ itemImages fate done.length items⟩ := by
  induction items generalizing done with
  | nil => rfl
  | cons item rest ih =>
      rcases List.forall_mem_cons.mp each with ⟨regular, othersRegular⟩
      rcases List.forall_mem_cons.mp areImages with ⟨isImage, othersImages⟩
      simp only [List.length_cons] at fits
      have inside : done.length < UInt64.size := by omega
      have entering : ∀ (change : Json → Json × Unit) child,
          (changeChild (toString done.length) change (.array ⟨done ++ child :: rest⟩)).1 =
            .array ⟨done ++ (change child).1 :: rest⟩ := by
        intro change child
        rw [changeChild_array change inside]
      have moveOn : ∀ image : Json,
          settleAll fate (itemLeaves (done.length + 1) rest) (.array ⟨done ++ image :: rest⟩) =
            .array ⟨done ++ image :: itemImages fate (done.length + 1) rest⟩ := by
        intro image
        have further := ih othersRegular othersImages (done ++ [image]) (by simp; omega)
        simpa using further
      rw [itemLeaves_cons, settleAll_append,
        settleAll_childLeaves (fun child => .array ⟨done ++ child :: rest⟩) entering fate regular
          (isImage _), itemImages]
      split
      · cases fate [toString done.length] item with
        | stays => exact moveOn item
        | goes =>
            rw [settleChild, takeChild_array inside]
            exact moveOn .null
        | becomes value =>
            rw [settleChild, takeChild_array inside, store_child_array inside]
            exact moveOn value
      · exact moveOn _

theorem settleAll_memberLeaves (fate : KeyPath → Json → Fate) {members : List (String × Json)}
    (each : ∀ member ∈ members, member.2.Regular)
    (areImages : ∀ member ∈ members, ∀ fate, settleAll fate member.2.relativeLeaves member.2 =
      leafImage fate member.2)
    (front back : List (String × Json))
    (distinct : ((front ++ members ++ back).map Prod.fst).Nodup) :
    settleAll fate (memberLeaves members) (.object (front ++ members ++ back)) =
      .object (front ++ stayingMembers fate members ++
        (back ++ members.filterMap (rewrittenMember? fate))) := by
  induction members generalizing front back with
  | nil => simp [memberLeaves, settleAll, stayingMembers]
  | cons member rest ih =>
      rcases member with ⟨name, value⟩
      rcases List.forall_mem_cons.mp each with ⟨regular, othersRegular⟩
      rcases List.forall_mem_cons.mp areImages with ⟨isImage, othersImages⟩
      have namesDistinct : (front.map Prod.fst ++
          name :: (rest.map Prod.fst ++ back.map Prod.fst)).Nodup := by
        simpa using distinct
      rcases List.nodup_cons.mp (List.perm_middle.nodup_iff.mp namesDistinct) with
        ⟨notElsewhere, othersDistinct⟩
      simp only [List.mem_append, not_or] at notElsewhere
      rcases notElsewhere with ⟨notInFront, notInRest, notInBack⟩
      have entering : ∀ (change : Json → Json × Unit) child,
          (changeChild name change (.object (front ++ (name, child) :: (rest ++ back)))).1 =
            .object (front ++ (name, (change child).1) :: (rest ++ back)) := by
        intro change child
        rw [changeChild_object change notInFront]
      have stay : ∀ image : Json,
          settleAll fate (memberLeaves rest) (.object (front ++ (name, image) :: (rest ++ back))) =
            .object (front ++ (name, image) :: (stayingMembers fate rest ++
              (back ++ rest.filterMap (rewrittenMember? fate)))) := by
        intro image
        have further := ih othersRegular othersImages (front ++ [(name, image)]) back
          (by simpa using namesDistinct)
        simpa using further
      have missing : name ∉ (front ++ (rest ++ back)).map Prod.fst := by
        simp only [List.map_append, List.mem_append, not_or]
        exact ⟨notInFront, notInRest, notInBack⟩
      rw [memberLeaves_cons, settleAll_append, List.append_assoc, List.cons_append,
        settleAll_childLeaves (fun child => .object (front ++ (name, child) :: (rest ++ back)))
          entering fate regular (isImage _), stayingMembers, List.filterMap_cons, rewrittenMember?]
      split
      · cases fate [name] value with
        | stays => simpa [settleChild] using stay value
        | goes =>
            have further := ih othersRegular othersImages front back (by simpa using othersDistinct)
            rw [settleChild, takeChild_object notInFront]
            simpa using further
        | becomes revised =>
            have backDistinct : ((front ++ rest ++ (back ++ [(name, revised)])).map
                Prod.fst).Nodup := by
              have rotated := (List.perm_middle.trans
                (List.perm_append_singleton name _).symm).nodup_iff.mp namesDistinct
              simpa using rotated
            have further := ih othersRegular othersImages front (back ++ [(name, revised)])
              backDistinct
            rw [settleChild, takeChild_object notInFront, store_child_object missing]
            simpa using further
      · simpa using stay _

/-- Settling the leaves of a regular tree one after the other makes its image. -/
theorem Regular.settleAll_eq_leafImage {node : Json} (regular : node.Regular)
    (fate : KeyPath → Json → Fate) :
    settleAll fate node.relativeLeaves node = leafImage fate node := by
  induction regular generalizing fate with
  | @scalar node noContainer =>
      cases node with
      | array items => cases noContainer
      | object members => cases noContainer
      | null => rfl
      | bool value => rfl
      | number value => rfl
      | string text => rfl
  | @array items fits each areImages =>
      have settled := settleAll_itemLeaves fate each areImages [] (by simpa using fits)
      rw [relativeLeaves, leafImage]
      simpa using settled
  | @object members distinct each areImages =>
      have settled := settleAll_memberLeaves fate each areImages [] [] (by simpa using distinct)
      rw [relativeLeaves, leafImage]
      simpa using settled

end Graft.Json
