import Graft.Proofs.Path.Position
import Graft.Tree.Store

/-!
# One child in its place

What happens to a member or an item when its name or its position is known: the members before and
after it and the items around it stay, and it is changed, taken out or put in where it belongs.
-/

namespace Graft.Json

theorem changeMember_append {α : Type} {name : String} (change : Json → Json × α)
    {front : List (String × Json)} (notInFront : name ∉ front.map Prod.fst) (value : Json)
    (rest : List (String × Json)) :
    changeMember name change (front ++ (name, value) :: rest) =
      (front ++ (name, (change value).1) :: rest, some (change value).2) := by
  induction front with
  | nil => simp [changeMember]
  | cons member front ih =>
      simp only [List.map_cons, List.mem_cons, not_or] at notInFront
      rcases notInFront with ⟨differs, notLater⟩
      simp [changeMember, Ne.symm differs, ih notLater]

theorem changeItem_append {α : Type} (change : Json → Json × α) (done : List Json) (item : Json)
    (rest : List Json) :
    changeItem done.length change ⟨done ++ item :: rest⟩ =
      (⟨done ++ (change item).1 :: rest⟩, some (change item).2) := by
  simp [changeItem]

theorem changeChild_object {α : Type} {name : String} (change : Json → Json × α)
    {front : List (String × Json)} (notInFront : name ∉ front.map Prod.fst) (value : Json)
    (rest : List (String × Json)) :
    changeChild name change (.object (front ++ (name, value) :: rest)) =
      (.object (front ++ (name, (change value).1) :: rest), some (change value).2) := by
  rw [changeChild, changeMember_append change notInFront]

theorem changeChild_array {α : Type} (change : Json → Json × α) {done : List Json}
    (fits : done.length < UInt64.size) (item : Json) (rest : List Json) :
    changeChild (toString done.length) change (.array ⟨done ++ item :: rest⟩) =
      (.array ⟨done ++ (change item).1 :: rest⟩, some (change item).2) := by
  have spelled : arrayIndex? (toString done.length) = some done.length :=
    arrayIndex?_eq_some_iff.mpr ⟨fits, rfl⟩
  simp only [changeChild, spelled]
  rw [changeItem_append]

theorem eraseMember_append {name : String} {front : List (String × Json)}
    (notInFront : name ∉ front.map Prod.fst) (value : Json) (rest : List (String × Json)) :
    eraseMember name (front ++ (name, value) :: rest) = front ++ rest := by
  induction front with
  | nil => simp [eraseMember]
  | cons member front ih =>
      simp only [List.map_cons, List.mem_cons, not_or] at notInFront
      rcases notInFront with ⟨differs, notLater⟩
      have restErased := ih notLater
      simp only [eraseMember] at restErased
      simp [eraseMember, Ne.symm differs, restErased]

theorem lookup_append_cons {name : String} {front : List (String × Json)}
    (notInFront : name ∉ front.map Prod.fst) (value : Json) (rest : List (String × Json)) :
    (front ++ (name, value) :: rest).lookup name = some value := by
  have missed : front.lookup name = none := by
    apply List.lookup_eq_none_iff.mpr
    intro member inside
    apply bne_iff_ne.mpr
    rintro rfl
    exact notInFront (List.mem_map_of_mem inside)
  rw [List.lookup_append, missed]
  simp

theorem enterMember_of_not_mem {α : Type} {name : String} (created : Json)
    (change : Json → Json × α) {members : List (String × Json)}
    (missing : name ∉ members.map Prod.fst) :
    enterMember name created change members =
      (members ++ [(name, (change created).1)], (change created).2) := by
  induction members with
  | nil => rfl
  | cons member rest ih =>
      simp only [List.map_cons, List.mem_cons, not_or] at missing
      rcases missing with ⟨differs, notLater⟩
      simp [enterMember, Ne.symm differs, ih notLater]

theorem takeChild_object {name : String} {front : List (String × Json)}
    (notInFront : name ∉ front.map Prod.fst) (value : Json) (rest : List (String × Json)) :
    (takeChild name (.object (front ++ (name, value) :: rest))).1 = .object (front ++ rest) := by
  simp only [takeChild, lookup_append_cons notInFront, eraseMember_append notInFront]

theorem takeChild_array {done : List Json} (fits : done.length < UInt64.size) (item : Json)
    (rest : List Json) :
    (takeChild (toString done.length) (.array ⟨done ++ item :: rest⟩)).1 =
      .array ⟨done ++ .null :: rest⟩ := by
  have spelled : arrayIndex? (toString done.length) = some done.length :=
    arrayIndex?_eq_some_iff.mpr ⟨fits, rfl⟩
  simp only [takeChild, spelled]
  rw [changeItem_append]

theorem store_child_object {isVacated : KeyPath → Bool} {location : KeyPath} {name : String}
    {members : List (String × Json)} (missing : name ∉ members.map Prod.fst) (value : Json) :
    store isVacated value location [name] (.object members) =
      (.object (members ++ [(name, value)]), .ok false) := by
  simp only [store]
  rw [enterMember_of_not_mem _ _ missing]
  rfl

theorem store_child_array {isVacated : KeyPath → Bool} {location : KeyPath} {done : List Json}
    (fits : done.length < UInt64.size) (rest : List Json) (value : Json) :
    store isVacated value location [toString done.length] (.array ⟨done ++ .null :: rest⟩) =
      (.array ⟨done ++ value :: rest⟩, .ok false) := by
  have spelled : arrayIndex? (toString done.length) = some done.length :=
    arrayIndex?_eq_some_iff.mpr ⟨fits, rfl⟩
  have near : ¬(done ++ Json.null :: rest).length + maxGap < done.length := by
    simp
    omega
  simp only [store, spelled, enterItem, changeItem_append, List.size_toArray, near, if_false]
  rfl

end Graft.Json
