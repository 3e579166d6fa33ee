import Graft.Proofs.Tree.Children
import Graft.Proofs.Tree.Finish
import Graft.Proofs.Tree.Settling

/-!
# Members side by side

The members of an object can be split in two parts with different names. What is taken out of one
part, stored into the other or dropped when a draft is finished does not touch the rest, so it is
the same as with the one part alone.
-/

namespace Graft.Json

theorem changeMember_of_lookup_eq_none {α : Type} {name : String} (change : Json → Json × α)
    {members : List (String × Json)} (missing : members.lookup name = none) :
    changeMember name change members = (members, none) := by
  induction members with
  | nil => rfl
  | cons member rest ih =>
      rcases member with ⟨first, value⟩
      rw [List.lookup_cons] at missing
      split at missing
      case h_1 => cases missing
      case h_2 differs =>
        have notName : first ≠ name := Ne.symm (beq_eq_false_iff_ne.mp differs)
        simp [changeMember, notName, ih missing]

/-- A change of a member does not reach members behind it of other names. -/
theorem changeMember_beside {α : Type} {name : String} (change : Json → Json × α)
    (left : List (String × Json)) {right : List (String × Json)}
    (missing : right.lookup name = none) :
    changeMember name change (left ++ right) =
      ((changeMember name change left).1 ++ right, (changeMember name change left).2) := by
  induction left with
  | nil =>
      rw [List.nil_append, changeMember_of_lookup_eq_none change missing]
      rfl
  | cons member left ih =>
      rw [List.cons_append, changeMember, changeMember]
      split
      · rfl
      · rw [ih]
        rfl

theorem eraseMember_beside {name : String} {left : List (String × Json)} {value : Json}
    (found : left.lookup name = some value) (right : List (String × Json)) :
    eraseMember name (left ++ right) = eraseMember name left ++ right := by
  rcases List.lookup_eq_some_iff.mp found with ⟨before, after, rfl, _⟩
  have inside : (name, value) ∈ before ++ (name, value) :: after := by simp
  exact List.eraseP_append_left (p := fun member => decide (member.1 = name)) (by simp) right inside

theorem enterMember_beside {α : Type} {name : String} (created : Json) (change : Json → Json × α)
    {left : List (String × Json)} (missing : left.lookup name = none)
    (right : List (String × Json)) :
    enterMember name created change (left ++ right) =
      (left ++ (enterMember name created change right).1,
        (enterMember name created change right).2) := by
  induction left with
  | nil => rfl
  | cons member left ih =>
      rcases member with ⟨first, value⟩
      rw [List.lookup_cons] at missing
      split at missing
      case h_1 => cases missing
      case h_2 differs =>
        have notName : first ≠ name := Ne.symm (beq_eq_false_iff_ne.mp differs)
        simp [enterMember, notName, ih missing]

theorem changeAt_takeChild_beside {left right : List (String × Json)} {parent : KeyPath}
    {key : String} {found : Json}
    (leads : (Json.object left).get? (parent ++ [key]) = some found)
    (missing : ∀ name, left.lookup name ≠ none → right.lookup name = none) :
    ∃ remaining, (changeAt (takeChild key) parent (.object left)).1 = .object remaining ∧
      changeAt (takeChild key) parent (.object (left ++ right)) =
        (.object (remaining ++ right), (changeAt (takeChild key) parent (.object left)).2) ∧
      ∀ name, left.lookup name = none → remaining.lookup name = none := by
  rcases parent with _ | ⟨first, parent⟩
  · rw [List.nil_append, get?_cons, child?] at leads
    rcases Option.bind_eq_some_iff.mp leads with ⟨child, isChild, _⟩
    refine ⟨eraseMember key left, ?_, ?_, ?_⟩
    · simp only [changeAt, takeChild, isChild]
    · simp only [changeAt, takeChild, List.lookup_append, isChild, Option.some_or,
        eraseMember_beside isChild]
    · intro name notThere
      have differs : name ≠ key := by
        rintro rfl
        rw [isChild] at notThere
        cases notThere
      rw [lookup_eraseMember_of_ne differs, notThere]
  · rw [List.cons_append, get?_cons, child?] at leads
    rcases Option.bind_eq_some_iff.mp leads with ⟨child, isChild, _⟩
    have notInRight : right.lookup first = none := by
      apply missing
      rw [isChild]
      exact Option.some_ne_none child
    refine ⟨(changeMember first (changeAt (takeChild key) parent) left).1, rfl, ?_, ?_⟩
    · simp only [changeAt, changeChild, changeMember_beside _ left notInRight]
    · intro name notThere
      have differs : name ≠ first := by
        rintro rfl
        rw [isChild] at notThere
        cases notThere
      rw [(changeMember_spec first _ left).2.1 name differs, notThere]

theorem modifyAt_beside (change : Json → Json) {name : String} (rest : KeyPath)
    (left : List (String × Json)) {right : List (String × Json)}
    (missing : right.lookup name = none) :
    ∃ changed, modifyAt change (name :: rest) (.object left) = .object changed ∧
      modifyAt change (name :: rest) (.object (left ++ right)) = .object (changed ++ right) := by
  refine ⟨_, modifyAt_cons change name rest (.object left), ?_⟩
  rw [modifyAt_cons, changeChild, changeMember_beside _ _ missing]

/-- Storing depends on which nodes below the location are begun afresh and on no others. -/
theorem store_congr {isVacated isVacatedToo : KeyPath → Bool} {location path : KeyPath}
    (same : ∀ upper, upper ≠ [] → isVacated (location ++ upper) = isVacatedToo (location ++ upper))
    (value node : Json) :
    store isVacated value location path node = store isVacatedToo value location path node := by
  induction path generalizing location node with
  | nil => rfl
  | cons key rest ih =>
      have here : isVacated (location.child key) = isVacatedToo (location.child key) :=
        same [key] (by simp)
      have below : ∀ upper, upper ≠ [] → isVacated (location.child key ++ upper) =
          isVacatedToo (location.child key ++ upper) := by
        intro upper _
        rw [child_append]
        exact same (key :: upper) (by simp)
      simp only [store, here, ih below]

theorem store_beside {isVacated isVacatedToo : KeyPath → Bool} {location : KeyPath} {key : String}
    {rest : KeyPath}
    (same : ∀ lower, isVacated (location ++ key :: lower) = isVacatedToo (location ++ key :: lower))
    (value : Json) {left : List (String × Json)} (missing : left.lookup key = none)
    (right : List (String × Json)) :
    ∃ changed,
      store isVacatedToo value location (key :: rest) (.object right) =
        (.object changed, (store isVacatedToo value location (key :: rest) (.object right)).2) ∧
      store isVacated value location (key :: rest) (.object (left ++ right)) =
        (.object (left ++ changed),
          (store isVacatedToo value location (key :: rest) (.object right)).2) ∧
      ∀ name, name ≠ key → changed.lookup name = right.lookup name := by
  have here : isVacated (location.child key) = isVacatedToo (location.child key) := same []
  have below : ∀ upper, upper ≠ [] → isVacated (location.child key ++ upper) =
      isVacatedToo (location.child key ++ upper) := by
    intro upper _
    rw [child_append]
    exact same upper
  simp only [store, here, store_congr below, enterMember_beside _ _ missing]
  refine ⟨_, rfl, rfl, ?_⟩
  exact (enterMember_spec key _ _ right).2.1

end Graft.Json

namespace Graft.Draft

/-- A finished draft has what it had in the right part, if nothing was vacated there. -/
theorem finish_beside (draft : Draft) {left right : List (String × Json)}
    (root : draft.root = .object (left ++ right))
    (apart : ∀ slot ∈ draft.vacated, ∃ name key rest, slot = name :: key :: rest ∧
      right.lookup name = none) :
    ∃ remaining, (Draft.mk (.object left) draft.vacated draft.written).finish = .object remaining ∧
      draft.finish = .object (remaining ++ right) := by
  have startApart : ∀ entry ∈ draft.doomed.toList,
      ∃ name rest, entry.1 = name :: rest ∧ right.lookup name = none := by
    rintro ⟨array, positions⟩ isEntry
    have found := Std.TreeMap.mem_toList_iff_getElem?_eq_some.mp isEntry
    rcases filled_doomed draft array positions found with ⟨position, inside⟩
    have isDoomed : Doomed draft array position := by
      rw [← mem_doomed, Std.TreeMap.getD_eq_getD_getElem?, found]
      exact inside
    rcases apart _ isDoomed.2.1 with ⟨name, key, rest, isSlot, missing⟩
    rcases array with _ | ⟨first, array⟩
    · cases isSlot
    · simp only [KeyPath.child, List.cons_append, List.cons.injEq] at isSlot
      rcases isSlot with ⟨rfl, _⟩
      exact ⟨first, array, rfl, missing⟩
  have beside : ∀ entries : List (KeyPath × Std.TreeSet Nat),
      (∀ entry ∈ entries, ∃ name rest, entry.1 = name :: rest ∧ right.lookup name = none) →
      ∃ remaining,
        entries.foldr
            (fun entry root => Json.modifyAt (Json.dropItems entry.2.contains) entry.1 root)
            (.object left) =
          .object remaining ∧
        entries.foldr
            (fun entry root => Json.modifyAt (Json.dropItems entry.2.contains) entry.1 root)
            (.object (left ++ right)) =
          .object (remaining ++ right) := by
    intro entries
    induction entries with
    | nil => exact fun _ => ⟨left, rfl, rfl⟩
    | cons entry entries ih =>
        intro startApart
        rcases List.forall_mem_cons.mp startApart with ⟨⟨name, rest, isArray, missing⟩, others⟩
        rcases ih others with ⟨remaining, isLeft, isBoth⟩
        rcases Json.modifyAt_beside (Json.dropItems entry.2.contains) rest remaining missing with
          ⟨changed, changedLeft, changedBoth⟩
        refine ⟨changed, ?_, ?_⟩
        · rw [List.foldr_cons, isLeft, isArray, changedLeft]
        · rw [List.foldr_cons, isBoth, isArray, changedBoth]
  rcases beside draft.doomed.toList startApart with ⟨remaining, isLeft, isBoth⟩
  refine ⟨remaining, ?_, ?_⟩
  · rw [finish, Std.TreeMap.foldr_eq_foldr_toList]
    exact isLeft
  · rw [finish, Std.TreeMap.foldr_eq_foldr_toList, root]
    exact isBoth

end Graft.Draft
