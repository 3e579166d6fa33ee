import Graft.Proofs.Json.Rearranged
import Graft.Proofs.Mapping.Run
import Graft.Proofs.Tree.Finish
import Graft.Proofs.Tree.Settling

/-!
# Transforms that move nothing

A rule set that leaves every leaf at its path takes each leaf out and writes it back. No slot stays
vacated between two steps, so every step settles one leaf and finishing drops nothing: the transform
makes the image of the tree under its value rules.
-/

namespace Graft

open Json (Fate)
open KeyPath (Apart)

namespace ValueRule

/-- What becomes of a leaf that is written back: it stays if a value rule gives it up. -/
def fate (values : List ValueRule) (value : Json) : Fate :=
  match applyAll values value with
  | none => .stays
  | some revised => .becomes revised

end ValueRule

namespace RuleSet

theorem verdict_all (values : List ValueRule) (path : KeyPath) (value : Json) :
    (RuleSet.mk .all values).verdict path value =
      match ValueRule.applyAll values value with
      | none => .decline
      | some revised => .place path revised := rfl

/-- Moving a leaf to where it is settles it and leaves no vacated slot. -/
theorem move_all (values : List ValueRule) {draft : Draft}
    (noSlots : ∀ slot, slot ∉ draft.vacated) {path : KeyPath} {value : Json} (nonempty : path ≠ [])
    (leads : draft.root.get? path = some value) (isLeaf : value.isLeaf) :
    ∃ next, (RuleSet.mk .all values).move path draft = (next, .ok ()) ∧
      next.root = Json.settleAt (ValueRule.fate values value) path draft.root ∧
      ∀ slot, slot ∉ next.vacated := by
  have found : leafAt? draft path = some value := by
    simp [leafAt?, Draft.isVacated, noSlots path, leads, isLeaf]
  simp only [move, found, verdict_all]
  rcases revising : ValueRule.applyAll values value with _ | revised
  · refine ⟨draft, rfl, ?_, noSlots⟩
    rw [ValueRule.fate, revising, Json.settleAt_stays]
  · rcases List.eq_nil_or_concat path with rfl | ⟨parent, key, isConcat⟩
    · exact absurd rfl nonempty
    · rw [List.concat_eq_append] at isConcat
      subst isConcat
      rcases draft.remove_append parent key with ⟨root, _, vacated⟩
      have onlySlot : ∀ slot, slot ∈ (draft.remove (parent ++ [key])).1.vacated →
          slot = parent ++ [key] := by
        intro slot isSlot
        rcases (vacated slot).mp isSlot with impossible | ⟨_, same⟩
        · exact absurd impossible (noSlots slot)
        · exact same
      have clear : ∀ upper, upper <+: parent → upper ≠ [] →
          (draft.remove (parent ++ [key])).1.vacated.contains ([] ++ upper) = false := by
        intro upper above _
        apply Bool.eq_false_iff.mpr
        intro isSlot
        have tooLong := above.length_le
        rw [onlySlot upper isSlot] at tooLong
        simp only [List.length_append, List.length_singleton] at tooLong
        omega
      rcases Json.store_changeAt_takeChild leads clear revised with ⟨replaced, stored⟩
      rw [← root] at stored
      have outcome := (draft.remove (parent ++ [key])).1.outcome_write nonempty revised
      rw [stored] at outcome
      rcases success : (draft.remove (parent ++ [key])).1.write (parent ++ [key]) revised with
        ⟨next, result⟩
      rw [success] at outcome
      cases outcome
      rcases Draft.write_ok success with ⟨_, _, storedAlso, nextVacated, _⟩
      rw [stored] at storedAlso
      refine ⟨next, by simp only [placeLeaf, success]; rfl, ?_, ?_⟩
      · rw [ValueRule.fate, revising]
        exact (congrArg Prod.fst storedAlso).symm
      · intro slot isSlot
        rcases (nextVacated slot).mp isSlot with ⟨wasSlot, notRevived, _⟩
        exact notRevived (parent ++ [key]) nonempty (List.prefix_refl _) (onlySlot slot wasSlot)

theorem runSteps_move_all (values : List ValueRule) (listed : List (KeyPath × Json))
    {draft : Draft} (noSlots : ∀ slot, slot ∉ draft.vacated)
    (leaves : ∀ leaf ∈ listed,
      leaf.1 ≠ [] ∧ draft.root.get? leaf.1 = some leaf.2 ∧ leaf.2.isLeaf)
    (apart : listed.Pairwise fun left right => Apart left.1 right.1) :
    ∃ last, runSteps (RuleSet.mk .all values).move (listed.map Prod.fst) draft = (last, .ok ()) ∧
      last.root = Json.settleAll (fun _ => ValueRule.fate values) listed draft.root ∧
      ∀ slot, slot ∉ last.vacated := by
  induction listed generalizing draft with
  | nil => exact ⟨draft, rfl, rfl, noSlots⟩
  | cons leaf listed ih =>
      rcases List.forall_mem_cons.mp leaves with ⟨⟨nonempty, leads, isLeaf⟩, others⟩
      rcases List.pairwise_cons.mp apart with ⟨apartOthers, othersApart⟩
      rcases move_all values noSlots nonempty leads isLeaf with ⟨next, moved, root, noNextSlots⟩
      have stillThere : ∀ other ∈ listed,
          other.1 ≠ [] ∧ next.root.get? other.1 = some other.2 ∧ other.2.isLeaf := by
        intro other inside
        rcases others other inside with ⟨otherNonempty, otherLeads, otherIsLeaf⟩
        refine ⟨otherNonempty, ?_, otherIsLeaf⟩
        have agree := Json.AgreeAlong.settleAt (apartOthers other inside)
          (ValueRule.fate values leaf.2) otherLeads
        rw [root, agree.get?_eq, otherLeads]
      rcases ih noNextSlots stillThere othersApart with ⟨last, run, lastRoot, noLastSlots⟩
      refine ⟨last, ?_, ?_, noLastSlots⟩
      · rw [List.map_cons, runSteps, moved]
        exact run
      · rw [lastRoot, root]
        rfl

theorem value_transform_all (values : List ValueRule) {tree : Json} (container : tree.isContainer)
    (regular : tree.Regular) :
    (RuleSet.transform ⟨.all, values⟩ tree).value =
      (tree.leafImage fun _ => ValueRule.fate values, .ok ()) := by
  have noSlots := Draft.not_mem_vacated_ofTree tree
  have leaves : ∀ leaf ∈ tree.relativeLeaves,
      leaf.1 ≠ [] ∧ (Draft.ofTree tree).root.get? leaf.1 = some leaf.2 ∧ leaf.2.isLeaf :=
    fun leaf inside => regular.mem_relativeLeaves_iff.mp inside
  rcases runSteps_move_all values tree.relativeLeaves noSlots leaves regular.pairwise_apart with
    ⟨last, run, root, noLastSlots⟩
  rw [value_transform _ container, Json.leafPaths, Json.leaves_eq_relativeLeaves, run,
    Draft.finish_of_forall_not_mem noLastSlots, root]
  rw [← regular.settleAll_eq_leafImage]
  rfl

/-- A transform that moves nothing succeeds and makes the image of the tree under the value rules.
Without value rules this is the tree itself, but for the order of members. -/
theorem transform_all (values : List ValueRule) {tree : Json} (container : tree.isContainer)
    (regular : tree.Regular) :
    (RuleSet.transform ⟨.all, values⟩ tree).value =
        (tree.leafImage fun _ => ValueRule.fate values, .ok ()) ∧
      tree.Rearranged (RuleSet.transform ⟨.all, []⟩ tree).value.1 := by
  refine ⟨value_transform_all values container regular, ?_⟩
  rw [value_transform_all [] container regular]
  apply regular.rearranged_leafImage
  intro path value
  exact Or.inr rfl

/-- A tree with leaves in an array and on two levels of objects. -/
def nestedTree : Json :=
  .object [("flag", .bool true), ("list", .array #[.null, .object []]),
    ("group", .object [("first", .null), ("second", .bool true), ("third", .bool false)])]

theorem transform_all_nestedTree :
    (RuleSet.transform ⟨.all, [.skip (.bool true), .custom Revision.wrap]⟩ nestedTree).value =
      (.object [("flag", .bool true),
        ("list", .array #[.array #[.null], .array #[.object []]]),
        ("group", .object [("second", .bool true), ("first", .array #[.null]),
          ("third", .array #[.bool false])])], .ok ()) :=
  (transform_all _ rfl (by decide)).1.trans rfl

end RuleSet

end Graft
