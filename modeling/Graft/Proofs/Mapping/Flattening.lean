import Graft.Proofs.Mapping.Copying
import Graft.Proofs.Path.RoundTrip
import Graft.Rule.Choices

/-!
# Flattening a tree and back

Flattening puts every leaf under the written form of its path, side by side in one object. Different
paths have different written forms, so no leaf is lost, and each written form reads as the path it
was made from. So what is stored on the way back is what a map stores that leaves every leaf at its
path.
-/

namespace Graft

namespace Json

theorem memberLeaves_of_forall_isLeaf {members : List (String × Json)}
    (each : ∀ member ∈ members, member.2.isLeaf) :
    memberLeaves members = members.map fun member => ([member.1], member.2) := by
  induction members with
  | nil => rfl
  | cons member members ih =>
      rcases List.forall_mem_cons.mp each with ⟨isLeaf, othersAreLeaves⟩
      rw [memberLeaves_cons, childLeaves, if_pos isLeaf, ih othersAreLeaves]
      rfl

/-- The leaves of a tree as members that are named by the written forms of their paths. -/
def flatMembers (tree : Json) : List (String × Json) :=
  tree.relativeLeaves.map fun leaf => (leaf.1.expression, leaf.2)

theorem memberLeaves_flatMembers {tree : Json} (regular : tree.Regular) :
    memberLeaves tree.flatMembers =
      tree.relativeLeaves.map fun leaf => ([leaf.1.expression], leaf.2) := by
  rw [flatMembers, memberLeaves_of_forall_isLeaf, List.map_map]
  · rfl
  · intro member inside
    rcases List.mem_map.mp inside with ⟨leaf, isListed, rfl⟩
    exact (regular.mem_relativeLeaves_iff.mp isListed).2.2

theorem ofExpression_of_mem_relativeLeaves {tree : Json} (regular : tree.Regular)
    {leaf : KeyPath × Json} (inside : leaf ∈ tree.relativeLeaves) :
    KeyPath.ofExpression leaf.1.expression = .ok leaf.1 := by
  rcases leaf with ⟨_ | ⟨root, keys⟩, value⟩
  · exact absurd inside (not_mem_relativeLeaves_nil regular)
  · exact KeyPath.ofExpression_cons root keys

theorem Regular.nodup_flatMembers {tree : Json} (regular : tree.Regular) :
    (tree.flatMembers.map Prod.fst).Nodup := by
  rw [flatMembers, List.map_map]
  apply List.pairwise_map.mpr
  apply regular.pairwise_apart.imp_of_mem
  intro left right isLeft isRight apart same
  -- One written form cannot read as two paths, and listed paths are apart.
  have readLeft := ofExpression_of_mem_relativeLeaves regular isLeft
  have readRight := ofExpression_of_mem_relativeLeaves regular isRight
  simp only [Function.comp_apply] at same
  rw [same, readRight] at readLeft
  have samePath : right.1 = left.1 := Except.ok.inj readLeft
  apply apart.1
  simp [samePath]

theorem Regular.flatMembers {tree : Json} (regular : tree.Regular) :
    (Json.object tree.flatMembers).Regular := by
  refine .object regular.nodup_flatMembers ?_
  intro member inside
  rcases List.mem_map.mp inside with ⟨leaf, isListed, rfl⟩
  exact regular.get? (regular.mem_relativeLeaves_iff.mp isListed).2.1

end Json

namespace Mapping

/-- Flattening stores every leaf under the written form of its path. -/
theorem apply_flatten {tree : Json} (container : tree.isContainer) (regular : tree.Regular) :
    ((Mapping.ofRules .map (.custom Choice.flatten) (.many [])).apply tree).value =
      .ok (.object tree.flatMembers) := by
  have places : ∀ leaf ∈ tree.leaves, ([leaf.1.expression], leaf.2).1 ≠ [] ∧
      (RuleSet.mk (.custom Choice.flatten) []).verdict leaf.1 leaf.2 =
        .place ([leaf.1.expression], leaf.2).1 ([leaf.1.expression], leaf.2).2 :=
    fun leaf _ => ⟨by simp, rfl⟩
  have takes : (Json.object []).TakesAll tree.flatMembers :=
    Json.takesAll_object regular.nodup_flatMembers
  have stored : Json.storeAll [] (Json.memberLeaves tree.flatMembers) (.object []) =
      (.object tree.flatMembers, .ok ()) := by
    have copies : ∀ entry ∈ tree.flatMembers,
        Json.copyOf (KeyPath.child [] entry.1) entry.2 = (entry.2, .ok ()) := by
      intro entry inside
      rcases List.mem_map.mp inside with ⟨leaf, isListed, rfl⟩
      apply Json.copyOf_of_entries_eq_nil
      exact Json.entries_eq_nil_iff.mpr (regular.mem_relativeLeaves_iff.mp isListed).2.2
    apply (Json.storeAll_memberLeaves takes).mpr
    rw [Json.map_copyEntry_eq_self copies, Json.foldl_putLast_object]
    refine ⟨?_, rfl⟩
    intro entry inside
    rw [copies entry inside]
  rw [Json.memberLeaves_flatMembers regular] at stored
  rw [value_apply_map container places, Json.leaves_eq_relativeLeaves, stored]
  rfl

/-- Where unflattening puts a leaf. -/
def unflattened (leaf : KeyPath × Json) : KeyPath × Json :=
  match Choice.unflatten leaf.1 with
  | .path target => (target, leaf.2)
  | _ => leaf

theorem apply_unflatten {tree : Json} (container : tree.isContainer) (regular : tree.Regular) :
    ((Mapping.ofRules .map (.custom Choice.unflatten) (.many [])).apply
        (.object tree.flatMembers)).value =
      ((Mapping.ofRules .map .all (.many [])).apply tree).value := by
  have isLeaves : (Json.object tree.flatMembers).leaves =
      tree.relativeLeaves.map fun leaf => ([leaf.1.expression], leaf.2) := by
    rw [Json.leaves_eq_relativeLeaves, Json.relativeLeaves, Json.memberLeaves_flatMembers regular]
  have back : ∀ leaf ∈ tree.relativeLeaves,
      Choice.unflatten [leaf.1.expression] = .path leaf.1 := by
    intro leaf inside
    rw [Choice.unflatten, Json.ofExpression_of_mem_relativeLeaves regular inside]
  have places : ∀ leaf ∈ (Json.object tree.flatMembers).leaves, (unflattened leaf).1 ≠ [] ∧
      (RuleSet.mk (.custom Choice.unflatten) []).verdict leaf.1 leaf.2 =
        .place (unflattened leaf).1 (unflattened leaf).2 := by
    intro flat inside
    rw [isLeaves] at inside
    rcases List.mem_map.mp inside with ⟨leaf, isListed, rfl⟩
    have nonempty := (regular.mem_relativeLeaves_iff.mp isListed).1
    simp only [unflattened, back leaf isListed]
    refine ⟨nonempty, ?_⟩
    simp [RuleSet.verdict, RuleSet.destination, ReferenceRule.target, back leaf isListed,
      Target.resolve, ValueRule.applyAll]
  have sameLeaves : (Json.object tree.flatMembers).leaves.map unflattened =
      tree.relativeLeaves := by
    rw [isLeaves, List.map_map]
    calc
      _ = tree.relativeLeaves.map id := by
        apply List.map_congr_left
        intro leaf inside
        simp only [Function.comp_apply, unflattened, back leaf inside, id]
      _ = tree.relativeLeaves := List.map_id _
  rw [value_apply_map rfl places, sameLeaves, value_apply_map_all container regular]

/-- Flattening a tree succeeds with one leaf for each leaf of the tree, and unflattening what it
gives comes to the same as a map that leaves every leaf at its path, be it a tree or a fault. -/
theorem unflatten_flatten {tree : Json} (container : tree.isContainer) (regular : tree.Regular) :
    ∃ flat, (
      (Mapping.ofRules .map (.custom Choice.flatten) (.many [])).apply tree).value = .ok flat ∧
      flat.Regular ∧
      flat.leaves = tree.leaves.map (fun leaf => ([leaf.1.expression], leaf.2)) ∧
      ((Mapping.ofRules .map (.custom Choice.unflatten) (.many [])).apply flat).value =
        ((Mapping.ofRules .map .all (.many [])).apply tree).value := by
  refine ⟨_, apply_flatten container regular, regular.flatMembers, ?_,
    apply_unflatten container regular⟩
  rw [Json.leaves_eq_relativeLeaves, Json.leaves_eq_relativeLeaves, Json.relativeLeaves,
    Json.memberLeaves_flatMembers regular]

/-- A tree that no map can copy, for an array takes the place of its inner object. -/
def blockedTree : Json := .array #[.object [("0", .null), ("a\\\"b", .bool true)]]

theorem unflatten_flatten_blockedTree :
    ∃ flat,
      ((Mapping.ofRules .map (.custom Choice.flatten) (.many [])).apply blockedTree).value =
          .ok flat ∧
        flat.Regular ∧ flat.leaves.length = 2 ∧
        ((Mapping.ofRules .map (.custom Choice.unflatten) (.many [])).apply flat).value =
          .error (.write (.blocked .array ["0"])) := by
  rcases @unflatten_flatten blockedTree rfl (by decide) with
    ⟨flat, isFlat, regular, isLeaves, unflattens⟩
  refine ⟨flat, isFlat, regular, ?_, unflattens.trans rfl⟩
  rw [isLeaves]
  rfl

end Mapping

end Graft
