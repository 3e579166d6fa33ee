import Graft.Proofs.Mapping.History
import Graft.Proofs.Tree.Slots

/-!
# The vacated slots of a transform

A transform takes out leaves one after the other, and each is written elsewhere before the next one
is visited. As long as no step fails, the slots that it has noted as vacated are leaves it has
visited, and they are still empty items of arrays. So a transform never comes to a leaf whose slot
it has vacated before, and what a write begins anew on its way is never a member of an object.
-/

namespace Graft.RuleSet

theorem keptByMoves_orderly : KeptByMoves Draft.Orderly where
  remove orderly leads isLeaf notVacated := orderly.remove leads isLeaf notVacated
  write orderly success := orderly.write success

theorem mem_vacated_of_move {rules : RuleSet} {path slot : KeyPath} {draft : Draft}
    (isSlot : slot ∈ (rules.move path draft).1.vacated) : slot ∈ draft.vacated ∨ slot = path := by
  rcases rules.move_cases path draft with ⟨_, unchanged⟩ | ⟨_, target, revised, _, _, placed⟩
  · rw [unchanged] at isSlot
    exact Or.inl isSlot
  · rw [placed] at isSlot
    have leftBehind := Draft.mem_vacated_of_mem_vacated_write isSlot
    exact (draft.remove_spec path).2 slot leftBehind

/-- A run vacates no other slots than those of the paths that it is given. -/
theorem mem_vacated_of_runSteps {rules : RuleSet} {paths : List KeyPath} {slot : KeyPath}
    {draft : Draft} (isSlot : slot ∈ (runSteps rules.move paths draft).1.vacated) :
    slot ∈ draft.vacated ∨ slot ∈ paths := by
  induction paths generalizing draft with
  | nil => exact Or.inl isSlot
  | cons path others ih =>
      have step (here : slot ∈ (rules.move path draft).1.vacated) :
          slot ∈ draft.vacated ∨ slot ∈ path :: others :=
        (mem_vacated_of_move here).imp_right fun same => List.mem_cons.mpr (Or.inl same)
      rw [runSteps] at isSlot
      rcases moved : rules.move path draft with ⟨next, error | _⟩
      · rw [moved] at isSlot step
        exact step isSlot
      · rw [moved] at isSlot step
        rcases ih isSlot with before | later
        · exact step before
        · exact Or.inr (List.mem_cons_of_mem _ later)

/-- Between two steps of a transform, as long as none has failed, every vacated slot is the path of
a leaf that was visited and an item of an array that holds `null`, no slot is inside another, and no
leaf that is still to be visited has its slot vacated. No write of the transform, also of a step
that fails, begins a member of an object anew. -/
theorem slots_of_transform (rules : RuleSet) {tree : Json} (regular : tree.Regular) :
    (∀ visited remaining progress, tree.leafPaths = visited ++ remaining →
      rules.moveLeaves visited { draft := .ofTree tree } = .ok ⟨⟩ progress →
        (∀ slot ∈ progress.draft.vacated,
          slot ∈ visited ∧ progress.draft.root.IsEmptySlot slot ∧
            ∀ other ∈ progress.draft.vacated, slot <+: other → other = slot) ∧
        ∀ path ∈ remaining, progress.draft.isVacated path = false) ∧
      ∀ before target value after,
        rules.edits tree.leafPaths (.ofTree tree) = before ++ .write target value :: after →
          ¬(Edit.performAll before (.ofTree tree)).RevivesMember target := by
  have initially := Draft.orderly_ofTree tree
  constructor
  · intro visited remaining progress listed reached
    have run := outcomeOf_moveLeaves rules visited { draft := .ofTree tree }
    rw [reached] at run
    have orderly : progress.draft.Orderly :=
      keptByMoves_orderly.of_runSteps rules initially run.symm
    have wasVisited : ∀ slot ∈ progress.draft.vacated, slot ∈ visited := by
      intro slot isSlot
      have isLast : progress.draft = (runSteps rules.move visited (.ofTree tree)).1 :=
        congrArg Prod.fst run
      rw [isLast] at isSlot
      exact (mem_vacated_of_runSteps isSlot).resolve_left (Draft.not_mem_vacated_ofTree tree slot)
    refine ⟨?_, ?_⟩
    · intro slot isSlot
      exact ⟨wasVisited slot isSlot, orderly slot isSlot,
        fun other isOther above => orderly.eq_of_prefix isSlot isOther above⟩
    · intro path isNext
      have distinct := regular.nodup_leafPaths
      rw [listed] at distinct
      apply Bool.eq_false_iff.mpr
      intro vacated
      exact (List.nodup_append.mp distinct).2.2 path (wasVisited path vacated) path isNext rfl
  · intro before target value after history
    exact (keptByMoves_orderly.of_edits_eq rules initially history).not_revivesMember target

/-- Rules that move an item out of its array, and an item of an inner array through the slot that
the first one has left. -/
def refillRules : RuleSet where
  reference := .firstOf [.exact ["list", "0"] ["first"],
    .exact ["list", "1", "0"] ["list", "0", "kept"]]
  values := []

/-- An array that holds another one. -/
def refillTree : Json :=
  .object [("list", .array #[.bool true, .array #[.bool false, .null]]), ("note", .null)]

theorem slots_of_transform_refillTree :
    ∃ progress,
      refillRules.moveLeaves [["list", "0"], ["list", "1", "0"]] { draft := .ofTree refillTree } =
          .ok ⟨⟩ progress ∧
        ["list", "1", "0"] ∈ progress.draft.vacated ∧
        progress.draft.root.IsEmptySlot ["list", "1", "0"] ∧
        progress.draft.isVacated ["list", "1", "1"] = false ∧
        ¬(Edit.performAll
            [.remove ["list", "0"], .write ["first"] (.bool true), .remove ["list", "1", "0"]]
            (.ofTree refillTree)).RevivesMember ["list", "0", "kept"] := by
  rcases @slots_of_transform refillRules refillTree (by decide) with ⟨between, never⟩
  rcases between [["list", "0"], ["list", "1", "0"]] [["list", "1", "1"], ["note"]] _ rfl rfl with
    ⟨slots, free⟩
  refine ⟨_, rfl, by decide, (slots _ (by decide)).2.1, free _ (by simp), ?_⟩
  exact never _ _ (.bool false) [] rfl

end Graft.RuleSet
