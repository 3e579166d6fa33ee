import Graft.Proofs.Mapping.History
import Graft.Proofs.Tree.Lowering

/-!
# Leaves that a transform leaves alone

A transform spares a leaf if it neither takes the leaf out nor attempts a write at a path that is
not apart from it. Nothing that is done to the draft shows along the way to a spared leaf, and
finishing only moves it: its value ends up at its lowered path, and leaves that pass through one
array do not overtake each other there.
-/

namespace Graft

open KeyPath (Apart)

/-- The node at a path of a tree is as it was in the draft, and no slot at, above or below it is
vacated. -/
structure Draft.Passes (draft : Draft) (tree : Json) (path : KeyPath) : Prop where
  agree : Json.AgreeAlong path tree draft.root
  apart : ∀ slot ∈ draft.vacated, Apart slot path

theorem Draft.passes_ofTree {tree found : Json} {path : KeyPath}
    (leads : tree.get? path = some found) : (Draft.ofTree tree).Passes tree path where
  agree := .refl leads
  apart := fun slot isSlot => absurd isSlot (Draft.not_mem_vacated_ofTree tree slot)

/-- A node that a draft has passed by moves, when the draft is finished, from its path in the tree
to the lowered one. -/
theorem Draft.Passes.movesAlong {draft : Draft} {tree found : Json} {path : KeyPath}
    (passes : draft.Passes tree path) (leads : tree.get? path = some found) :
    Json.MovesAlong draft.drops path tree draft.finish :=
  passes.agree.movesAlong
    (Draft.movesAlong_finish passes.apart (passes.agree.get?_eq.trans leads))

namespace Edit

theorem passes_perform {draft : Draft} {tree found : Json} {path : KeyPath}
    (leads : tree.get? path = some found) (passes : draft.Passes tree path) {edit : Edit}
    (apart : Apart edit.path path) : (edit.perform draft).Passes tree path := by
  have present : draft.root.get? path = some found := passes.agree.get?_eq.trans leads
  cases edit with
  | remove removed =>
      refine ⟨passes.agree.trans (Draft.agreeAlong_remove present apart), ?_⟩
      intro slot isSlot
      rcases (draft.remove_spec removed).2 slot isSlot with wasSlot | rfl
      · exact passes.apart slot wasSlot
      · exact apart
  | write target value =>
      refine ⟨passes.agree.trans (Draft.agreeAlong_write passes.apart present apart value), ?_⟩
      intro slot isSlot
      exact passes.apart slot (Draft.mem_vacated_of_mem_vacated_write isSlot)

theorem passes_performAll {draft : Draft} {tree found : Json} {path : KeyPath}
    (leads : tree.get? path = some found) (passes : draft.Passes tree path) {edits : List Edit}
    (apart : ∀ edit ∈ edits, Apart edit.path path) : (performAll edits draft).Passes tree path := by
  induction edits generalizing draft with
  | nil => exact passes
  | cons edit edits ih =>
      rcases List.forall_mem_cons.mp apart with ⟨editApart, othersApart⟩
      exact ih (passes_perform leads passes editApart) othersApart

end Edit

namespace RuleSet

/-- What a transform attempts to do to a tree. -/
def history (rules : RuleSet) (tree : Json) : List Edit :=
  rules.edits tree.leafPaths (.ofTree tree)

/-- The draft of a transform before it is finished. -/
def lastDraft (rules : RuleSet) (tree : Json) : Draft :=
  Edit.performAll (rules.history tree) (.ofTree tree)

/-- A leaf is spared by a transform that does not take it out and attempts no write at a path that
is not apart from it. -/
structure Spares (rules : RuleSet) (tree : Json) (leaf : KeyPath × Json) : Prop where
  isLeaf : leaf ∈ tree.leaves
  stays : .remove leaf.1 ∉ rules.history tree
  clear : ∀ target revised, .write target revised ∈ rules.history tree → Apart target leaf.1

/-- A transform takes out only leaves that it visits. -/
theorem mem_of_remove_mem_edits {rules : RuleSet} {paths : List KeyPath} {draft : Draft}
    {path : KeyPath} (taken : .remove path ∈ rules.edits paths draft) : path ∈ paths := by
  induction paths generalizing draft with
  | nil => simp [edits] at taken
  | cons first others ih =>
      rw [edits, List.mem_append] at taken
      rcases taken with here | later
      · rcases rules.move_cases first draft with ⟨noEdits, _⟩ | ⟨_, _, _, _, twoEdits, _⟩
        · simp [noEdits] at here
        · rw [twoEdits] at here
          simp only [List.mem_cons, Edit.remove.injEq, reduceCtorEq, List.not_mem_nil, or_false]
            at here
          simp [here]
      · rcases moved : rules.move first draft with ⟨next, error | _⟩
        · simp [moved] at later
        · rw [moved] at later
          exact List.mem_cons_of_mem _ (ih later)

theorem leads_of_mem_leaves {tree : Json} (regular : tree.Regular) {leaf : KeyPath × Json}
    (isLeaf : leaf ∈ tree.leaves) : tree.get? leaf.1 = some leaf.2 ∧ leaf.2.isLeaf := by
  rw [Json.leaves_eq_relativeLeaves] at isLeaf
  exact (regular.mem_relativeLeaves_iff.mp isLeaf).2

/-- Every attempt of a transform is apart from a leaf that the transform spares. -/
theorem Spares.apart {rules : RuleSet} {tree : Json} {leaf : KeyPath × Json}
    (spares : rules.Spares tree leaf) (regular : tree.Regular) :
    ∀ edit ∈ rules.history tree, Apart edit.path leaf.1 := by
  intro edit inside
  cases edit with
  | remove path =>
      have differs : path ≠ leaf.1 := by
        rintro rfl
        exact spares.stays inside
      rcases List.mem_map.mp (mem_of_remove_mem_edits inside) with ⟨other, isOther, rfl⟩
      rcases leads_of_mem_leaves regular spares.isLeaf with ⟨leads, isLeaf⟩
      rcases leads_of_mem_leaves regular isOther with ⟨otherLeads, otherIsLeaf⟩
      constructor
      · intro above
        exact differs (Json.eq_of_prefix_of_isLeaf otherLeads otherIsLeaf above leads).symm
      · intro above
        exact differs (Json.eq_of_prefix_of_isLeaf leads isLeaf above otherLeads)
  | write target revised => exact spares.clear target revised inside

theorem Spares.movesAlong {rules : RuleSet} {tree : Json} {leaf : KeyPath × Json}
    (spares : rules.Spares tree leaf) (container : tree.isContainer) (regular : tree.Regular) :
    (rules.lastDraft tree).Passes tree leaf.1 ∧
      Json.MovesAlong (rules.lastDraft tree).drops leaf.1 tree (rules.transform tree).value.1 := by
  rcases leads_of_mem_leaves regular spares.isLeaf with ⟨leads, _⟩
  have passes : (rules.lastDraft tree).Passes tree leaf.1 :=
    Edit.passes_performAll leads (Draft.passes_ofTree leads) (spares.apart regular)
  refine ⟨passes, ?_⟩
  rw [rules.transform_eq_performAll_edits container]
  exact passes.movesAlong leads

/-- Where a transform leaves the node at a path of a tree, if it spares the node: at each array on
the way the position is lowered by the number of earlier items that finishing dropped. -/
def newPath (rules : RuleSet) (tree : Json) (path : KeyPath) : KeyPath :=
  tree.lowered (rules.lastDraft tree).drops path

/-- A spared leaf has its value at its new path, whether or not the transform fails; and of two
spared leaves that lie in the same array, at whatever depth, the one that came first there still
does. -/
theorem get?_transform_of_spared (rules : RuleSet) {tree : Json} (container : tree.isContainer)
    (regular : tree.Regular) :
    (∀ leaf, rules.Spares tree leaf →
        (rules.transform tree).value.1.get? (rules.newPath tree leaf.1) = some leaf.2) ∧
      ∀ array firstKey firstRest firstValue secondKey secondRest secondValue first second,
        rules.Spares tree (array ++ firstKey :: firstRest, firstValue) →
        rules.Spares tree (array ++ secondKey :: secondRest, secondValue) →
        (tree.get? array).any Json.isArray →
        arrayIndex? firstKey = some first → arrayIndex? secondKey = some second →
        first < second →
          ∃ (newFirst newSecond : Nat) (newFirstRest newSecondRest : KeyPath),
            newFirst < newSecond ∧
            ((rules.transform tree).value.1.get? (rules.newPath tree array)).any Json.isArray ∧
            rules.newPath tree (array ++ firstKey :: firstRest) =
              rules.newPath tree array ++ toString newFirst :: newFirstRest ∧
            rules.newPath tree (array ++ secondKey :: secondRest) =
              rules.newPath tree array ++ toString newSecond :: newSecondRest := by
  constructor
  · intro leaf spares
    rcases spares.movesAlong container regular with ⟨_, moves⟩
    exact moves.get?_eq (leads_of_mem_leaves regular spares.isLeaf).1
  · intro array firstKey firstRest firstValue secondKey secondRest secondValue first second
      firstSpared secondSpared isArray firstSpelled secondSpelled before
    rcases (Option.any_eq_true _ _).mp isArray with ⟨inner, leads, innerIsArray⟩
    rcases firstSpared.movesAlong container regular with ⟨passes, moves⟩
    rcases moves.prefix leads with ⟨moved, isMoved, sameKind, _⟩
    rcases Json.exists_lowered_append leads innerIsArray firstSpelled firstRest with
      ⟨newFirstRest, firstLowered⟩
    rcases Json.exists_lowered_append leads innerIsArray secondSpelled secondRest with
      ⟨newSecondRest, secondLowered⟩
    have through : array ++ firstKey :: firstRest = array ++ toString first :: firstRest := by
      rw [(arrayIndex?_eq_some_iff.mp firstSpelled).2]
    have kept : (rules.lastDraft tree).drops array first = false :=
      Draft.drops_eq_false passes.apart through
    refine ⟨_, _, newFirstRest, newSecondRest, Json.loweredPosition_lt kept before, ?_,
      firstLowered, secondLowered⟩
    rw [newPath, isMoved, Option.any_some, ← sameKind]
    exact innerIsArray

/-- Rules that move an item of an outer array, an item of an array inside it, and then a leaf to a
place that turns out to be blocked. -/
def thinningRules : RuleSet where
  reference := .firstOf [.exact ["list", "0"] ["first"], .exact ["list", "2", "0"] ["second"],
    .exact ["note"] ["first", "note"]]
  values := []

/-- An array inside an array, with two leaves that no rule matches. -/
def thinningTree : Json :=
  .object [("list", .array #[.bool true, .bool false,
    .array #[.null, .string "one", .string "two"]]), ("note", .null)]

theorem get?_transform_thinningTree :
    (thinningRules.transform thinningTree).value.2 = .error (.write (.blocked .leaf ["first"])) ∧
      thinningRules.newPath thinningTree ["list", "2", "1"] = ["list", "1", "0"] ∧
      (thinningRules.transform thinningTree).value.1.get? ["list", "1", "0"] =
        some (.string "one") ∧
      ∃ (newFirst newSecond : Nat) (newFirstRest newSecondRest : KeyPath),
        newFirst < newSecond ∧
        ((thinningRules.transform thinningTree).value.1.get?
          (thinningRules.newPath thinningTree ["list"])).any Json.isArray ∧
        thinningRules.newPath thinningTree ["list", "1"] =
          thinningRules.newPath thinningTree ["list"] ++ toString newFirst :: newFirstRest ∧
        thinningRules.newPath thinningTree ["list", "2", "1"] =
          thinningRules.newPath thinningTree ["list"] ++ toString newSecond :: newSecondRest := by
  have history : thinningRules.history thinningTree =
      [.remove ["list", "0"], .write ["first"] (.bool true), .remove ["list", "2", "0"],
        .write ["second"] .null, .remove ["note"], .write ["first", "note"] .null] := rfl
  have targets : ∀ target revised, .write target revised ∈ thinningRules.history thinningTree →
      target = ["first"] ∨ target = ["second"] ∨ target = ["first", "note"] := by
    intro target revised inside
    simp only [history, List.mem_cons, Edit.write.injEq, reduceCtorEq, List.not_mem_nil, false_or,
      or_false] at inside
    exact inside.imp And.left (Or.imp And.left And.left)
  have innerSpared : thinningRules.Spares thinningTree (["list", "2", "1"], .string "one") := by
    refine ⟨by decide, by simp [history], ?_⟩
    intro target revised inside
    rcases targets target revised inside with rfl | rfl | rfl <;> simp [Apart]
  have outerSpared : thinningRules.Spares thinningTree (["list", "1"], .bool false) := by
    refine ⟨by decide, by simp [history], ?_⟩
    intro target revised inside
    rcases targets target revised inside with rfl | rfl | rfl <;> simp [Apart]
  have newPath : thinningRules.newPath thinningTree ["list", "2", "1"] = ["list", "1", "0"] := by
    decide
  rcases @get?_transform_of_spared thinningRules thinningTree rfl (by decide) with
    ⟨lands, keepsOrder⟩
  refine ⟨rfl, newPath, ?_, ?_⟩
  · rw [← newPath]
    exact lands _ innerSpared
  · exact keepsOrder ["list"] "1" [] (.bool false) "2" ["1"] (.string "one") 1 2 outerSpared
      innerSpared rfl (by decide) (by decide) (by decide)

end RuleSet

end Graft
