import Graft.Proofs.Mapping.Run
import Graft.Proofs.Tree.Finish

/-!
# What a transform has written stays written

The history of a transform lists what it attempts to do to its draft: it takes out a leaf, and then
it writes the leaf's new value. The tree that a transform gives is the one that its history makes.
The draft is settled before every attempt, so a write that succeeds has its value kept until a later
attempt comes to a path that is not apart from the target, and finishing keeps it as well.
-/

namespace Graft

open KeyPath (Apart)

/-- What a transform attempts to do to its draft. -/
inductive Edit where
  /-- Taking out the leaf at a path. -/
  | remove (path : KeyPath)
  /-- Writing a value at a target. -/
  | write (target : KeyPath) (value : Json)
deriving DecidableEq

namespace Edit

/-- The path that an edit is about. -/
def path : Edit → KeyPath
  | .remove path => path
  | .write target _ => target

/-- The draft after an attempt. -/
def perform : Edit → Draft → Draft
  | .remove path, draft => (draft.remove path).1
  | .write target value, draft => (draft.write target value).1

/-- The draft after one attempt after the other. -/
def performAll (edits : List Edit) (draft : Draft) : Draft :=
  edits.foldl (fun draft edit => edit.perform draft) draft

theorem performAll_append (first second : List Edit) (draft : Draft) :
    performAll (first ++ second) draft = performAll second (performAll first draft) :=
  List.foldl_append

end Edit

namespace RuleSet

/-- What a transform attempts when it comes to a path. -/
def editsAt (rules : RuleSet) (path : KeyPath) (draft : Draft) : List Edit :=
  match leafAt? draft path with
  | none => []
  | some value =>
      match rules.verdict path value with
      | .fault _ => []
      | .decline => []
      | .place target revised => [.remove path, .write target revised]

/-- What a transform attempts on the way through a list of paths; a failure ends it. -/
def edits (rules : RuleSet) : List KeyPath → Draft → List Edit
  | [], _ => []
  | path :: others, draft =>
      rules.editsAt path draft ++
        match rules.move path draft with
        | (next, .ok _) => edits rules others next
        | (_, .error _) => []

/-- A step either leaves the draft as it is, or takes out a leaf and attempts one write. -/
theorem move_cases (rules : RuleSet) (path : KeyPath) (draft : Draft) :
    (rules.editsAt path draft = [] ∧ (rules.move path draft).1 = draft) ∨
      ∃ value target revised, leafAt? draft path = some value ∧
        rules.editsAt path draft = [.remove path, .write target revised] ∧
        rules.move path draft = placeLeaf (draft.remove path).1 target revised := by
  simp only [editsAt, move]
  rcases leafAt? draft path with _ | value
  · exact Or.inl ⟨rfl, rfl⟩
  · simp only
    rcases rules.verdict path value with error | _ | ⟨target, revised⟩
    · exact Or.inl ⟨rfl, rfl⟩
    · exact Or.inl ⟨rfl, rfl⟩
    · exact Or.inr ⟨value, target, revised, rfl, rfl, rfl⟩

theorem performAll_editsAt (rules : RuleSet) (path : KeyPath) (draft : Draft) :
    Edit.performAll (rules.editsAt path draft) draft = (rules.move path draft).1 := by
  rcases rules.move_cases path draft with ⟨noEdits, unchanged⟩ | ⟨_, _, _, _, twoEdits, moved⟩
  · rw [noEdits, unchanged]
    rfl
  · rw [twoEdits, moved]
    rfl

theorem performAll_edits (rules : RuleSet) (paths : List KeyPath) (draft : Draft) :
    Edit.performAll (rules.edits paths draft) draft = (runSteps rules.move paths draft).1 := by
  induction paths generalizing draft with
  | nil => rfl
  | cons path others ih =>
      have step := rules.performAll_editsAt path draft
      rw [edits, Edit.performAll_append, step, runSteps]
      rcases rules.move path draft with ⟨next, error | _⟩
      · rfl
      · exact ih next

/-- A transform gives the tree that its history makes, whether or not it fails. -/
theorem transform_eq_performAll_edits (rules : RuleSet) {tree : Json}
    (container : tree.isContainer) :
    (rules.transform tree).value.1 =
      (Edit.performAll (rules.edits tree.leafPaths (.ofTree tree)) (.ofTree tree)).finish := by
  rw [performAll_edits, value_transform rules container]

theorem leafAt?_eq_some_iff {draft : Draft} {path : KeyPath} {value : Json} :
    leafAt? draft path = some value ↔
      path ∉ draft.vacated ∧ draft.root.get? path = some value ∧ value.isLeaf := by
  simp only [leafAt?, Draft.isVacated]
  by_cases vacated : path ∈ draft.vacated
  · simp [vacated]
  · simp [vacated, Option.filter_eq_some_iff]

/-- A property of drafts that a transform does not end, because neither taking out a leaf does nor a
write that succeeds. -/
structure KeptByMoves (holds : Draft → Prop) : Prop where
  remove {draft : Draft} {path : KeyPath} {leaf : Json} : holds draft →
    draft.root.get? path = some leaf → leaf.isLeaf → path ∉ draft.vacated →
      holds (draft.remove path).1
  write {draft changed : Draft} {target : KeyPath} {value : Json} : holds draft →
    draft.write target value = (changed, .ok ()) → holds changed

namespace KeptByMoves

variable {holds : Draft → Prop} (kept : KeptByMoves holds) (rules : RuleSet)
include kept

theorem of_move {path : KeyPath} {draft next : Draft} (initially : holds draft)
    (moved : rules.move path draft = (next, .ok ())) : holds next := by
  rcases rules.move_cases path draft with
    ⟨_, unchanged⟩ | ⟨value, target, revised, found, _, placed⟩
  · rw [moved] at unchanged
    cases unchanged
    exact initially
  · rcases leafAt?_eq_some_iff.mp found with ⟨notVacated, leads, isLeaf⟩
    rw [placed] at moved
    exact kept.write (kept.remove initially leads isLeaf notVacated) (write_of_placeLeaf moved)

/-- The property holds between two steps, as long as none has failed. -/
theorem of_runSteps {paths : List KeyPath} {draft next : Draft} (initially : holds draft)
    (reached : runSteps rules.move paths draft = (next, .ok ())) : holds next := by
  induction paths generalizing draft with
  | nil =>
      cases reached
      exact initially
  | cons path others ih =>
      rw [runSteps] at reached
      rcases moved : rules.move path draft with ⟨middle, error | _⟩
      · simp [moved] at reached
      · rw [moved] at reached
        exact ih (kept.of_move rules initially moved) reached

/-- The property holds before every attempt, also before those of a step that fails. -/
theorem of_edits_eq {paths : List KeyPath} {draft : Draft} {before after : List Edit} {edit : Edit}
    (initially : holds draft) (history : rules.edits paths draft = before ++ edit :: after) :
    holds (Edit.performAll before draft) := by
  induction paths generalizing draft before with
  | nil => simp [edits] at history
  | cons path others ih =>
      rw [edits] at history
      rcases rules.move_cases path draft with
        ⟨noEdits, unchanged⟩ | ⟨value, target, revised, found, twoEdits, moved⟩
      · rw [noEdits, List.nil_append] at history
        rcases moved : rules.move path draft with ⟨next, error | _⟩
        · simp [moved] at history
        · rw [moved] at history unchanged
          cases unchanged
          exact ih initially history
      · rcases leafAt?_eq_some_iff.mp found with ⟨notVacated, leads, isLeaf⟩
        have taken := kept.remove initially leads isLeaf notVacated
        rw [twoEdits, moved] at history
        rcases before with _ | ⟨first, _ | ⟨second, before⟩⟩
        · exact initially
        · cases history
          exact taken
        · simp only [List.cons_append, List.nil_append, List.cons.injEq] at history
          rcases history with ⟨rfl, rfl, later⟩
          rcases success : (draft.remove path).1.write target revised with ⟨next, error | _⟩
          · simp [placeLeaf_of_error success] at later
          · rw [placeLeaf_of_ok success] at later
            have further := ih (kept.write taken success) later
            simpa [Edit.performAll, Edit.perform, success] using further

end KeptByMoves

theorem keptByMoves_settled : KeptByMoves Draft.Settled where
  remove settled leads isLeaf notVacated := settled.remove leads isLeaf notVacated
  write settled success := settled.write success

/-- The draft is settled before every attempt. -/
theorem settled_of_edits_eq (rules : RuleSet) {paths : List KeyPath} {draft : Draft}
    {before after : List Edit} {edit : Edit} (settled : draft.Settled)
    (history : rules.edits paths draft = before ++ edit :: after) :
    (Edit.performAll before draft).Settled :=
  keptByMoves_settled.of_edits_eq rules settled history

theorem keeps_performAll {draft : Draft} {target : KeyPath} {value : Json} (edits : List Edit)
    (keeps : draft.Keeps target value) (untouched : ∀ edit ∈ edits, Apart edit.path target) :
    (Edit.performAll edits draft).Keeps target value := by
  induction edits generalizing draft with
  | nil => exact keeps
  | cons edit edits ih =>
      rcases List.forall_mem_cons.mp untouched with ⟨apart, others⟩
      refine ih ?_ others
      cases edit with
      | remove path => exact keeps.remove apart
      | write path revised => exact keeps.write apart revised

/-- What a transform wrote is in the final tree where it was written, unless a later attempt came to
a path that is not apart from the target. -/
theorem get?_transform_of_written (rules : RuleSet) {tree : Json} (container : tree.isContainer)
    {before after : List Edit} {target : KeyPath} {value : Json}
    (history : rules.edits tree.leafPaths (.ofTree tree) = before ++ .write target value :: after)
    (success : ((Edit.performAll before (.ofTree tree)).write target value).2 = .ok ())
    (untouched : ∀ edit ∈ after, Apart edit.path target) :
    (rules.transform tree).value.1.get? target = some value := by
  have settled := rules.settled_of_edits_eq (Draft.settled_ofTree tree) history
  have keeps : (Edit.perform (.write target value)
      (Edit.performAll before (.ofTree tree))).Keeps target value :=
    settled.keeps_of_write (Prod.ext rfl success)
  rw [rules.transform_eq_performAll_edits container, history, Edit.performAll_append]
  exact (keeps_performAll after keeps untouched).get?_finish

/-- Rules that move an item further back in its array, and another leaf to a place of its own. -/
def shiftRules : RuleSet where
  reference := .firstOf [.exact ["list", "0"] ["list", "2"], .exact ["note"] ["remark"]]
  values := []

/-- A tree in which the array keeps its vacated slot, for a later position is written. -/
def shiftTree : Json :=
  .object [("list", .array #[.bool true, .bool false, .null]), ("note", .null)]

theorem get?_transform_shiftTree :
    (shiftRules.transform shiftTree).value.1.get? ["list", "2"] = some (.bool true) := by
  have history : shiftRules.edits shiftTree.leafPaths (.ofTree shiftTree) =
      [.remove ["list", "0"]] ++ .write ["list", "2"] (.bool true) ::
        [.remove ["note"], .write ["remark"] .null] := rfl
  exact shiftRules.get?_transform_of_written rfl history rfl (by simp [Edit.path, Apart])

end RuleSet

end Graft
