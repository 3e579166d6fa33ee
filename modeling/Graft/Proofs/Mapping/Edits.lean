import Graft.Proofs.Mapping.History
import Graft.Proofs.Tree.Settling

/-!
# What lasts of any sequence of edits

A transform only ever takes out leaves. A draft on its own may also have whole containers taken out,
and then a slot that was vacated inside one is not forgotten: if a write puts a new container in the
same place, finishing drops the item that has come to lie in the slot. A written value that has no
such slot inside it lasts, whatever was taken out before, until an attempt comes to a path that is
not apart from it. Tidy attempts leave no such slots, and keep the draft settled.
-/

namespace Graft

open KeyPath (Apart)

namespace Json

theorem takeChild_of_child?_eq_none {key : String} {node : Json}
    (missing : node.child? key = none) :
    takeChild key node = (node, none) := by
  cases node with
  | object members =>
      rw [child?] at missing
      simp only [takeChild, missing]
  | array items =>
      rcases spelled : arrayIndex? key with _ | position
      · simp only [takeChild, spelled]
      · have outside : ¬position < items.size := by
          simpa [child?, spelled] using missing
        simp [takeChild, spelled, changeItem, outside]
  | null => rfl
  | bool value => rfl
  | number value => rfl
  | string text => rfl

/-- Where there is nothing to take out, nothing changes. -/
theorem changeAt_takeChild_of_get?_eq_none {key : String} {parent : KeyPath} {node : Json}
    (missing : node.get? (parent ++ [key]) = none) :
    changeAt (takeChild key) parent node = (node, none) := by
  induction parent generalizing node with
  | nil =>
      rw [List.nil_append, get?_cons, Option.bind_eq_none_iff] at missing
      apply takeChild_of_child?_eq_none
      rcases isChild : node.child? key with _ | child
      · rfl
      · exact absurd (missing child isChild) (by simp [get?])
  | cons first parent ih =>
      rw [List.cons_append, get?_cons, Option.bind_eq_none_iff] at missing
      rcases changeChild_spec first (changeAt (takeChild key) parent) node with ⟨_, _, _, told⟩
      have unchanged : (changeChild first (changeAt (takeChild key) parent) node).1 = node := by
        calc
          (changeChild first (changeAt (takeChild key) parent) node).1
            = (changeChild first (fun child => (child, ())) node).1 :=
              changeChild_congr fun child isChild => by rw [ih (missing child isChild)]
          _ = node := changeChild_self first node
      refine Prod.ext unchanged ?_
      change (changeChild first (changeAt (takeChild key) parent) node).2.join = none
      rw [told]
      rcases isChild : node.child? first with _ | child
      · rfl
      · rw [Option.map_some, ih (missing child isChild)]
        rfl

end Json

namespace Draft

theorem remove_of_get?_eq_none {draft : Draft} {path : KeyPath}
    (missing : draft.root.get? path = none) : draft.remove path = (draft, none) := by
  rcases List.eq_nil_or_concat path with rfl | ⟨parent, key, isConcat⟩
  · rfl
  · rw [List.concat_eq_append] at isConcat
    subst isConcat
    simp only [remove, splitLast?_append, Json.changeAt_takeChild_of_get?_eq_none missing]

/-- A removal tells what was there, and tells nothing of the root. -/
theorem snd_remove (draft : Draft) (path : KeyPath) :
    (draft.remove path).2 = if path = [] then none else draft.root.get? path := by
  rcases leads : draft.root.get? path with _ | found
  · rw [remove_of_get?_eq_none leads, ite_self]
  · rcases List.eq_nil_or_concat path with rfl | ⟨parent, key, isConcat⟩
    · rfl
    · rw [List.concat_eq_append] at isConcat
      subst isConcat
      have nonempty : parent ++ [key] ≠ [] := by simp
      rcases Json.changeAt_takeChild_spec leads with ⟨taken, _⟩
      rw [if_neg nonempty]
      simp only [remove, splitLast?_append, taken]

theorem remove_of_none {draft : Draft} {path : KeyPath} (nothing : (draft.remove path).2 = none) :
    (draft.remove path).1 = draft := by
  rw [snd_remove] at nothing
  by_cases isRoot : path = []
  · rw [isRoot]
    rfl
  · rw [if_neg isRoot] at nothing
    rw [remove_of_get?_eq_none nothing]

end Draft

namespace Edit

/-- An attempt passes a target by if its path is apart from the target, or if there is nothing for
it to take out. -/
def Spares (target : KeyPath) (draft : Draft) : Edit → Prop
  | .remove path => Apart path target ∨ (draft.remove path).2 = none
  | .write path _ => Apart path target

/-- An attempt is tidy if it takes out neither a vacated slot nor a container with one inside, or if
it is a write that succeeds. -/
def Tidy (draft : Draft) : Edit → Prop
  | .remove path => ∀ slot ∈ draft.vacated, ¬path <+: slot
  | .write target value => (draft.write target value).2 = .ok ()

/-- Every attempt meets a condition on the draft that it comes to. -/
def Throughout (condition : Draft → Edit → Prop) : List Edit → Draft → Prop
  | [], _ => True
  | edit :: edits, draft => condition draft edit ∧ Throughout condition edits (edit.perform draft)

theorem performAll_invariant {condition : Draft → Edit → Prop} {invariant : Draft → Prop}
    (step : ∀ draft edit, invariant draft → condition draft edit → invariant (edit.perform draft))
    {edits : List Edit} {draft : Draft} (initially : invariant draft)
    (throughout : Throughout condition edits draft) : invariant (performAll edits draft) := by
  induction edits generalizing draft with
  | nil => exact initially
  | cons edit edits ih =>
      rcases throughout with ⟨now, later⟩
      exact ih (step draft edit initially now) later

theorem keeps_perform {draft : Draft} {target : KeyPath} {value : Json}
    (keeps : draft.Keeps target value) {edit : Edit} (spares : edit.Spares target draft) :
    (edit.perform draft).Keeps target value := by
  cases edit with
  | remove path =>
      rcases spares with apart | nothing
      · exact keeps.remove apart
      · rw [perform, Draft.remove_of_none nothing]
        exact keeps
  | write path revised => exact keeps.write spares revised

theorem settled_perform {draft : Draft} (settled : draft.Settled) {edit : Edit}
    (tidy : edit.Tidy draft) : (edit.perform draft).Settled := by
  cases edit with
  | remove path =>
      rcases leads : draft.root.get? path with _ | found
      · rw [perform, Draft.remove_of_get?_eq_none leads]
        exact settled
      · exact settled.remove_of_clear leads tidy
  | write target value => exact settled.write (Prod.ext rfl tidy)

theorem ne_nil_of_mem_vacated_perform {draft : Draft}
    (belowRoot : ∀ slot ∈ draft.vacated, slot ≠ []) (edit : Edit) :
    ∀ slot ∈ (edit.perform draft).vacated, slot ≠ [] := by
  intro slot isSlot
  cases edit with
  | remove path =>
      rcases List.eq_nil_or_concat path with rfl | ⟨parent, key, isConcat⟩
      · exact belowRoot slot isSlot
      · rw [List.concat_eq_append] at isConcat
        subst isConcat
        rcases ((draft.remove_append parent key).2.2 slot).mp isSlot with wasSlot | ⟨_, rfl⟩
        · exact belowRoot slot wasSlot
        · simp
  | write path value => exact belowRoot slot (Draft.mem_vacated_of_mem_vacated_write isSlot)

theorem ne_nil_of_mem_vacated_performAll (tree : Json) (edits : List Edit) :
    ∀ slot ∈ (performAll edits (.ofTree tree)).vacated, slot ≠ [] := by
  have noSlots : ∀ slot ∈ (Draft.ofTree tree).vacated, slot ≠ [] :=
    fun slot isSlot => absurd isSlot (Draft.not_mem_vacated_ofTree tree slot)
  generalize Draft.ofTree tree = draft at noSlots
  induction edits generalizing draft with
  | nil => exact noSlots
  | cons edit edits ih => exact ih _ (ne_nil_of_mem_vacated_perform noSlots edit)

theorem get?_finish_of_keeps {draft : Draft} {before after : List Edit} {target : KeyPath}
    {value : Json} (keeps : ((performAll before draft).write target value).1.Keeps target value)
    (spared : Throughout (Spares target) after ((performAll before draft).write target value).1) :
    (performAll (before ++ .write target value :: after) draft).finish.get? target =
      some value := by
  have step : ∀ draft edit, Draft.Keeps draft target value → Spares target draft edit →
      (edit.perform draft).Keeps target value := fun _ _ keeps spares => keeps_perform keeps spares
  rw [performAll_append]
  exact (performAll_invariant step keeps spared).get?_finish

/-- A value that was written lasts to the finished tree if the write leaves no vacated slot inside
it and all later attempts pass it by. -/
theorem get?_finish_performAll {tree : Json} {before after : List Edit} {target : KeyPath}
    {value : Json} (success : ((performAll before (.ofTree tree)).write target value).2 = .ok ())
    (noneInside : ∀ slot ∈ ((performAll before (.ofTree tree)).write target value).1.vacated,
      ¬target <+: slot)
    (spared : Throughout (Spares target) after
      ((performAll before (.ofTree tree)).write target value).1) :
    (performAll (before ++ .write target value :: after) (.ofTree tree)).finish.get? target =
      some value := by
  have written : (performAll before (.ofTree tree)).write target value =
      (((performAll before (.ofTree tree)).write target value).1, .ok ()) := Prod.ext rfl success
  apply get?_finish_of_keeps (Draft.keeps_of_write written _) spared
  intro slot isSlot
  refine ⟨?_, noneInside slot isSlot⟩
  -- The write has revived every slot on its way.
  intro above
  rcases (Draft.write_ok written).2 with ⟨_, _, vacated, _⟩
  rcases (vacated slot).mp isSlot with ⟨wasSlot, notRevived, _⟩
  exact notRevived slot (ne_nil_of_mem_vacated_performAll tree before slot wasSlot) above rfl

/-- A tree in which two arrays have something taken out. -/
def shelfTree : Json :=
  .object [("list", .array #[.bool true, .bool false]), ("note", .array #[.null])]

theorem get?_finish_shelfTree :
    (performAll
        ([.remove ["list", "0"], .remove ["note"]] ++ .write ["note"] (.array #[.bool true]) ::
          [.remove ["note", "7"], .write ["list", "1"] .null])
        (.ofTree shelfTree)).finish.get? ["note"] =
      some (.array #[.bool true]) := by
  apply get?_finish_performAll
  · rfl
  · intro slot isSlot
    rw [← Std.TreeSet.mem_toList] at isSlot
    revert slot
    decide
  · exact ⟨Or.inr rfl, by simp [Spares, Apart], trivial⟩

/-- A slot inside a container that was taken out is not forgotten, and costs the array written in
its place an item. -/
theorem get?_finish_of_forgotten_slot :
    let draft := performAll [.remove ["list", "0"], .remove ["list"]] (.ofTree shelfTree)
    let value := .array #[.bool true, .bool false]
    (draft.write ["list"] value).2 = .ok () ∧
      (performAll [.write ["list"] value] draft).finish.get? ["list"] =
        some (.array #[.bool false]) :=
  ⟨rfl, rfl⟩

/-- After tidy attempts, every value that is written lasts until an attempt comes to a path that is
not apart from it. -/
theorem get?_finish_of_tidy {tree : Json} {before after : List Edit} {target : KeyPath}
    {value : Json} (tidy : Throughout Tidy before (.ofTree tree))
    (success : ((performAll before (.ofTree tree)).write target value).2 = .ok ())
    (spared : Throughout (Spares target) after
      ((performAll before (.ofTree tree)).write target value).1) :
    (performAll (before ++ .write target value :: after) (.ofTree tree)).finish.get? target =
      some value := by
  have step : ∀ draft edit, Draft.Settled draft → Tidy draft edit → (edit.perform draft).Settled :=
    fun _ _ settled tidy => settled_perform settled tidy
  have settled := performAll_invariant step (Draft.settled_ofTree tree) tidy
  exact get?_finish_of_keeps (settled.keeps_of_write (Prod.ext rfl success)) spared

end Edit

end Graft
