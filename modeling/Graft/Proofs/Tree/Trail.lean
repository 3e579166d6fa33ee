import Graft.Proofs.Tree.Leaves

/-!
# What a walk does and where it stands

A walk visits the leaves of the tree, each with its path, in the order in which they are listed. The
first visit that fails ends it with that failure; if none fails, the walk succeeds with the state
that the last visit left.

A walk need not be told the path of every node. It can keep one path, put a key at its end before it
goes down to a child and take the key off on its way back, whether or not a visit below has failed.
This is the same walk, and its path is always back to what it was.
-/

namespace Graft.Json

universe u

variable {ε σ : Type u}

/-- All visits of listed leaves succeed, one after the other, and lead from one state to another. -/
inductive Visits (visit : KeyPath → Json → EStateM ε σ PUnit) :
    List (KeyPath × Json) → (state final : σ) → Prop where
  | stay (state : σ) : Visits visit [] state state
  | step {path : KeyPath} {leaf : Json} {rest : List (KeyPath × Json)} {state next final : σ}
      (visited : visit path leaf state = .ok ⟨⟩ next) (others : Visits visit rest next final) :
      Visits visit ((path, leaf) :: rest) state final

theorem visitListed_eq_ok_iff {visit : KeyPath → Json → EStateM ε σ PUnit}
    {listed : List (KeyPath × Json)} {state final : σ} :
    visitListed visit [] listed state = .ok ⟨⟩ final ↔ Visits visit listed state final := by
  constructor
  · intro walked
    induction listed generalizing state with
    | nil =>
        cases walked
        exact .stay final
    | cons leaf listed ih =>
        rw [visitListed] at walked
        rcases visited : visit ([] ++ leaf.1) leaf.2 state with ⟨⟨⟩, next⟩ | ⟨failure, last⟩
        · rw [visited] at walked
          exact .step visited (ih walked)
        · rw [visited] at walked
          cases walked
  · intro visits
    induction visits with
    | stay state => rfl
    | step visited _ ih =>
        rw [visitListed, List.nil_append, visited]
        exact ih

theorem visitListed_eq_error_iff {visit : KeyPath → Json → EStateM ε σ PUnit}
    {listed : List (KeyPath × Json)} {state final : σ} {failure : ε} :
    visitListed visit [] listed state = .error failure final ↔
      ∃ before leaf after between, listed = before ++ leaf :: after ∧
        Visits visit before state between ∧ visit leaf.1 leaf.2 between = .error failure final := by
  constructor
  · intro walked
    induction listed generalizing state with
    | nil => cases walked
    | cons leaf listed ih =>
        rw [visitListed, List.nil_append] at walked
        rcases visited : visit leaf.1 leaf.2 state with ⟨⟨⟩, next⟩ | ⟨other, last⟩
        · rw [visited] at walked
          rcases ih walked with ⟨before, failing, after, between, rfl, visits, failed⟩
          exact ⟨leaf :: before, failing, after, between, rfl, .step visited visits, failed⟩
        · rw [visited] at walked
          cases walked
          exact ⟨[], leaf, listed, state, rfl, .stay state, visited⟩
  · rintro ⟨before, leaf, after, between, rfl, visits, failed⟩
    rw [visitListed_append, visitListed_eq_ok_iff.mpr visits]
    simp only [visitListed, List.nil_append, failed]

theorem visitListed_eq_forM (visit : KeyPath → Json → EStateM ε σ PUnit)
    (listed : List (KeyPath × Json)) :
    visitListed visit [] listed = forM listed fun leaf => visit leaf.1 leaf.2 := by
  funext state
  induction listed generalizing state with
  | nil => rfl
  | cons leaf listed ih =>
      rw [List.forM_cons, visitListed, List.nil_append]
      simp only [bind, EStateM.bind]
      cases visit leaf.1 leaf.2 state with
      | ok _ next => exact ih next
      | error failure final => rfl

theorem visitLeaves_eq_visitListed (visit : KeyPath → Json → EStateM ε σ PUnit) (root : Json) :
    visitLeaves visit root = visitListed visit [] root.leaves := by
  funext state
  rw [visitLeaves, visitBelow_eq_visitListed, leaves_eq_relativeLeaves]

/-- Where a walk stands: the path that it keeps, and the state of its visitor. -/
structure Trail (σ : Type u) where
  path : KeyPath
  state : σ

/-- The outcome of a visitor, for a walk that stands at a path. -/
def standAt (path : KeyPath) : EStateM.Result ε σ PUnit → EStateM.Result ε (Trail σ) PUnit
  | .ok _ state => .ok ⟨⟩ ⟨path, state⟩
  | .error failure state => .error failure ⟨path, state⟩

/-- Visits a leaf with the path of the walk. -/
def visitHere (visit : KeyPath → Json → EStateM ε σ PUnit) (leaf : Json) :
    EStateM ε (Trail σ) PUnit
  | ⟨path, state⟩ => standAt path (visit path leaf state)

/-- Takes the last key off the path of a walk. -/
def Trail.back (trail : Trail σ) : Trail σ := { trail with path := trail.path.dropLast }

/-- Puts a key at the end of the path, walks on from there, and takes the last key off whatever path
the walk comes back with, also if it failed. -/
def goDown (key : String) (walk : EStateM ε (Trail σ) PUnit) : EStateM ε (Trail σ) PUnit
  | ⟨path, state⟩ =>
      match walk ⟨path.child key, state⟩ with
      | .ok _ trail => .ok ⟨⟩ trail.back
      | .error failure trail => .error failure trail.back

mutual

/-- Walks the leaves below a node. -/
def walkBelow (visit : KeyPath → Json → EStateM ε σ PUnit) : Json → EStateM ε (Trail σ) PUnit
  | .array ⟨items⟩, trail => walkItems visit 0 items trail
  | .object members, trail => walkMembers visit members trail
  | _, trail => .ok ⟨⟩ trail

/-- Walks items, the first of which has the given position. -/
def walkItems (visit : KeyPath → Json → EStateM ε σ PUnit) (position : Nat) :
    List Json → EStateM ε (Trail σ) PUnit
  | [], trail => .ok ⟨⟩ trail
  | item :: rest, trail =>
      let outcome := goDown (toString position)
        (if item.isLeaf then visitHere visit item else walkBelow visit item) trail
      match outcome with
      | .ok _ next => walkItems visit (position + 1) rest next
      | .error failure final => .error failure final

/-- Walks members. -/
def walkMembers (visit : KeyPath → Json → EStateM ε σ PUnit) :
    List (String × Json) → EStateM ε (Trail σ) PUnit
  | [], trail => .ok ⟨⟩ trail
  | (name, value) :: rest, trail =>
      let outcome := goDown name
        (if value.isLeaf then visitHere visit value else walkBelow visit value) trail
      match outcome with
      | .ok _ next => walkMembers visit rest next
      | .error failure final => .error failure final

end

/-- A walk that comes back to where it went down is back at the path before. -/
theorem goDown_of_standAt {key : String} {walk : EStateM ε (Trail σ) PUnit} {path : KeyPath}
    {state : σ} {outcome : EStateM.Result ε σ PUnit}
    (walked : walk ⟨path.child key, state⟩ = standAt (path.child key) outcome) :
    goDown key walk ⟨path, state⟩ = standAt path outcome := by
  have popped : (path.child key).dropLast = path := List.dropLast_concat
  cases outcome with
  | ok _ next => simp only [goDown, walked, standAt, Trail.back, popped]
  | error failure last => simp only [goDown, walked, standAt, Trail.back, popped]

/-- Going down to a child visits it or walks below it, and comes back to the path before. -/
theorem goDown_child {visit : KeyPath → Json → EStateM ε σ PUnit} {key : String} {child : Json}
    {path : KeyPath} {state : σ}
    (below : walkBelow visit child ⟨path.child key, state⟩ =
      standAt (path.child key) (visitBelow visit (path.child key) child state)) :
    goDown key (if child.isLeaf then visitHere visit child else walkBelow visit child)
        ⟨path, state⟩ =
      standAt path (if child.isLeaf then visit (path.child key) child state
        else visitBelow visit (path.child key) child state) := by
  apply goDown_of_standAt
  split
  case isTrue => rfl
  case isFalse => exact below

mutual

theorem walkBelow_eq_standAt (visit : KeyPath → Json → EStateM ε σ PUnit) (path : KeyPath) :
    (node : Json) → (state : σ) →
      walkBelow visit node ⟨path, state⟩ = standAt path (visitBelow visit path node state)
  | .array ⟨items⟩, state => by
      rw [walkBelow, visitBelow]
      exact walkItems_eq_standAt visit path 0 items state
  | .object members, state => by
      rw [walkBelow, visitBelow]
      exact walkMembers_eq_standAt visit path members state
  | .null, _ => rfl
  | .bool _, _ => rfl
  | .number _, _ => rfl
  | .string _, _ => rfl

theorem walkItems_eq_standAt (visit : KeyPath → Json → EStateM ε σ PUnit) (path : KeyPath)
    (position : Nat) : (items : List Json) → (state : σ) →
      walkItems visit position items ⟨path, state⟩ =
        standAt path (visitItems visit path position items state)
  | [], _ => rfl
  | item :: rest, state => by
      have below := goDown_child (walkBelow_eq_standAt visit (path.child (toString position)) item
        state)
      simp only [walkItems, visitItems, below]
      generalize (if item.isLeaf then _ else _) = outcome
      cases outcome with
      | ok _ next => exact walkItems_eq_standAt visit path (position + 1) rest next
      | error failure final => rfl

theorem walkMembers_eq_standAt (visit : KeyPath → Json → EStateM ε σ PUnit) (path : KeyPath) :
    (members : List (String × Json)) → (state : σ) →
      walkMembers visit members ⟨path, state⟩ =
        standAt path (visitMembers visit path members state)
  | [], _ => rfl
  | (name, value) :: rest, state => by
      have below := goDown_child (walkBelow_eq_standAt visit (path.child name) value state)
      simp only [walkMembers, visitMembers, below]
      generalize (if value.isLeaf then _ else _) = outcome
      cases outcome with
      | ok _ next => exact walkMembers_eq_standAt visit path rest next
      | error failure final => rfl

end

/-- A walk runs through the listed leaves and stops at the first failure: it succeeds just if all
visits do, with the state after the last, and it fails just if one visit fails after those before it
have succeeded, with what that visit gives. A walk with one path makes the same visits, and its path
is back to what it was after every child and after the whole walk, failed or not. -/
theorem visitLeaves_eq_fold (visit : KeyPath → Json → EStateM ε σ PUnit) (root : Json) :
    visitLeaves visit root = (forM root.leaves fun leaf => visit leaf.1 leaf.2) ∧
      (∀ state final, visitLeaves visit root state = .ok ⟨⟩ final ↔
        Visits visit root.leaves state final) ∧
      (∀ state failure final, visitLeaves visit root state = .error failure final ↔
        ∃ before leaf after between, root.leaves = before ++ leaf :: after ∧
          Visits visit before state between ∧
            visit leaf.1 leaf.2 between = .error failure final) ∧
      (∀ state, walkBelow visit root ⟨[], state⟩ = standAt [] (visitLeaves visit root state)) ∧
      ∀ key child path state,
        goDown key (if child.isLeaf then visitHere visit child else walkBelow visit child)
            ⟨path, state⟩ =
          standAt path (if child.isLeaf then visit (path.child key) child state
            else visitBelow visit (path.child key) child state) := by
  refine ⟨?_, ?_, ?_, walkBelow_eq_standAt visit [] root, ?_⟩
  · rw [visitLeaves_eq_visitListed, visitListed_eq_forM]
  · intro state final
    rw [visitLeaves_eq_visitListed]
    exact visitListed_eq_ok_iff
  · intro state failure final
    rw [visitLeaves_eq_visitListed]
    exact visitListed_eq_error_iff
  · intro key child path state
    exact goDown_child (walkBelow_eq_standAt visit (path.child key) child state)

end Graft.Json
