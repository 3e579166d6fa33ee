import Graft.Proofs.Tree.Agreement

/-!
# What storing does

One step of storing either is refused by the node, which then stays as it is, or enters the child
under the next key. The child that is entered takes its place in the parent, every other child
stays, and an array that has to grow is padded with `null`. So a stored value is found where it was
stored, a path that is apart from it does not notice, and a failure leaves everything in its place.
-/

namespace Graft.Json

/-- Why a node cannot hold a key, if it cannot. -/
def refusal? (location : KeyPath) (key : String) (node : Json) : Option WriteError :=
  match node with
  | .object _ => none
  | .array items =>
      match arrayIndex? key with
      | none => some (.blocked .array location)
      | some position =>
          if items.size + maxGap < position then some (.tooFar position location) else none
  | _ => some (.blocked .leaf location)

/-- Why the node at a location cannot hold a key: it is no container, or an array where the key is
not a position or is one too far past the end. -/
inductive Hinders (location : KeyPath) (key : String) : Json → WriteError → Prop where
  | leaf {node : Json} (noContainer : node.isContainer = false) :
      Hinders location key node (.blocked .leaf location)
  | array {items : Array Json} (notPosition : arrayIndex? key = none) :
      Hinders location key (.array items) (.blocked .array location)
  | gap {items : Array Json} {position : Nat} (spelled : arrayIndex? key = some position)
      (far : items.size + 65536 < position) :
      Hinders location key (.array items) (.tooFar position location)

theorem refusal?_eq_some_iff
    {location : KeyPath} {key : String} {node : Json} {error : WriteError} :
    node.refusal? location key = some error ↔ Hinders location key node error := by
  constructor
  · intro refused
    cases node with
    | object members => cases refused
    | array items =>
        simp only [refusal?] at refused
        rcases spelled : arrayIndex? key with _ | position
        · rw [spelled] at refused
          cases refused
          exact .array spelled
        · rw [spelled] at refused
          simp only at refused
          split at refused
          case isTrue far =>
            cases refused
            exact .gap spelled far
          case isFalse => cases refused
    | null => cases refused; exact .leaf rfl
    | bool value => cases refused; exact .leaf rfl
    | number value => cases refused; exact .leaf rfl
    | string text => cases refused; exact .leaf rfl
  · rintro (noContainer | notPosition | ⟨spelled, far⟩)
    · cases node with
      | object members => cases noContainer
      | array items => cases noContainer
      | null => rfl
      | bool value => rfl
      | number value => rfl
      | string text => rfl
    · simp [refusal?, notPosition]
    · simp [refusal?, spelled, maxGap, far]

/-- The child that storing enters: begun afresh if it is vacated or missing. -/
def entered (isVacated : KeyPath → Bool) (location : KeyPath) (key : String) (rest : KeyPath)
    (node : Json) : Json :=
  if !rest.isEmpty && isVacated (location.child key) then fresh rest
  else (node.child? key).getD (fresh rest)

/-- A node after one of its children was entered. -/
structure EntersChild (key : String) (child node changed : Json) : Prop where
  sameKind : changed.isArray = node.isArray
  sameContainer : changed.isContainer = node.isContainer
  self : changed.child? key = some child
  kept : ∀ other, other ≠ key → ∀ old, node.child? other = some old →
    changed.child? other = some old
  padded : ∀ other, other ≠ key → node.child? other = none →
    changed.child? other = none ∨ changed.child? other = some .null

theorem enterMember_spec {α : Type} (name : String) (created : Json) (change : Json → Json × α)
    (members : List (String × Json)) :
    (enterMember name created change members).1.lookup name =
        some (change ((members.lookup name).getD created)).1 ∧
      (∀ other, other ≠ name →
        (enterMember name created change members).1.lookup other = members.lookup other) ∧
      (enterMember name created change members).2 =
        (change ((members.lookup name).getD created)).2 := by
  induction members with
  | nil =>
      refine ⟨by simp [enterMember], ?_, by simp [enterMember]⟩
      intro other differs
      simp [enterMember, List.lookup_cons, beq_eq_false_iff_ne.mpr differs]
  | cons member rest ih =>
      rcases member with ⟨first, value⟩
      by_cases isFirst : first = name
      · subst isFirst
        refine ⟨by simp [enterMember], ?_, by simp [enterMember]⟩
        intro other differs
        simp [enterMember, List.lookup_cons, beq_eq_false_iff_ne.mpr differs]
      · have missed : (name == first) = false := beq_eq_false_iff_ne.mpr (Ne.symm isFirst)
        rcases ih with ⟨self, others, told⟩
        simp only [enterMember, isFirst, if_false, List.lookup_cons, missed]
        refine ⟨self, ?_, told⟩
        intro other differs
        rw [others other differs]

theorem getElem?_padded (items : Array Json) {position other : Nat} (below : other < position) :
    (items ++ Array.replicate (position - items.size) Json.null)[other]? =
      if other < items.size then items[other]? else some .null := by
  rw [Array.getElem?_append, Array.getElem?_replicate]
  split
  · rfl
  · rw [if_pos (by omega)]

/-- An array that is entered keeps its items; what it gains next to the entered item is `null`. -/
theorem enterItem_spec {α : Type} (position : Nat) (created : Json) (change : Json → Json × α)
    (items : Array Json) :
    (enterItem position created change items).1[position]? =
        some (change ((items[position]?).getD created)).1 ∧
      (∀ other, other ≠ position → ∀ old, items[other]? = some old →
        (enterItem position created change items).1[other]? = some old) ∧
      (∀ other, other ≠ position → items[other]? = none →
        (enterItem position created change items).1[other]? = none ∨
          (enterItem position created change items).1[other]? = some .null) ∧
      (enterItem position created change items).2 =
        (change ((items[position]?).getD created)).2 := by
  rcases found : items[position]? with _ | item
  · have outside : items.size ≤ position := Array.getElem?_eq_none_iff.mp found
    have entering : enterItem position created change items =
        ((items ++ Array.replicate (position - items.size) Json.null).push (change created).1,
          (change created).2) := by
      simp [enterItem, changeItem, Nat.not_lt.mpr outside]
    rw [entering]
    have grown : (items ++ Array.replicate (position - items.size) Json.null).size = position := by
      simp
      omega
    have before := fun other (below : other < position) => getElem?_padded items below
    generalize items ++ Array.replicate (position - items.size) Json.null = stretched
      at grown before
    subst grown
    refine ⟨by rw [Array.getElem?_push_size]; rfl, ?_, ?_, rfl⟩
    · intro other differs old isOld
      have inside : other < items.size := (Array.getElem?_eq_some_iff.mp isOld).1
      rw [Array.getElem?_push, if_neg differs, before other (by omega), if_pos inside, isOld]
    · intro other differs missing
      have missed : items.size ≤ other := Array.getElem?_eq_none_iff.mp missing
      rw [Array.getElem?_push, if_neg differs]
      by_cases padding : other < stretched.size
      · right
        rw [before other padding, if_neg (by omega)]
      · left
        exact Array.getElem?_eq_none (by omega)
  · rcases changeItem_spec position change items with ⟨self, others, told⟩
    rw [found] at self told
    have entering : enterItem position created change items =
        ((changeItem position change items).1, (change item).2) := by
      rcases changing : changeItem position change items with ⟨changed, heard⟩
      rw [changing] at told
      simp only [Option.map_some] at told
      subst told
      simp [enterItem, changing]
    rw [entering]
    refine ⟨self, ?_, ?_, rfl⟩
    · intro other differs old isOld
      rw [others other differs, isOld]
    · intro other differs missing
      left
      rw [others other differs, missing]

theorem store_of_refusal? {isVacated : KeyPath → Bool} {value : Json} {location : KeyPath}
    {key : String} {rest : KeyPath} {node : Json} {error : WriteError}
    (refused : node.refusal? location key = some error) :
    store isVacated value location (key :: rest) node = (node, .error error) := by
  cases refusal?_eq_some_iff.mp refused with
  | leaf noContainer =>
      cases node with
      | object members => cases noContainer
      | array items => cases noContainer
      | null => rfl
      | bool value => rfl
      | number value => rfl
      | string text => rfl
  | array notPosition => simp [store, notPosition]
  | gap spelled far => simp [store, spelled, maxGap, far]

/-- A node that does not refuse the key has its child entered. -/
theorem store_of_not_refused (isVacated : KeyPath → Bool) (value : Json) (location : KeyPath)
    {key : String} (rest : KeyPath) {node : Json} (accepts : node.refusal? location key = none) :
    ∃ changed,
      store isVacated value location (key :: rest) node =
          (changed, (store isVacated value (location.child key) rest
            (entered isVacated location key rest node)).2) ∧
        EntersChild key (store isVacated value (location.child key) rest
          (entered isVacated location key rest node)).1 node changed := by
  cases node with
  | object members =>
      simp only [store, entered, child?]
      rcases enterMember_spec key (fresh rest)
        (fun child => store isVacated value (location.child key) rest
          (if !rest.isEmpty && isVacated (location.child key) then fresh rest else child))
        members with ⟨self, others, told⟩
      refine ⟨_, Prod.ext rfl told, rfl, rfl, self, ?_, ?_⟩
      · intro other differs old isOld
        exact (others other differs).trans isOld
      · intro other differs missing
        exact Or.inl ((others other differs).trans missing)
  | array items =>
      rcases spelled : arrayIndex? key with _ | position
      · simp [refusal?, spelled] at accepts
      · simp only [refusal?, spelled] at accepts
        split at accepts
        case isTrue => cases accepts
        case isFalse near =>
          simp only [store, entered, child?, spelled, near, if_false, Option.bind_some]
          rcases enterItem_spec position (fresh rest)
            (fun child => store isVacated value (location.child key) rest
              (if !rest.isEmpty && isVacated (location.child key) then fresh rest else child))
            items with ⟨self, kept, padded, told⟩
          have apart : ∀ other, other ≠ key → ∀ otherPosition,
              arrayIndex? other = some otherPosition → otherPosition ≠ position := by
            rintro other differs otherPosition otherSpelled rfl
            exact differs (key_eq_of_arrayIndex? otherSpelled spelled)
          refine ⟨_, Prod.ext rfl told, rfl, rfl, by simpa [child?, spelled] using self, ?_, ?_⟩
          · intro other differs old isOld
            rcases otherSpelled : arrayIndex? other with _ | otherPosition
            · simp [child?, otherSpelled] at isOld
            · simp only [child?, otherSpelled, Option.bind_some] at isOld ⊢
              exact kept otherPosition (apart other differs _ otherSpelled) old isOld
          · intro other differs missing
            rcases otherSpelled : arrayIndex? other with _ | otherPosition
            · simp [child?, otherSpelled]
            · simp only [child?, otherSpelled, Option.bind_some] at missing ⊢
              exact padded otherPosition (apart other differs _ otherSpelled) missing
  | null => cases accepts
  | bool value => cases accepts
  | number value => cases accepts
  | string text => cases accepts

theorem isContainer_fresh_cons (key : String) (rest : KeyPath) :
    (fresh (key :: rest)).isContainer := by
  rw [fresh, containerFor]
  split <;> rfl

theorem child?_fresh (keys : KeyPath) (key : String) : (fresh keys).child? key = none := by
  apply child?_of_isLeaf
  rcases keys with _ | ⟨next, keys⟩
  · rfl
  · rw [fresh, containerFor]
    split <;> rfl

/-- Nothing is found below a node that is begun. -/
theorem eq_nil_of_get?_fresh {keys path : KeyPath} {found : Json}
    (leads : (fresh keys).get? path = some found) : path = [] := by
  rcases path with _ | ⟨key, path⟩
  · rfl
  · rw [get?_cons, child?_fresh] at leads
    cases leads

section

variable {isVacated : KeyPath → Bool} {location : KeyPath} {key : String} {rest : KeyPath}
  {node : Json}

theorem entered_of_vacated (further : rest ≠ []) (vacated : isVacated (location.child key)) :
    entered isVacated location key rest node = fresh rest := by
  simp [entered, further, vacated]

theorem entered_of_child?_eq_none (missing : node.child? key = none) :
    entered isVacated location key rest node = fresh rest := by
  simp [entered, missing]

theorem entered_eq_getD (kept : ¬(rest ≠ [] ∧ isVacated (location.child key))) :
    entered isVacated location key rest node = (node.child? key).getD (fresh rest) := by
  have stays : ¬(!rest.isEmpty && isVacated (location.child key)) = true := by
    simpa using kept
  rw [entered, if_neg stays]

theorem entered_of_kept {child : Json} (isChild : node.child? key = some child)
    (kept : ¬(rest ≠ [] ∧ isVacated (location.child key))) :
    entered isVacated location key rest node = child := by
  rw [entered_eq_getD kept, isChild, Option.getD_some]

end

theorem child_append (location : KeyPath) (key : String) (rest : KeyPath) :
    location.child key ++ rest = location ++ key :: rest := by
  simp [KeyPath.child]

theorem get?_store {isVacated : KeyPath → Bool} {value node changed : Json}
    {location path : KeyPath} {replaced : Bool}
    (stored : store isVacated value location path node = (changed, .ok replaced)) :
    changed.get? path = some value := by
  induction path generalizing location node changed with
  | nil =>
      cases stored
      rfl
  | cons key rest ih =>
      rcases refused : node.refusal? location key with _ | error
      · rcases store_of_not_refused isVacated value location rest refused with
          ⟨after, entering, enters⟩
        rw [stored] at entering
        rcases Prod.mk.inj entering with ⟨rfl, outcome⟩
        rw [get?_cons, enters.self]
        exact ih (Prod.ext rfl outcome.symm)
      · rw [store_of_refusal? refused] at stored
        cases stored

/-- Storing does not show along a path that is apart, if no node on the way is begun afresh. -/
theorem AgreeAlong.store {isVacated : KeyPath → Bool} {value node found : Json}
    {location path other : KeyPath} (apart : KeyPath.Apart path other)
    (clear : ∀ upper, upper <+: other → upper ≠ other → upper ≠ [] →
      isVacated (location ++ upper) = false)
    (leads : node.get? other = some found) :
    AgreeAlong other node (store isVacated value location path node).1 := by
  induction path generalizing location other node with
  | nil => exact absurd apart (KeyPath.not_apart_nil other)
  | cons key rest ih =>
      rcases other with _ | ⟨otherKey, otherRest⟩
      · exact absurd apart.symm (KeyPath.not_apart_nil _)
      · rcases refused : node.refusal? location key with _ | error
        · rcases store_of_not_refused isVacated value location rest refused with
            ⟨after, entering, enters⟩
          rw [entering]
          have present := leads
          rw [get?_cons] at present
          rcases Option.bind_eq_some_iff.mp present with ⟨child, isChild, leadsOn⟩
          by_cases same : otherKey = key
          · subst same
            have restApart : KeyPath.Apart rest otherRest := by
              rcases KeyPath.apart_cons_iff.mp apart with differs | restApart
              · exact absurd rfl differs
              · exact restApart
            have further : otherRest ≠ [] := by
              rintro rfl
              exact absurd restApart.symm (KeyPath.not_apart_nil rest)
            have notVacated : isVacated (location.child otherKey) = false :=
              clear [otherKey] (by simp) (by simpa using further.symm) (by simp)
            have enteredChild : entered isVacated location otherKey rest node = child :=
              entered_of_kept isChild (by simp [notVacated])
            refine ⟨enters.sameKind.symm, child, _, isChild, enters.self, ?_⟩
            rw [enteredChild]
            apply ih restApart ?_ leadsOn
            intro upper isUpper proper nonempty
            rw [child_append]
            exact clear (otherKey :: upper) (List.cons_prefix_cons.mpr ⟨rfl, isUpper⟩)
              (by simpa using proper) (by simp)
          · exact .of_child?_eq enters.sameKind
              ((enters.kept otherKey same child isChild).trans isChild.symm) leads
        · rw [store_of_refusal? refused]
          exact .refl leads

/-- A write tells whether it replaced a container, if no node on its way is begun afresh. -/
theorem replaced_eq_of_store {isVacated : KeyPath → Bool} {value node changed : Json}
    {location path : KeyPath} {replaced : Bool}
    (clear : ∀ upper, upper <+: path → upper ≠ path → upper ≠ [] →
      isVacated (location ++ upper) = false)
    (stored : store isVacated value location path node = (changed, .ok replaced)) :
    replaced = (node.get? path).any isContainer := by
  induction path generalizing location node changed with
  | nil =>
      cases stored
      rfl
  | cons key rest ih =>
      rcases refused : node.refusal? location key with _ | error
      · rcases store_of_not_refused isVacated value location rest refused with
          ⟨after, entering, enters⟩
        rw [stored] at entering
        rcases Prod.mk.inj entering with ⟨_, outcome⟩
        have below := ih (fun upper isUpper proper nonempty => by
          rw [child_append]
          exact clear (key :: upper) (List.cons_prefix_cons.mpr ⟨rfl, isUpper⟩)
            (by simpa using proper) (by simp)) (Prod.ext rfl outcome.symm)
        have kept : ¬(rest ≠ [] ∧ isVacated (location.child key)) := by
          rintro ⟨further, vacated⟩
          have notVacated : isVacated (location.child key) = false :=
            clear [key] (by simp) (by simpa using further.symm) (by simp)
          rw [notVacated] at vacated
          cases vacated
        rw [below, entered_eq_getD kept, get?_cons]
        rcases node.child? key with _ | child
        · rcases rest with _ | ⟨next, others⟩
          · rfl
          · rw [Option.getD_none, get?_cons, child?_fresh]
            rfl
        · rfl
      · rw [store_of_refusal? refused] at stored
        cases stored

/-- A position that a path takes in an array is the key with which the path goes on from there. -/
theorem eq_append_of_mem_arraySteps {location path array : KeyPath} {position : Nat} {node : Json}
    (step : (array, position) ∈ arraySteps location path node) :
    ∃ upper rest, array = location ++ upper ∧ path = upper ++ toString position :: rest := by
  induction path generalizing location node with
  | nil => cases step
  | cons key rest ih =>
      rw [arraySteps_cons] at step
      rcases List.mem_append.mp step with here | below
      · split at here
        · rcases List.mem_map.mp here with ⟨found, isFound, same⟩
          cases same
          rcases arrayIndex?_eq_some_iff.mp (Option.mem_toList.mp isFound) with ⟨_, rfl⟩
          exact ⟨[], rest, by simp, rfl⟩
        · cases here
      · rcases found : node.child? key with _ | child
        · rw [found] at below
          cases below
        · rw [found] at below
          rcases ih below with ⟨upper, others, rfl, rfl⟩
          exact ⟨key :: upper, others, child_append location key upper, rfl⟩

end Graft.Json
