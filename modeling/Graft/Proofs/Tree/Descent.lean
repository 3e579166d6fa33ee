import Graft.Proofs.Tree.Growth

/-!
# The way of a write

On its way a write comes to one node after the other: to the node that is there, or to a container
that is begun because nothing is there or because a slot on the way is vacated. It fails at the
first node that cannot hold its next key, which then stays as the write has met it. Every node that
the write goes through keeps its children in their places, and what it gains is the child that the
write enters and the `null`s in front of it.

So a node that is found after a write was there before, or is a container on the way, or is padding,
or lies where the value was stored.
-/

namespace Graft.Json

variable {isVacated : KeyPath → Bool} {value node : Json} {location path : KeyPath} {key : String}
  {rest : KeyPath}

/-- A node after something was stored below it. Items keep their positions and members their order,
an array gains at most as many items as a gap has slots and one more, and a scalar stays. -/
def GrowsInto : Json → Json → Prop
  | .array items, grown =>
      ∃ others, grown = .array others ∧ items.size ≤ others.size ∧ others.size ≤ items.size + 65537
  | .object members, grown =>
      ∃ others, grown = .object others ∧ members.map Prod.fst <+: others.map Prod.fst
  | scalar, grown => grown = scalar

theorem GrowsInto.refl (node : Json) : node.GrowsInto node := by
  cases node with
  | array items => exact ⟨items, rfl, by omega, by omega⟩
  | object members => exact ⟨members, rfl, List.prefix_rfl⟩
  | null => rfl
  | bool value => rfl
  | number value => rfl
  | string text => rfl

theorem GrowsInto.isContainer_eq {grown : Json} (grows : node.GrowsInto grown) :
    grown.isContainer = node.isContainer := by
  cases node with
  | array items =>
      rcases grows with ⟨others, rfl, _⟩
      rfl
  | object members =>
      rcases grows with ⟨others, rfl, _⟩
      rfl
  | null => rw [show grown = _ from grows]
  | bool value => rw [show grown = _ from grows]
  | number value => rw [show grown = _ from grows]
  | string text => rw [show grown = _ from grows]

/-- The node under which something is stored grows, whatever comes of the attempt further down. -/
theorem growsInto_store (isVacated : KeyPath → Bool) (value : Json) (location : KeyPath)
    (key : String) (rest : KeyPath) (node : Json) :
    node.GrowsInto (store isVacated value location (key :: rest) node).1 := by
  cases node with
  | array items =>
      simp only [store]
      rcases spelled : arrayIndex? key with _ | position
      · exact .refl _
      · simp only
        split
        case isTrue => exact .refl _
        case isFalse near =>
          refine ⟨_, rfl, ?_, ?_⟩
          · rw [size_enterItem]
            omega
          · rw [size_enterItem]
            simp only [maxGap] at near
            omega
  | object members =>
      refine ⟨_, rfl, ?_⟩
      rw [map_fst_enterMember]
      split
      case isTrue => exact List.prefix_rfl
      case isFalse => exact List.prefix_append _ _
  | null => rfl
  | bool value => rfl
  | number value => rfl
  | string text => rfl

/-- What a node gains next to the child that is entered stands in an array, before the entered
position, and is `null`. -/
theorem padding_of_store {other : String} {found : Json} (differs : other ≠ key)
    (missing : node.child? other = none)
    (isChild : (store isVacated value location (key :: rest) node).1.child? other = some found) :
    found = .null ∧ ∃ (items : Array Json) (position slot : Nat),
      (store isVacated value location (key :: rest) node).1 = .array items ∧
        key = toString position ∧ other = toString slot ∧ slot < position := by
  rcases refused : node.refusal? location key with _ | error
  · cases node with
    | object members =>
        have others := (enterMember_spec key (fresh rest)
          (fun child => store isVacated value (location.child key) rest
            (if !rest.isEmpty && isVacated (location.child key) then fresh rest else child))
          members).2.1
        have isMember := (others other differs).symm.trans isChild
        simp only [child?] at missing
        rw [missing] at isMember
        cases isMember
    | array items =>
        rcases spelled : arrayIndex? key with _ | position
        · simp [refusal?, spelled] at refused
        · simp only [refusal?, spelled] at refused
          split at refused
          case isTrue => cases refused
          case isFalse near =>
            simp only [store, spelled, near, if_false] at isChild ⊢
            rcases Option.bind_eq_some_iff.mp isChild with ⟨slot, isSlot, isItem⟩
            have past : items.size ≤ slot := by
              simpa [child?, isSlot] using missing
            -- The slot is new and is not the entered one, so it lies between the old end and that.
            have inside := (Array.getElem?_eq_some_iff.mp isItem).1
            rw [size_enterItem] at inside
            have notEntered : slot ≠ position := by
              rintro rfl
              exact differs (key_eq_of_arrayIndex? isSlot spelled)
            refine ⟨?_, _, position, slot, rfl, (arrayIndex?_eq_some_iff.mp spelled).2,
              (arrayIndex?_eq_some_iff.mp isSlot).2, by omega⟩
            have padded := (enterItem_spec position (fresh rest)
              (fun child => store isVacated value (location.child key) rest
                (if !rest.isEmpty && isVacated (location.child key) then fresh rest else child))
              items).2.2.1 slot notEntered (Array.getElem?_eq_none past)
            rw [isItem] at padded
            simpa using padded
    | null => cases refused
    | bool value => cases refused
    | number value => cases refused
    | string text => cases refused
  · rw [store_of_refusal? refused, missing] at isChild
    cases isChild

theorem child?_eq_none_of_refusal? {error : WriteError}
    (refused : node.refusal? location key = some error) : node.child? key = none := by
  rcases isChild : node.child? key with _ | child
  · rfl
  · rw [refusal?_eq_none_of_child? isChild] at refused
    cases refused

/-- Whether the node at a path, or one above it, is begun anew when a write goes along another path,
because its slot is vacated. The last node of the write is replaced and not begun anew. -/
def Renewed (isVacated : KeyPath → Bool) (location path other : KeyPath) : Prop :=
  ∃ slot, slot ≠ [] ∧ slot <+: path ∧ slot ≠ path ∧ slot <+: other ∧ isVacated (location ++ slot)

theorem not_renewed_nil : ¬Renewed isVacated location path [] := by
  rintro ⟨slot, nonempty, _, _, above, _⟩
  exact nonempty (List.prefix_nil.mp above)

theorem renewed_cons_cons_iff {first : String} {other : KeyPath} :
    Renewed isVacated location (key :: path) (first :: other) ↔
      first = key ∧ ((path ≠ [] ∧ isVacated (location.child key)) ∨
        Renewed isVacated (location.child key) path other) := by
  constructor
  · rintro ⟨slot, nonempty, onWay, proper, above, vacated⟩
    rcases slot with _ | ⟨next, slot⟩
    · exact absurd rfl nonempty
    · rcases List.cons_prefix_cons.mp onWay with ⟨rfl, onWayBelow⟩
      rcases List.cons_prefix_cons.mp above with ⟨rfl, aboveBelow⟩
      refine ⟨rfl, ?_⟩
      rcases slot with _ | ⟨second, slot⟩
      · exact Or.inl ⟨by simpa using Ne.symm proper, vacated⟩
      · right
        refine ⟨second :: slot, by simp, onWayBelow, by simpa using proper, aboveBelow, ?_⟩
        rw [child_append]
        exact vacated
  · rintro ⟨rfl, ⟨further, vacated⟩ | ⟨slot, nonempty, onWay, proper, above, vacated⟩⟩
    · exact ⟨[first], by simp, by simp, by simpa using Ne.symm further, by simp, vacated⟩
    · refine ⟨first :: slot, by simp, List.cons_prefix_cons.mpr ⟨rfl, onWay⟩, by simpa using proper,
        List.cons_prefix_cons.mpr ⟨rfl, above⟩, ?_⟩
      rw [← child_append]
      exact vacated

theorem Renewed.mono {other lower : KeyPath} (renewed : Renewed isVacated location path other)
    (above : other <+: lower) : Renewed isVacated location path lower := by
  rcases renewed with ⟨slot, nonempty, onWay, proper, aboveOther, vacated⟩
  exact ⟨slot, nonempty, onWay, proper, aboveOther.trans above, vacated⟩

/-- What a write comes to at a path on its way, from where `rest` leads on: the node that is there,
or the container that is begun if there is none or if the way leads through a vacated slot. -/
inductive Met (isVacated : KeyPath → Bool) (location : KeyPath) (node : Json)
    (upper rest : KeyPath) : Json → Prop where
  | found {met : Json} (leads : node.get? upper = some met)
      (kept : ¬Renewed isVacated location (upper ++ rest) upper) :
      Met isVacated location node upper rest met
  | begun (gone : node.get? upper = none ∨ Renewed isVacated location (upper ++ rest) upper) :
      Met isVacated location node upper rest (fresh rest)

variable {upper : KeyPath} {met : Json}

theorem met_iff_of_gone
    (gone : node.get? upper = none ∨ Renewed isVacated location (upper ++ rest) upper) :
    Met isVacated location node upper rest met ↔ met = fresh rest := by
  constructor
  · rintro (⟨leads, kept⟩ | _)
    · rcases gone with missing | renewed
      · rw [missing] at leads
        cases leads
      · exact absurd renewed kept
    · rfl
  · rintro rfl
    exact .begun gone

theorem met_nil_iff : Met isVacated location node [] rest met ↔ met = node := by
  constructor
  · rintro (⟨leads, _⟩ | missing | renewed)
    · exact (Option.some.inj leads).symm
    · cases missing
    · exact absurd renewed not_renewed_nil
  · rintro rfl
    exact .found rfl not_renewed_nil

/-- Nothing is to be found in a container that was just begun. -/
theorem met_fresh_iff :
    Met isVacated location (fresh (upper ++ rest)) upper rest met ↔ met = fresh rest := by
  rcases upper with _ | ⟨key, upper⟩
  · exact met_nil_iff
  · apply met_iff_of_gone
    left
    rw [List.cons_append, get?_cons, child?_fresh]
    rfl

/-- A write comes to the same nodes as it does from the child that it enters. -/
theorem met_cons_iff (further : rest ≠ []) :
    Met isVacated location node (key :: upper) rest met ↔
      Met isVacated (location.child key) (entered isVacated location key (upper ++ rest) node)
        upper rest met := by
  have onward : upper ++ rest ≠ [] := by simp [further]
  -- If the child is vacated or missing, nothing of the parent counts below it, on either side.
  by_cases vacated : isVacated (location.child key)
  · have renewed : Renewed isVacated location (key :: upper ++ rest) (key :: upper) :=
      renewed_cons_cons_iff.mpr ⟨rfl, Or.inl ⟨onward, vacated⟩⟩
    rw [entered_of_vacated onward vacated, met_fresh_iff, met_iff_of_gone (Or.inr renewed)]
  · rcases isChild : node.child? key with _ | child
    · have missing : node.get? (key :: upper) = none := by
        rw [get?_cons, isChild]
        rfl
      rw [entered_of_child?_eq_none isChild, met_fresh_iff, met_iff_of_gone (Or.inl missing)]
    · have leads : node.get? (key :: upper) = child.get? upper := by
        rw [get?_cons, isChild]
        rfl
      have sameRenewed : Renewed isVacated location (key :: upper ++ rest) (key :: upper) ↔
          Renewed isVacated (location.child key) (upper ++ rest) upper := by
        rw [List.cons_append, renewed_cons_cons_iff]
        simp [vacated]
      rw [entered_of_kept isChild (fun both => vacated both.2)]
      constructor
      · rintro (⟨isMet, kept⟩ | gone)
        · exact .found (leads.symm.trans isMet) (mt sameRenewed.mpr kept)
        · exact .begun (gone.imp leads.symm.trans sameRenewed.mp)
      · rintro (⟨isMet, kept⟩ | gone)
        · exact .found (leads.trans isMet) (mt sameRenewed.mp kept)
        · exact .begun (gone.imp leads.trans sameRenewed.mpr)

/-- An array that a write comes to was there, or it is empty because it was just begun. -/
theorem Met.items_cases {items : Array Json}
    (isMet : Met isVacated location node upper (key :: rest) (.array items)) :
    node.get? upper = some (.array items) ∨
      items = #[] ∧
        (node.get? upper = none ∨ Renewed isVacated location (upper ++ key :: rest) upper) := by
  generalize isArray : Json.array items = met at isMet
  rcases isMet with ⟨leads, _⟩ | gone
  · exact Or.inl (isArray ▸ leads)
  · rw [fresh, containerFor] at isArray
    split at isArray
    · cases isArray
      exact Or.inr ⟨rfl, gone⟩
    · cases isArray

/-- A write that fails has met a node that cannot hold its next key, and leaves it so. -/
theorem exists_met_of_store_error {error : WriteError}
    (failed : (store isVacated value location path node).2 = .error error) :
    ∃ upper key rest met, path = upper ++ key :: rest ∧
      Met isVacated location node upper (key :: rest) met ∧
      (store isVacated value location path node).1.get? upper = some met ∧
      met.refusal? (location ++ upper) key = some error := by
  induction path generalizing location node with
  | nil => cases failed
  | cons key rest ih =>
      rcases refused : node.refusal? location key with _ | refusal
      · rcases store_of_not_refused isVacated value location rest refused with
          ⟨changed, entering, enters⟩
        rw [entering] at failed
        rcases ih failed with ⟨upper, next, others, met, rfl, isMet, leads, refusedBelow⟩
        refine ⟨key :: upper, next, others, met, rfl, (met_cons_iff (by simp)).mpr isMet, ?_, ?_⟩
        · rw [entering, get?_cons, enters.self]
          exact leads
        · rw [← child_append]
          exact refusedBelow
      · rw [store_of_refusal? refused] at failed ⊢
        cases failed
        exact ⟨[], key, rest, node, rfl, met_nil_iff.mpr rfl, rfl, by simpa using refused⟩

/-- A write that succeeds has met no node that could not hold its next key. -/
theorem refusal?_eq_none_of_store_ok {replaced : Bool}
    (succeeded : (store isVacated value location (upper ++ key :: rest) node).2 = .ok replaced)
    (isMet : Met isVacated location node upper (key :: rest) met) :
    met.refusal? (location ++ upper) key = none := by
  induction upper generalizing location node with
  | nil =>
      cases met_nil_iff.mp isMet
      rw [List.append_nil]
      rcases refused : met.refusal? location key with _ | refusal
      · rfl
      · rw [List.nil_append, store_of_refusal? refused] at succeeded
        cases succeeded
  | cons first upper ih =>
      rcases refused : node.refusal? location first with _ | refusal
      · rcases store_of_not_refused isVacated value location (upper ++ key :: rest) refused with
          ⟨changed, entering, _⟩
        rw [List.cons_append, entering] at succeeded
        rw [← child_append]
        exact ih succeeded ((met_cons_iff (by simp)).mp isMet)
      · rw [List.cons_append, store_of_refusal? refused] at succeeded
        cases succeeded

/-- A node that a write has come to has grown afterwards. -/
theorem growsInto_of_met {grown : Json}
    (isMet : Met isVacated location node upper (key :: rest) met)
    (leads :
      (store isVacated value location (upper ++ key :: rest) node).1.get? upper = some grown) :
    met.GrowsInto grown := by
  induction upper generalizing location node with
  | nil =>
      cases met_nil_iff.mp isMet
      cases leads
      exact growsInto_store isVacated value location key rest met
  | cons first upper ih =>
      rcases refused : node.refusal? location first with _ | refusal
      · rcases store_of_not_refused isVacated value location (upper ++ key :: rest) refused with
          ⟨changed, entering, enters⟩
        rw [List.cons_append, entering, get?_cons, enters.self] at leads
        exact ih ((met_cons_iff (by simp)).mp isMet) leads
      · rw [List.cons_append, store_of_refusal? refused, get?_cons,
          child?_eq_none_of_refusal? refused] at leads
        cases leads

/-! ### What becomes of the other nodes -/

theorem get?_eq_none_of_refusal? {error : WriteError} (leads : node.get? upper = some met)
    (refused : met.refusal? location key = some error) :
    node.get? (upper ++ key :: rest) = none := by
  rw [get?_append, leads, Option.bind_some, get?_cons, child?_eq_none_of_refusal? refused]
  rfl

/-- A write that fails does not come to its end: there was no node at or below it, unless on the way
a node is begun anew. -/
theorem not_prefix_of_store_error {error : WriteError} {other : KeyPath}
    (failed : (store isVacated value location path node).2 = .error error)
    (present : (node.get? other).isSome) (kept : ¬Renewed isVacated location path other) :
    ¬path <+: other := by
  rintro ⟨lower, rfl⟩
  rcases exists_met_of_store_error failed with ⟨upper, key, rest, met, rfl, isMet, _, refused⟩
  have missing : node.get? (upper ++ key :: rest) = none := by
    rcases isMet with ⟨leads, _⟩ | (missing | renewed)
    · exact get?_eq_none_of_refusal? leads refused
    · rw [get?_append, missing]
      rfl
    · exact absurd (renewed.mono ⟨key :: rest ++ lower, by simp⟩) kept
  rw [get?_append, missing] at present
  cases present

/-- After a write that failed there is no node at its end or below. -/
theorem not_prefix_after_store_error {error : WriteError} {other : KeyPath}
    (failed : (store isVacated value location path node).2 = .error error)
    (present : ((store isVacated value location path node).1.get? other).isSome) :
    ¬path <+: other := by
  rintro ⟨lower, rfl⟩
  rcases exists_met_of_store_error failed with ⟨upper, key, rest, met, isPath, _, leads, refused⟩
  have missing : (store isVacated value location path node).1.get? path = none := by
    rw [isPath] at leads ⊢
    exact get?_eq_none_of_refusal? leads refused
  rw [get?_append, missing] at present
  cases present

/-- A node that is not begun anew, and that lies neither where the value is stored nor below, is
there after the write. It has grown if the write goes through it, and otherwise it is the same. -/
theorem get?_store_of_get? {other : KeyPath} {found : Json} (leads : node.get? other = some found)
    (kept : ¬Renewed isVacated location path other) (notBelow : ¬path <+: other) :
    ∃ grown, (store isVacated value location path node).1.get? other = some grown ∧
      found.GrowsInto grown ∧ (¬other <+: path → grown = found) := by
  induction path generalizing location node other with
  | nil => exact absurd List.nil_prefix notBelow
  | cons key rest ih =>
      rcases other with _ | ⟨first, other⟩
      · cases leads
        refine ⟨_, rfl, growsInto_store isVacated value location key rest found, ?_⟩
        intro notAbove
        exact absurd List.nil_prefix notAbove
      · rcases refused : node.refusal? location key with _ | refusal
        · rcases store_of_not_refused isVacated value location rest refused with
            ⟨changed, entering, enters⟩
          rw [entering]
          rw [get?_cons] at leads
          rcases Option.bind_eq_some_iff.mp leads with ⟨child, isChild, leadsOn⟩
          by_cases isKey : first = key
          · subst isKey
            rw [renewed_cons_cons_iff] at kept
            simp only [true_and, not_or] at kept
            rw [entered_of_kept isChild kept.1] at enters
            have restNotBelow : ¬rest <+: other := by
              simpa [List.cons_prefix_cons] using notBelow
            rcases ih leadsOn kept.2 restNotBelow with ⟨grown, leadsTo, grows, same⟩
            refine ⟨grown, ?_, grows, ?_⟩
            · rw [get?_cons, enters.self]
              exact leadsTo
            · intro notAbove
              apply same
              simpa [List.cons_prefix_cons] using notAbove
          · refine ⟨found, ?_, .refl found, fun _ => rfl⟩
            rw [get?_cons, enters.kept first isKey child isChild]
            exact leadsOn
        · rw [store_of_refusal? refused]
          exact ⟨found, leads, .refl found, fun _ => rfl⟩

/-- A `null` in front of the position that a path takes in an array. -/
def IsPadding (root : Json) (path other : KeyPath) : Prop :=
  root.get? other = some .null ∧
    ∃ (array rest : KeyPath) (items : Array Json) (position slot : Nat),
      root.get? array = some (.array items) ∧ path = array ++ toString position :: rest ∧
        other = array ++ [toString slot] ∧ slot < position

theorem IsPadding.cons {child : Json} {other : KeyPath} (isPadding : child.IsPadding path other)
    (isChild : node.child? key = some child) : node.IsPadding (key :: path) (key :: other) := by
  rcases isPadding with ⟨isNull, array, rest, items, position, slot, leads, rfl, rfl, before⟩
  refine ⟨?_, key :: array, rest, items, position, slot, ?_, rfl, rfl, before⟩
  · rw [get?_cons, isChild]
    exact isNull
  · rw [get?_cons, isChild]
    exact leads

/-- What is found next to the way of a write was there before, or is padding. -/
theorem isSome_or_isPadding_of_beside {first : String} {other : KeyPath} {found : Json}
    (accepts : node.refusal? location key = none) (differs : first ≠ key)
    (leads : (store isVacated value location (key :: rest) node).1.get? (first :: other) =
      some found) :
    (node.get? (first :: other)).isSome ∨
      (store isVacated value location (key :: rest) node).1.IsPadding (key :: rest)
        (first :: other) := by
  rw [get?_cons] at leads
  rcases Option.bind_eq_some_iff.mp leads with ⟨child, isChild, leadsOn⟩
  rcases wasChild : node.child? first with _ | old
  · rcases padding_of_store differs wasChild isChild with
      ⟨rfl, items, position, slot, isArray, rfl, rfl, before⟩
    have atEnd : other = [] := by
      rcases other with _ | ⟨next, other⟩
      · rfl
      · cases leadsOn
    subst atEnd
    right
    refine ⟨?_, [], rest, items, position, slot, by rw [isArray]; rfl, rfl, rfl, before⟩
    rw [get?_cons, isChild]
    rfl
  · rcases store_of_not_refused isVacated value location rest accepts with
      ⟨changed, entering, enters⟩
    rw [entering, enters.kept first differs old wasChild] at isChild
    cases isChild
    left
    rw [get?_cons, wasChild, Option.bind_some, leadsOn]
    rfl

/-- What was there in a child that a write enters was there in the parent and is not begun anew, or
it is a container that was just begun. -/
theorem kept_or_begun_of_entered {next : String} {other : KeyPath}
    (wasThere : ((entered isVacated location key (next :: rest) node).get? other).isSome)
    (kept : ¬Renewed isVacated (location.child key) (next :: rest) other) :
    ((node.get? (key :: other)).isSome ∧
        ¬Renewed isVacated location (key :: next :: rest) (key :: other)) ∨
      (other = [] ∧ entered isVacated location key (next :: rest) node = fresh (next :: rest)) := by
  have ofBegun (begun : entered isVacated location key (next :: rest) node = fresh (next :: rest)) :
      other = [] := by
    rw [begun] at wasThere
    rcases Option.isSome_iff_exists.mp wasThere with ⟨found, leads⟩
    exact eq_nil_of_get?_fresh leads
  by_cases vacated : isVacated (location.child key)
  · have begun : entered isVacated location key (next :: rest) node = fresh (next :: rest) :=
      entered_of_vacated (by simp) vacated
    exact Or.inr ⟨ofBegun begun, begun⟩
  · rcases isChild : node.child? key with _ | child
    · have begun : entered isVacated location key (next :: rest) node = fresh (next :: rest) :=
        entered_of_child?_eq_none isChild
      exact Or.inr ⟨ofBegun begun, begun⟩
    · rw [entered_of_kept isChild fun both => vacated both.2] at wasThere
      left
      refine ⟨by rw [get?_cons, isChild]; exact wasThere, ?_⟩
      rw [renewed_cons_cons_iff]
      simp [vacated, kept]

/-- A node that is found after a write was there and was not begun anew, or it is a container on the
way, or padding, or it lies where the value is stored. -/
theorem origin_of_get?_store {other : KeyPath} {found : Json}
    (leads : (store isVacated value location path node).1.get? other = some found) :
    ((node.get? other).isSome ∧ ¬Renewed isVacated location path other) ∨
      (other <+: path ∧ other ≠ path ∧ found.isContainer) ∨
      (store isVacated value location path node).1.IsPadding path other ∨
      path <+: other := by
  induction path generalizing location node other with
  | nil => exact Or.inr (Or.inr (Or.inr List.nil_prefix))
  | cons key rest ih =>
      rcases other with _ | ⟨first, other⟩
      · exact Or.inl ⟨rfl, not_renewed_nil⟩
      · rw [List.cons_prefix_cons, List.cons_prefix_cons, renewed_cons_cons_iff]
        rcases refused : node.refusal? location key with _ | refusal
        case some =>
          rw [store_of_refusal? refused] at leads
          -- The tree is as it was, and what is refused had no node under the key.
          left
          refine ⟨by rw [leads]; rfl, ?_⟩
          rintro ⟨rfl, _⟩
          rw [get?_cons, child?_eq_none_of_refusal? refused] at leads
          cases leads
        case none =>
          by_cases isKey : first = key
          case neg =>
            rcases isSome_or_isPadding_of_beside refused isKey leads with wasThere | isPadding
            · exact Or.inl ⟨wasThere, fun renewed => isKey renewed.1⟩
            · exact Or.inr (Or.inr (Or.inl isPadding))
          case pos =>
            subst isKey
            rcases store_of_not_refused isVacated value location rest refused with
              ⟨changed, entering, enters⟩
            rw [entering] at leads ⊢
            rw [get?_cons, enters.self] at leads
            rcases rest with _ | ⟨next, rest⟩
            · exact Or.inr (Or.inr (Or.inr ⟨rfl, List.nil_prefix⟩))
            · rcases ih leads with
                ⟨wasThere, kept⟩ | ⟨above, proper, isContainer⟩ | isPadding | below
              · rcases kept_or_begun_of_entered wasThere kept with
                  ⟨wasHere, keptHere⟩ | ⟨rfl, isBegun⟩
                · left
                  refine ⟨wasHere, ?_⟩
                  rw [renewed_cons_cons_iff] at keptHere
                  exact keptHere
                · -- The container that was begun for the next key is the node itself, grown.
                  rw [isBegun] at leads
                  cases leads
                  have grown := growsInto_store isVacated value (location.child first) next rest
                    (fresh (next :: rest))
                  refine Or.inr (Or.inl ⟨⟨rfl, List.nil_prefix⟩, by simp, ?_⟩)
                  rw [grown.isContainer_eq]
                  exact isContainer_fresh_cons next rest
              · exact Or.inr (Or.inl ⟨⟨rfl, above⟩, by simpa using proper, isContainer⟩)
              · exact Or.inr (Or.inr (Or.inl (isPadding.cons enters.self)))
              · exact Or.inr (Or.inr (Or.inr ⟨rfl, below⟩))

/-- How many slots lie between the end of an array and a position, unless the position lies before
the end. -/
def gap? (size position : Nat) : Option Nat :=
  if size ≤ position then some (position - size) else none

/-- Stores like `store`, and computes how far an array has to grow by a subtraction that has no
result below zero. The outcome is `none` if that subtraction had none. -/
def storeByGaps (isVacated : KeyPath → Bool) (value : Json) :
    (location keys : KeyPath) → (node : Json) → Json × Option (Except WriteError Bool)
  | _, [], node => (value, some (.ok node.isContainer))
  | location, key :: rest, node =>
      let below := location.child key
      let enter (child : Json) : Json × Option (Except WriteError Bool) :=
        storeByGaps isVacated value below rest
          (if !rest.isEmpty && isVacated below then fresh rest else child)
      match node with
      | .object members =>
          let (changed, outcome) := enterMember key (fresh rest) enter members
          (.object changed, outcome)
      | .array items =>
          match arrayIndex? key with
          | none => (.array items, some (.error (.blocked .array location)))
          | some position =>
              if position < items.size then
                let (changed, outcome) := changeItem position enter items
                (.array changed, outcome.join)
              else
                match gap? items.size position with
                | none => (.array items, none)
                | some gap =>
                    if maxGap < gap then (.array items, some (.error (.tooFar position location)))
                    else
                      let (child, outcome) := enter (fresh rest)
                      (.array ((items ++ Array.replicate gap Json.null).push child), outcome)
      | other => (other, some (.error (.blocked .leaf location)))

theorem enterMember_map_some {α : Type} (name : String) (created : Json)
    (change : Json → Json × α) (members : List (String × Json)) :
    enterMember name created (fun child => Prod.map id some (change child)) members =
      Prod.map id some (enterMember name created change members) := by
  induction members with
  | nil => rfl
  | cons member members ih =>
      simp only [enterMember, ih]
      split <;> rfl

/-- No gap is ever computed for a position before the end of its array, so that storing by gaps
always has an outcome, and the same as storing. -/
theorem storeByGaps_eq (isVacated : KeyPath → Bool) (value : Json) (location path : KeyPath)
    (node : Json) :
    storeByGaps isVacated value location path node =
      Prod.map id some (store isVacated value location path node) := by
  induction path generalizing location node with
  | nil => rfl
  | cons key rest ih =>
      cases node with
      | object members =>
          simp only [storeByGaps, ih, store]
          rw [enterMember_map_some]
          rfl
      | array items =>
          simp only [storeByGaps, ih, store]
          rcases arrayIndex? key with _ | position
          · rfl
          · by_cases inside : position < items.size
            · have near : ¬items.size + maxGap < position := by omega
              simp [inside, near, enterItem, changeItem]
            · have isGap : gap? items.size position = some (position - items.size) := by
                rw [gap?, if_pos (by omega)]
              have far : maxGap < position - items.size ↔ items.size + maxGap < position := by
                omega
              simp only [inside, if_false, isGap, far]
              split
              · rfl
              · simp [enterItem, changeItem, inside]
      | null => rfl
      | bool value => rfl
      | number value => rfl
      | string text => rfl

end Graft.Json
