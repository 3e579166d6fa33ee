import Graft.Proofs.Mapping.Run
import Graft.Proofs.Tree.Beside
import Graft.Proofs.Tree.Pruning

/-!
# Transforms to fresh destinations

When every leaf of an object goes to a name that the object does not have, a transform does to the
new members what a map does to an empty object, while it takes leaves out of the old members. The
two run side by side: the old members stand before the new ones, and slots are vacated only among
the old ones. In the end the old members are pruned, and the new ones are those of the map.
-/

namespace Graft.RuleSet

open Json (settleAt settleAll goneIf leafImage)
open KeyPath (Apart)

/-- Whether the rules move a leaf: a rule matches it and no value rule gives it up. -/
def moves (rules : RuleSet) (path : KeyPath) (value : Json) : Bool :=
  match rules.verdict path value with
  | .place _ _ => true
  | _ => false

/-- A transform that has what is left of the old members and, behind them, what a map has. -/
structure Mirrors (names : List String) (left right : List (String × Json))
    (moving copying : Draft) : Prop where
  moved : moving.root = .object (left ++ right)
  copied : copying.root = .object right
  leftOld : ∀ name, name ∉ names → left.lookup name = none
  rightNew : ∀ name, name ∈ names → right.lookup name = none
  noSlots : ∀ slot, slot ∉ copying.vacated
  slotsOld : ∀ slot ∈ moving.vacated, ∃ name key rest, slot = name :: key :: rest ∧ name ∈ names
  unwritten : ∀ name ∈ names, ∀ rest : KeyPath, moving.written[name :: rest]? = none

variable {names : List String} {left right : List (String × Json)} {moving copying : Draft}

theorem Mirrors.mem_names (mirrors : Mirrors names left right moving copying) {name : String}
    (found : left.lookup name ≠ none) : name ∈ names := by
  apply Classical.byContradiction
  intro notOld
  exact found (mirrors.leftOld name notOld)

theorem Mirrors.get?_root (mirrors : Mirrors names left right moving copying) {path : KeyPath}
    {found : Json} (nonempty : path ≠ []) (leads : (Json.object left).get? path = some found) :
    moving.root.get? path = some found := by
  rcases path with _ | ⟨key, rest⟩
  · exact absurd rfl nonempty
  · rw [Json.get?_cons, Json.child?] at leads
    rcases Option.bind_eq_some_iff.mp leads with ⟨child, isChild, leadsOn⟩
    rw [mirrors.moved, Json.get?_cons, Json.child?, List.lookup_append, isChild]
    exact leadsOn

theorem Mirrors.remove (mirrors : Mirrors names left right moving copying) {path : KeyPath}
    {found : Json} (nonempty : path ≠ []) (leads : (Json.object left).get? path = some found) :
    ∃ remaining, Mirrors names remaining right (moving.remove path).1 copying ∧
      .object remaining = settleAt .goes path (.object left) ∧
      ∀ slot, slot ∈ (moving.remove path).1.vacated ↔
        slot ∈ moving.vacated ∨ slot = path ∧ (Json.object left).inArray path := by
  rcases List.eq_nil_or_concat path with rfl | ⟨parent, key, isConcat⟩
  · exact absurd rfl nonempty
  · rw [List.concat_eq_append] at isConcat
    subst isConcat
    have missing : ∀ name, left.lookup name ≠ none → right.lookup name = none :=
      fun name isThere => mirrors.rightNew name (mirrors.mem_names isThere)
    rcases Json.changeAt_takeChild_beside leads missing with ⟨remaining, isLeft, isBoth, names⟩
    rcases moving.remove_append parent key with ⟨root, written, vacated⟩
    have told := (Json.changeAt_takeChild_spec leads).1
    rw [mirrors.moved, isBoth] at root vacated
    rw [told] at vacated
    have slots : ∀ slot, slot ∈ (moving.remove (parent ++ [key])).1.vacated ↔
        slot ∈ moving.vacated ∨
          slot = parent ++ [key] ∧ (Json.object left).inArray (parent ++ [key]) := by
      intro slot
      rw [vacated, Json.inArray, List.dropLast_concat, and_comm]
      rfl
    refine ⟨remaining, ?_, ?_, slots⟩
    · refine ⟨root, mirrors.copied, fun name notOld => names name (mirrors.leftOld name notOld),
        mirrors.rightNew, mirrors.noSlots, ?_, ?_⟩
      · intro slot isSlot
        rcases (slots slot).mp isSlot with wasSlot | ⟨rfl, inArray⟩
        · exact mirrors.slotsOld slot wasSlot
        · rcases parent with _ | ⟨first, parent⟩
          · cases inArray
          · rw [List.cons_append, Json.get?_cons, Json.child?] at leads
            rcases Option.bind_eq_some_iff.mp leads with ⟨child, isChild, _⟩
            have isOld : first ∈ _ := mirrors.mem_names (by rw [isChild]; simp)
            rcases parent with _ | ⟨second, parent⟩
            · exact ⟨first, key, [], rfl, isOld⟩
            · exact ⟨first, second, parent ++ [key], rfl, isOld⟩
      · rw [written]
        exact mirrors.unwritten
    · rw [Json.settleAt_goes, isLeft]

/-- Writing to a new name does the same on both sides. -/
theorem Mirrors.write (mirrors : Mirrors names left right moving copying) {key : String}
    (isNew : key ∉ names) (rest : KeyPath) (value : Json) :
    (moving.write (key :: rest) value).2 = (copying.write (key :: rest) value).2 ∧
      ((copying.write (key :: rest) value).2 = .ok () →
        ∃ added, Mirrors names left added (moving.write (key :: rest) value).1
            (copying.write (key :: rest) value).1 ∧
          ∀ slot, slot ∈ (moving.write (key :: rest) value).1.vacated ↔ slot ∈ moving.vacated) := by
  have oldDiffers : ∀ name ∈ names, name ≠ key := by
    rintro name isOld rfl
    exact isNew isOld
  have notVacated : ∀ lower, moving.vacated.contains ([] ++ key :: lower) =
      copying.vacated.contains ([] ++ key :: lower) := by
    intro lower
    have notMoving : moving.vacated.contains (key :: lower) = false := by
      apply Bool.eq_false_iff.mpr
      intro isSlot
      rcases mirrors.slotsOld _ isSlot with ⟨name, next, others, same, isOld⟩
      cases same
      exact isNew isOld
    have notCopying : copying.vacated.contains (key :: lower) = false := by
      apply Bool.eq_false_iff.mpr
      exact mirrors.noSlots _
    rw [List.nil_append, notMoving, notCopying]
  rcases Json.store_beside notVacated value (mirrors.leftOld key isNew) right with
    ⟨added, copiedStore, movedStore, others⟩
  have sameOutcome : (moving.write (key :: rest) value).2 =
      (copying.write (key :: rest) value).2 := by
    rw [moving.outcome_write (by simp), copying.outcome_write (by simp), mirrors.moved,
      mirrors.copied, movedStore]
  refine ⟨sameOutcome, ?_⟩
  intro success
  have movedRoot := moving.root_write (List.cons_ne_nil key rest) value
  have copiedRoot := copying.root_write (List.cons_ne_nil key rest) value
  rw [mirrors.moved, movedStore] at movedRoot
  rw [mirrors.copied, copiedStore] at copiedRoot
  rcases (Draft.write_ok (Prod.ext rfl (sameOutcome.trans success))).2 with
    ⟨_, _, movedVacated, movedWritten⟩
  rcases (Draft.write_ok (Prod.ext rfl success)).2 with ⟨_, _, copiedVacated, _⟩
  have sameSlots : ∀ slot,
      slot ∈ (moving.write (key :: rest) value).1.vacated ↔ slot ∈ moving.vacated := by
    intro slot
    rw [movedVacated]
    constructor
    · exact And.left
    · intro isSlot
      rcases mirrors.slotsOld slot isSlot with ⟨name, next, lower, rfl, isOld⟩
      have differs := oldDiffers name isOld
      refine ⟨isSlot, ?_, ?_⟩
      · rintro upper _ above rfl
        exact differs (List.cons_prefix_cons.mp above).1
      · rintro ⟨_, below⟩
        exact differs (List.cons_prefix_cons.mp below).1.symm
  refine ⟨added, ⟨movedRoot, copiedRoot, mirrors.leftOld, ?_, ?_, ?_, ?_⟩, sameSlots⟩
  · intro name isOld
    rw [others name (oldDiffers name isOld), mirrors.rightNew name isOld]
  · intro slot isSlot
    exact mirrors.noSlots slot ((copiedVacated slot).mp isSlot).1
  · intro slot isSlot
    exact mirrors.slotsOld slot ((sameSlots slot).mp isSlot)
  · intro name isOld lower
    have differs := oldDiffers name isOld
    have notBelow : ¬key :: rest <+: name :: lower := by
      intro below
      exact differs (List.cons_prefix_cons.mp below).1.symm
    rw [movedWritten _ notBelow, Draft.getElem?_foldl_noteWritten]
    · exact mirrors.unwritten name isOld lower
    · rintro ⟨array, position⟩ step rfl
      rcases Json.eq_append_of_mem_arraySteps step with ⟨upper, others, isUpper, isPath⟩
      rw [List.nil_append] at isUpper
      rw [← isUpper] at isPath
      cases isPath
      exact differs rfl

/-- What a step of the transform and the same step of the map come to. -/
theorem Mirrors.step (rules : RuleSet) (mirrors : Mirrors names left right moving copying)
    {leaf : KeyPath × Json} (nonempty : leaf.1 ≠ [])
    (leads : (Json.object left).get? leaf.1 = some leaf.2) (isLeaf : leaf.2.isLeaf)
    (notVacated : leaf.1 ∉ moving.vacated)
    (fresh : ∀ target revised, rules.verdict leaf.1 leaf.2 = .place target revised →
      ∃ key rest, target = key :: rest ∧ key ∉ names) :
    (rules.move leaf.1 moving).2 = (rules.copy leaf copying).2 ∧
      ((rules.copy leaf copying).2 = .ok () →
        ∃ remaining added, Mirrors names remaining added (rules.move leaf.1 moving).1
            (rules.copy leaf copying).1 ∧
          .object remaining =
            settleAt (goneIf rules.moves leaf.1 leaf.2) leaf.1 (.object left) ∧
          ∀ slot, slot ∈ (rules.move leaf.1 moving).1.vacated ↔ slot ∈ moving.vacated ∨
            slot = leaf.1 ∧ rules.moves leaf.1 leaf.2 ∧ (Json.object left).inArray leaf.1) := by
  have found : leafAt? moving leaf.1 = some leaf.2 := by
    simp [leafAt?, Draft.isVacated, notVacated, mirrors.get?_root nonempty leads, isLeaf]
  rcases verdict : rules.verdict leaf.1 leaf.2 with error | _ | ⟨target, revised⟩
  · have moved : rules.move leaf.1 moving = (moving, .error error) := by
      simp only [move, found, verdict]
    have copied : rules.copy leaf copying = (copying, .error error) := by
      simp only [copy, verdict]
    rw [moved, copied]
    refine ⟨rfl, ?_⟩
    intro impossible
    cases impossible
  · have moved : rules.move leaf.1 moving = (moving, .ok ()) := by
      simp only [move, found, verdict]
    have copied : rules.copy leaf copying = (copying, .ok ()) := by
      simp only [copy, verdict]
    have stays : rules.moves leaf.1 leaf.2 = false := by
      simp only [moves, verdict]
    rw [moved, copied]
    refine ⟨rfl, fun _ => ⟨left, right, mirrors, ?_, ?_⟩⟩
    · simp only [goneIf, stays, Bool.false_eq_true, if_false, Json.settleAt_stays]
    · simp [stays]
  · have moved : rules.move leaf.1 moving = placeLeaf (moving.remove leaf.1).1 target revised := by
      simp only [move, found, verdict]
    have copied : rules.copy leaf copying = placeLeaf copying target revised := by
      simp only [copy, verdict]
    have goes : rules.moves leaf.1 leaf.2 = true := by
      simp only [moves, verdict]
    rw [moved, copied]
    rcases fresh target revised verdict with ⟨key, rest, rfl, isNew⟩
    rcases mirrors.remove nonempty leads with ⟨remaining, removed, isRemaining, slots⟩
    rcases removed.write isNew rest revised with ⟨sameOutcome, onSuccess⟩
    refine ⟨by simp only [placeLeaf, sameOutcome], ?_⟩
    intro success
    have written : (copying.write (key :: rest) revised).2 = .ok () := by
      rcases outcome : (copying.write (key :: rest) revised).2 with error | _
      · simp only [placeLeaf, outcome] at success
        cases success
      · rfl
    rcases onSuccess written with ⟨added, next, sameSlots⟩
    refine ⟨remaining, added, next, ?_, ?_⟩
    · simp only [goneIf, goes, if_true, isRemaining]
    · intro slot
      simp only [placeLeaf, sameSlots, slots, goes, true_and]

/-- A transform and a map run side by side until one of them, and then both, come to a fault. -/
theorem Mirrors.runSteps (rules : RuleSet) (listed : List (KeyPath × Json))
    (mirrors : Mirrors names left right moving copying)
    (leaves : ∀ leaf ∈ listed, leaf.1 ≠ [] ∧ (Json.object left).get? leaf.1 = some leaf.2 ∧
      leaf.2.isLeaf ∧ leaf.1 ∉ moving.vacated)
    (apart : listed.Pairwise fun first second => Apart first.1 second.1)
    (fresh : ∀ leaf ∈ listed, ∀ target revised,
      rules.verdict leaf.1 leaf.2 = .place target revised →
        ∃ key rest, target = key :: rest ∧ key ∉ names) :
    (RuleSet.runSteps rules.move (listed.map Prod.fst) moving).2 =
        (RuleSet.runSteps rules.copy listed copying).2 ∧
      ((RuleSet.runSteps rules.copy listed copying).2 = .ok () →
        ∃ remaining added,
          Mirrors names remaining added
            (RuleSet.runSteps rules.move (listed.map Prod.fst) moving).1
            (RuleSet.runSteps rules.copy listed copying).1 ∧
          .object remaining = settleAll (goneIf rules.moves) listed (.object left) ∧
          ∀ slot, slot ∈ (RuleSet.runSteps rules.move (listed.map Prod.fst) moving).1.vacated ↔
            slot ∈ moving.vacated ∨ ∃ leaf ∈ listed, slot = leaf.1 ∧
              rules.moves leaf.1 leaf.2 ∧ (Json.object left).inArray leaf.1) := by
  induction listed generalizing left right moving copying with
  | nil =>
      refine ⟨rfl, fun _ => ⟨left, right, mirrors, rfl, ?_⟩⟩
      simp [RuleSet.runSteps]
  | cons leaf listed ih =>
      rcases List.forall_mem_cons.mp leaves with ⟨⟨nonempty, leads, isLeaf, notVacated⟩, others⟩
      rcases List.pairwise_cons.mp apart with ⟨apartOthers, othersApart⟩
      rcases List.forall_mem_cons.mp fresh with ⟨leafFresh, othersFresh⟩
      rcases mirrors.step rules nonempty leads isLeaf notVacated leafFresh with
        ⟨sameOutcome, onSuccess⟩
      rw [List.map_cons, RuleSet.runSteps, RuleSet.runSteps]
      rcases copied : rules.copy leaf copying with ⟨copyingNext, error | _⟩
      · rcases moved : rules.move leaf.1 moving with ⟨movingNext, outcome⟩
        rw [copied, moved] at sameOutcome
        cases sameOutcome
        refine ⟨rfl, ?_⟩
        intro impossible
        cases impossible
      · rcases moved : rules.move leaf.1 moving with ⟨movingNext, outcome⟩
        rw [copied, moved] at sameOutcome onSuccess
        cases sameOutcome
        rcases onSuccess rfl with ⟨remaining, added, next, isRemaining, slots⟩
        have agrees : ∀ other ∈ listed,
            Json.AgreeAlong other.1 (.object left) (.object remaining) := by
          intro other inside
          rw [isRemaining]
          exact .settleAt (apartOthers other inside) _ (others other inside).2.1
        have stillThere : ∀ other ∈ listed, other.1 ≠ [] ∧
            (Json.object remaining).get? other.1 = some other.2 ∧ other.2.isLeaf ∧
              other.1 ∉ movingNext.vacated := by
          intro other inside
          rcases others other inside with ⟨otherNonempty, otherLeads, otherIsLeaf, otherClear⟩
          refine ⟨otherNonempty, (agrees other inside).get?_eq.trans otherLeads, otherIsLeaf, ?_⟩
          intro isSlot
          rcases (slots other.1).mp isSlot with wasSlot | ⟨same, _⟩
          · exact otherClear wasSlot
          · have above : leaf.1 <+: other.1 := by simp only [same, List.prefix_refl]
            exact (apartOthers other inside).1 above
        rcases ih next stillThere othersApart othersFresh with ⟨sameRun, onRun⟩
        refine ⟨sameRun, ?_⟩
        intro success
        rcases onRun success with ⟨lastRemaining, lastAdded, last, isLast, lastSlots⟩
        refine ⟨lastRemaining, lastAdded, last, ?_, ?_⟩
        · rw [isLast, isRemaining]
          rfl
        · intro slot
          have sameKinds : (∃ other ∈ listed, slot = other.1 ∧ rules.moves other.1 other.2 ∧
                (Json.object remaining).inArray other.1) ↔
              ∃ other ∈ listed, slot = other.1 ∧ rules.moves other.1 other.2 ∧
                (Json.object left).inArray other.1 := by
            apply exists_congr
            intro other
            apply and_congr_right
            intro inside
            rw [(agrees other inside).inArray_eq (others other inside).1]
          rw [lastSlots, slots, sameKinds, or_assoc]
          simp only [List.mem_cons, or_and_right, exists_or, exists_eq_left]

theorem destination_of_verdict_eq_place {rules : RuleSet} {path target : KeyPath}
    {value revised : Json} (placed : rules.verdict path value = .place target revised) :
    (rules.destination path).value = .ok (some target) := by
  simp only [verdict] at placed
  split at placed
  case h_1 => cases placed
  case h_2 => cases placed
  case h_3 found isTarget =>
    split at placed
    case h_1 => cases placed
    case h_2 =>
      cases placed
      exact isTarget

theorem mirrors_ofTree (members : List (String × Json)) :
    Mirrors (members.map Prod.fst) members [] (.ofTree (.object members))
      (.ofTree (.object [])) := by
  refine ⟨by simp [Draft.ofTree], rfl, ?_, fun _ _ => rfl, ?_, ?_, ?_⟩
  · intro name notOld
    apply List.lookup_eq_none_iff.mpr
    intro member inside
    apply bne_iff_ne.mpr
    rintro rfl
    exact notOld (List.mem_map_of_mem inside)
  · intro slot
    simp [Draft.ofTree]
  · intro slot isSlot
    simp [Draft.ofTree] at isSlot
  · intro name _ rest
    simp [Draft.ofTree]

/-- From the old arrays, just the leaves that the rules move are dropped. -/
theorem Mirrors.contains_doomed (mirrors : Mirrors names left right moving copying)
    {rules : RuleSet} {members : List (String × Json)} (regular : (Json.object members).Regular)
    (old : ∀ name, members.lookup name ≠ none → name ∈ names)
    (slots : ∀ slot, slot ∈ moving.vacated ↔ ∃ leaf ∈ (Json.object members).relativeLeaves,
      slot = leaf.1 ∧ rules.moves leaf.1 leaf.2 ∧ (Json.object members).inArray leaf.1)
    {array : KeyPath} {items : List Json}
    (leads : (Json.object members).get? array = some (.array ⟨items⟩)) {position : Nat}
    {item : Json} (found : items[position]? = some item) :
    (moving.doomed.getD array ∅).contains position =
      (item.isLeaf && rules.moves (array.child (toString position)) item) := by
  have inside : position < items.length := (List.getElem?_eq_some_iff.mp found).1
  have bound : position < UInt64.size := Nat.lt_of_lt_of_le inside (regular.get? leads).fits
  have slotLeads :
      (Json.object members).get? (array.child (toString position)) = some item := by
    rw [KeyPath.child, Json.get?_append, leads, Option.bind_some, Json.get?_cons,
      Json.child?_array bound, found]
    rfl
  apply Bool.eq_iff_iff.mpr
  rw [Bool.and_eq_true]
  constructor
  · intro isDropped
    rcases Draft.mem_doomed.mp isDropped with ⟨_, isSlot, _⟩
    rcases (slots _).mp isSlot with ⟨⟨path, value⟩, isListed, rfl, goes, _⟩
    rcases regular.mem_relativeLeaves_iff.mp isListed with ⟨_, leadsLeaf, isLeaf⟩
    rw [slotLeads] at leadsLeaf
    cases leadsLeaf
    exact ⟨isLeaf, goes⟩
  · rintro ⟨isLeaf, goes⟩
    have isListed := regular.mem_relativeLeaves_iff.mpr
      ⟨by simp [KeyPath.child], slotLeads, isLeaf⟩
    have inArray : (Json.object members).inArray (array.child (toString position)) := by
      rw [Json.inArray, KeyPath.child, List.dropLast_concat, leads]
      rfl
    refine Draft.mem_doomed.mpr
      ⟨bound, (slots _).mpr ⟨_, isListed, rfl, goes, inArray⟩, ?_⟩
    rintro ⟨highest, isHighest, _⟩
    rcases array with _ | ⟨name, rest⟩
    · cases leads
    · rw [Json.get?_cons, Json.child?] at leads
      rcases Option.bind_eq_some_iff.mp leads with ⟨child, isChild, _⟩
      have isOld := old name (by rw [isChild]; simp)
      rw [mirrors.unwritten name isOld rest] at isHighest
      cases isHighest

/-- What is left of the old members, once the items that went are dropped, is what pruning
leaves. -/
theorem Mirrors.finish (mirrors : Mirrors names left right moving copying)
    {rules : RuleSet} {members : List (String × Json)} (regular : (Json.object members).Regular)
    (old : ∀ name, members.lookup name ≠ none → name ∈ names)
    (isLeft : Json.object left = leafImage (goneIf rules.moves) (.object members))
    (slots : ∀ slot, slot ∈ moving.vacated ↔ ∃ leaf ∈ (Json.object members).relativeLeaves,
      slot = leaf.1 ∧ rules.moves leaf.1 leaf.2 ∧ (Json.object members).inArray leaf.1) :
    moving.finish = .object (Json.pruneMembers rules.moves members ++ right) := by
  have apart : ∀ slot ∈ moving.vacated, ∃ name key rest, slot = name :: key :: rest ∧
      right.lookup name = none := by
    intro slot isSlot
    rcases mirrors.slotsOld slot isSlot with ⟨name, key, rest, same, isOld⟩
    exact ⟨name, key, rest, same, mirrors.rightNew name isOld⟩
  rcases moving.finish_beside mirrors.moved apart with ⟨remaining, alone, both⟩
  have leftRegular : (Json.object left).Regular := by
    rw [isLeft]
    exact regular.leafImage_goneIf rules.moves
  have compacted : Json.object remaining = Json.compact (fun array position =>
      (moving.doomed.getD array ∅).contains position) (.object left) :=
    alone.symm.trans
      ((Draft.mk (.object left) moving.vacated moving.written).finish_eq_compact leftRegular)
  have pruned := regular.compact_leafImage_goneIf
    fun _ _ leads _ _ found => mirrors.contains_doomed regular old slots leads found
  rw [isLeft, pruned, Json.prune, Json.object.injEq] at compacted
  rw [both, compacted]

/-- If no leaf of an object goes to a name that the object has, a transform fails just as a map of
the object does, and otherwise gives the pruned object with the members of the map behind. -/
theorem transform_eq_prune_append_map (rules : RuleSet) {members : List (String × Json)}
    (regular : (Json.object members).Regular)
    (fresh : ∀ leaf ∈ (Json.object members).leaves, ∀ target,
      (rules.destination leaf.1).value = .ok (some target) →
        ∃ key rest, target = key :: rest ∧ key ∉ members.map Prod.fst) :
    (rules.transform (.object members)).value.2 =
        (rules.mapOnto (.object members) (.object [])).value.map (fun _ => ()) ∧
      ∀ mapped, (rules.mapOnto (.object members) (.object [])).value = .ok mapped →
        ∃ added, mapped = .object added ∧
          (rules.transform (.object members)).value.1 =
            .object (Json.pruneMembers rules.moves members ++ added) := by
  have leaves : ∀ leaf ∈ (Json.object members).relativeLeaves, leaf.1 ≠ [] ∧
      (Json.object members).get? leaf.1 = some leaf.2 ∧ leaf.2.isLeaf ∧
        leaf.1 ∉ (Draft.ofTree (.object members)).vacated := by
    intro leaf inside
    rcases regular.mem_relativeLeaves_iff.mp inside with ⟨nonempty, leads, isLeaf⟩
    exact ⟨nonempty, leads, isLeaf, by simp [Draft.ofTree]⟩
  have placedFresh : ∀ leaf ∈ (Json.object members).relativeLeaves, ∀ target revised,
      rules.verdict leaf.1 leaf.2 = .place target revised →
        ∃ key rest, target = key :: rest ∧ key ∉ members.map Prod.fst := by
    intro leaf inside target revised placed
    rw [← Json.leaves_eq_relativeLeaves] at inside
    exact fresh leaf inside target (destination_of_verdict_eq_place placed)
  rcases (mirrors_ofTree members).runSteps rules (Json.object members).relativeLeaves leaves
    regular.pairwise_apart placedFresh with ⟨sameOutcome, onSuccess⟩
  rw [value_transform rules rfl, value_mapOnto rules rfl rfl, Json.leafPaths,
    Json.leaves_eq_relativeLeaves]
  constructor
  · rw [sameOutcome]
    rcases (runSteps rules.copy (Json.object members).relativeLeaves (.ofTree (.object []))).2 with
      error | _
    · rfl
    · rfl
  · intro mapped isMapped
    rcases succeeded : (runSteps rules.copy (Json.object members).relativeLeaves
      (.ofTree (.object []))).2 with error | _
    · rw [succeeded] at isMapped
      cases isMapped
    · rw [succeeded] at isMapped
      rcases onSuccess succeeded with ⟨remaining, added, last, isRemaining, slots⟩
      rw [regular.settleAll_eq_leafImage] at isRemaining
      have lastSlots : ∀ slot,
          slot ∈ (runSteps rules.move ((Json.object members).relativeLeaves.map Prod.fst)
            (.ofTree (.object members))).1.vacated ↔
          ∃ leaf ∈ (Json.object members).relativeLeaves, slot = leaf.1 ∧
            rules.moves leaf.1 leaf.2 ∧ (Json.object members).inArray leaf.1 := by
        intro slot
        rw [slots]
        simp [Draft.ofTree]
      have old : ∀ name, members.lookup name ≠ none → name ∈ members.map Prod.fst := by
        intro name found
        exact (mirrors_ofTree members).mem_names found
      refine ⟨added, ?_, last.finish regular old isRemaining lastSlots⟩
      cases isMapped
      rw [Draft.finish_of_forall_not_mem last.noSlots, last.copied]

/-- Rules that take an item and a member out and put both into a list of their own. -/
def gatherRules : RuleSet where
  reference := .firstOf
    [.exact ["list", "0"] ["found", "0"], .exact ["group", "inner"] ["found", "1"]]
  values := []

/-- An object with leaves in an array and in another object. -/
def gatherMembers : List (String × Json) :=
  [("list", .array #[.bool true, .null]), ("group", .object [("inner", .bool false)])]

theorem transform_gatherMembers :
    (gatherRules.transform (.object gatherMembers)).value.1 =
      .object [("list", .array #[.null]), ("group", .object []),
        ("found", .array #[.bool true, .bool false])] := by
  have regular : (Json.object gatherMembers).Regular := by decide
  have leaves : (Json.object gatherMembers).leaves =
      [(["list", "0"], .bool true), (["list", "1"], .null),
        (["group", "inner"], .bool false)] := rfl
  have fresh : ∀ leaf ∈ (Json.object gatherMembers).leaves, ∀ target,
      (gatherRules.destination leaf.1).value = .ok (some target) →
        ∃ key rest, target = key :: rest ∧ key ∉ gatherMembers.map Prod.fst := by
    rw [leaves]
    simp only [List.forall_mem_cons, List.not_mem_nil, false_implies, implies_true, and_true]
    refine ⟨?_, ?_, ?_⟩
    · rintro target ⟨⟩
      exact ⟨"found", ["0"], rfl, by decide⟩
    · rintro target ⟨⟩
    · rintro target ⟨⟩
      exact ⟨"found", ["1"], rfl, by decide⟩
  rcases (gatherRules.transform_eq_prune_append_map regular fresh).2 _ rfl with
    ⟨added, isAdded, transformed⟩
  rw [transformed]
  cases isAdded
  rfl

end Graft.RuleSet
