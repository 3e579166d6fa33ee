import Graft.Proofs.Mapping.Copying
import Graft.Proofs.Tree.Origins

/-!
# What a map places

The placements of a map are the values that its rules send somewhere, with the paths they are sent
to, in the order of the leaves. A map that succeeds stores its placements into the seed one after
the other and does nothing else. So of placements that overlap the last one wins, what no placement
comes near to is as it was in the seed, and no scalar is made up.
-/

namespace Graft

open Json (storeAll)
open KeyPath (Apart)

/-- A write that succeeds where nothing is vacated stores the value. -/
theorem Draft.store_of_write {draft next : Draft} {target : KeyPath} {value : Json}
    (noSlots : ∀ slot, slot ∉ draft.vacated)
    (written : draft.write target value = (next, .ok ())) :
    ∃ replaced,
      Json.store (fun _ => false) value [] target draft.root = (next.root, .ok replaced) ∧
        ∀ slot, slot ∉ next.vacated := by
  rcases Draft.write_of_forall_not_mem noSlots (Draft.write_ok written).1 value with
    ⟨root, outcome, stillNoSlots⟩
  rw [written] at root outcome stillNoSlots
  rcases stored : Json.store (fun _ => false) value [] target draft.root with
    ⟨tree, error | replaced⟩
  · rw [stored] at outcome
    cases outcome
  · rw [stored] at root
    exact ⟨replaced, by rw [root], stillNoSlots⟩

namespace RuleSet

/-- Where the rules place a leaf, and with which value, if they do. -/
def placement? (rules : RuleSet) (leaf : KeyPath × Json) : Option (KeyPath × Json) :=
  match rules.verdict leaf.1 leaf.2 with
  | .fault _ => none
  | .decline => none
  | .place target revised => some (target, revised)

/-- What the rules place of listed leaves, in their order. -/
def placements (rules : RuleSet) (listed : List (KeyPath × Json)) : List (KeyPath × Json) :=
  listed.filterMap rules.placement?

theorem placement?_eq_some {rules : RuleSet} {leaf : KeyPath × Json} {target : KeyPath}
    {revised : Json} (destined : (rules.destination leaf.1).value = .ok (some target))
    (applied : ValueRule.applyAll rules.values leaf.2 = some revised) :
    rules.placement? leaf = some (target, revised) := by
  simp only [placement?, verdict, destined, applied]

theorem placements_append (rules : RuleSet) (first second : List (KeyPath × Json)) :
    rules.placements (first ++ second) = rules.placements first ++ rules.placements second :=
  List.filterMap_append

theorem placements_cons_of_some {rules : RuleSet} {leaf placed : KeyPath × Json}
    (isPlaced : rules.placement? leaf = some placed) (listed : List (KeyPath × Json)) :
    rules.placements (leaf :: listed) = placed :: rules.placements listed := by
  rw [placements, List.filterMap_cons, isPlaced]
  rfl

theorem placements_cons_of_none {rules : RuleSet} {leaf : KeyPath × Json}
    (notPlaced : rules.placement? leaf = none) (listed : List (KeyPath × Json)) :
    rules.placements (leaf :: listed) = rules.placements listed := by
  rw [placements, List.filterMap_cons, notPlaced]
  rfl

/-- Copying leaves stores what the rules place of them, one after the other. -/
theorem storeAll_of_runSteps_copy {rules : RuleSet} {listed : List (KeyPath × Json)}
    {draft last : Draft} (noSlots : ∀ slot, slot ∉ draft.vacated)
    (success : runSteps rules.copy listed draft = (last, .ok ())) :
    storeAll [] (rules.placements listed) draft.root = (last.root, .ok ()) ∧
      ∀ slot, slot ∉ last.vacated := by
  induction listed generalizing draft with
  | nil =>
      cases success
      exact ⟨rfl, noSlots⟩
  | cons leaf listed ih =>
      rw [runSteps] at success
      rcases copied : rules.copy leaf draft with ⟨next, error | _⟩
      · rw [copied] at success
        cases success
      · rw [copied] at success
        rw [copy] at copied
        rcases decided : rules.verdict leaf.1 leaf.2 with error | _ | ⟨target, revised⟩
        · rw [decided] at copied
          cases copied
        · rw [decided] at copied
          cases copied
          have notPlaced : rules.placement? leaf = none := by
            rw [placement?, decided]
          rw [placements_cons_of_none notPlaced]
          exact ih noSlots success
        · rw [decided] at copied
          have isPlaced : rules.placement? leaf = some (target, revised) := by
            rw [placement?, decided]
          rcases Draft.store_of_write noSlots (write_of_placeLeaf copied) with
            ⟨replaced, stored, stillNoSlots⟩
          rcases ih stillNoSlots success with ⟨others, noLastSlots⟩
          rw [placements_cons_of_some isPlaced]
          exact ⟨Json.storeAll_cons_eq_ok_iff.mpr ⟨next.root, replaced, stored, others⟩,
            noLastSlots⟩

theorem isContainer_of_mapOnto {rules : RuleSet} {source seed extended : Json}
    (success : (rules.mapOnto source seed).value = .ok extended) :
    source.isContainer ∧ seed.isContainer := by
  rcases sourceContainer : source.isContainer with _ | _
  · rw [rules.mapOnto_of_source_noContainer sourceContainer seed] at success
    cases success
  · rcases seedContainer : seed.isContainer with _ | _
    · rw [rules.mapOnto_of_seed_noContainer sourceContainer seedContainer] at success
      cases success
    · exact ⟨rfl, rfl⟩

/-- A map that succeeds has stored its placements into the seed, one after the other. -/
theorem storeAll_of_mapOnto {rules : RuleSet} {source seed extended : Json}
    (success : (rules.mapOnto source seed).value = .ok extended) :
    storeAll [] (rules.placements source.leaves) seed = (extended, .ok ()) := by
  have noSlots := Draft.not_mem_vacated_ofTree seed
  rcases isContainer_of_mapOnto success with ⟨sourceContainer, seedContainer⟩
  rw [value_mapOnto rules sourceContainer seedContainer] at success
  rcases run : runSteps rules.copy source.leaves (.ofTree seed) with ⟨last, error | _⟩
  · rw [run] at success
    cases success
  · rw [run] at success
    rcases storeAll_of_runSteps_copy noSlots run with ⟨stored, noLastSlots⟩
    have isLast : last.finish = extended := Except.ok.inj success
    rw [Draft.finish_of_forall_not_mem noLastSlots] at isLast
    rw [← isLast]
    exact stored

/-- In what a map makes of its seed, a leaf's value is found at its destination unless a later leaf
was placed at a path that is not apart from it; what is in the seed apart from all placements is
still there; and a scalar is the seed's scalar at the same path, or lies inside the value placed
there or above it, or is a null item of an array. -/
theorem origins_of_mapOnto (rules : RuleSet) {source seed extended : Json}
    (success : (rules.mapOnto source seed).value = .ok extended) :
    (∀ before leaf after target revised, source.leaves = before ++ leaf :: after →
        (rules.destination leaf.1).value = .ok (some target) →
        ValueRule.applyAll rules.values leaf.2 = some revised →
        (∀ later ∈ rules.placements after, Apart later.1 target) →
          extended.get? target = some revised) ∧
      (∀ path found, seed.get? path = some found →
        (∀ placed ∈ rules.placements source.leaves, Apart placed.1 path) →
          extended.get? path = some found) ∧
      ∀ path scalar, extended.get? path = some scalar → scalar.isContainer = false →
        seed.get? path = some scalar ∨
          (∃ placed ∈ rules.placements source.leaves, ∃ rest,
            path = placed.1 ++ rest ∧ placed.2.get? rest = some scalar) ∨
          (scalar = .null ∧ path ≠ [] ∧ extended.inArray path) := by
  have stored := storeAll_of_mapOnto success
  refine ⟨?_, ?_, ?_⟩
  · intro before leaf after target revised isSource destined applied apart
    have isPlaced := placement?_eq_some destined applied
    rw [isSource, placements_append, placements_cons_of_some isPlaced] at stored
    exact Json.get?_of_storeAll_last stored apart
  · intro path found leads apart
    exact (Json.agreeAlong_of_storeAll stored apart leads).get?_eq.trans leads
  · intro path scalar leads noContainer
    cases Json.origin_of_storeAll stored noContainer leads with
    | kept agree => exact Or.inl (agree.get?_eq.symm.trans leads)
    | @stored placed rest isPlaced below inside =>
        exact Or.inr (Or.inl ⟨placed, isPlaced, rest, below, inside⟩)
    | padding isNull nonempty isItem => exact Or.inr (Or.inr ⟨isNull, nonempty, isItem⟩)

/-- Rules that send two leaves to one place, and a third past the end of the same array. -/
def overlappingRules : RuleSet where
  reference := .firstOf [.exact ["first"] ["list", "1"], .exact ["second"] ["list", "1"],
    .exact ["third"] ["list", "3"]]
  values := []

theorem origins_of_mapOnto_overlapping :
    let source : Json :=
      .object [("first", .bool true), ("second", .bool false), ("third", .string "last")]
    let seed : Json := .object [("list", .array #[.bool true]), ("note", .string "kept")]
    ∃ extended, (overlappingRules.mapOnto source seed).value = .ok extended ∧
      extended.get? ["list", "1"] = some (.bool false) ∧
      extended.get? ["note"] = some (.string "kept") ∧
      ∀ scalar, extended.get? ["list", "2"] = some scalar → scalar.isContainer = false →
        seed.get? ["list", "2"] = some scalar ∨
          (∃ placed ∈ overlappingRules.placements source.leaves, ∃ rest,
            ["list", "2"] = placed.1 ++ rest ∧ placed.2.get? rest = some scalar) ∨
          (scalar = .null ∧ ["list", "2"] ≠ [] ∧ extended.inArray ["list", "2"]) := by
  intro source seed
  have success : (overlappingRules.mapOnto source seed).value = .ok (.object [
      ("list", .array #[.bool true, .bool false, .null, .string "last"]),
      ("note", .string "kept")]) := rfl
  rcases overlappingRules.origins_of_mapOnto success with ⟨overwrites, keeps, origins⟩
  have placedLater : overlappingRules.placements [(["third"], .string "last")] =
      [(["list", "3"], .string "last")] := rfl
  have placed : overlappingRules.placements source.leaves =
      [(["list", "1"], .bool true), (["list", "1"], .bool false),
        (["list", "3"], .string "last")] := rfl
  refine ⟨_, success, ?_, ?_, origins ["list", "2"]⟩
  · refine overwrites [(["first"], .bool true)] (["second"], .bool false)
      [(["third"], .string "last")] _ _ rfl rfl rfl ?_
    rw [placedLater]
    simp [Apart]
  · refine keeps _ _ rfl ?_
    rw [placed]
    simp [Apart]

end RuleSet

end Graft
