import Graft.Mapping.Pipeline
import Graft.Proofs.Mapping.Placements
import Graft.Proofs.Tree.Orders

/-!
# Writes and stages in another order

A draft of a tree stores what is written to it, and so does a pipeline of maps with all that its
stages place. So two orders that interchange give the same result up to the order of members, if
both succeed: the orders of a family of writes whose paths are pairwise apart, and the two orders of
neighbouring stages whose destinations are apart.
-/

namespace Graft

open Json (storeAll StoredInRegular)
open KeyPath (Apart)

namespace Draft

/-- Writes values one after the other, until a write fails. -/
def writeAll : List (KeyPath × Json) → Draft → Draft × Except WriteError Unit
  | [], draft => (draft, .ok ())
  | leaf :: leaves, draft =>
      match draft.write leaf.1 leaf.2 with
      | (next, .ok _) => writeAll leaves next
      | (last, .error error) => (last, .error error)

theorem storeAll_of_writeAll {leaves : List (KeyPath × Json)} {draft last : Draft}
    (noSlots : ∀ slot, slot ∉ draft.vacated)
    (success : writeAll leaves draft = (last, .ok ())) :
    storeAll [] leaves draft.root = (last.finish, .ok ()) := by
  induction leaves generalizing draft with
  | nil =>
      cases success
      rw [finish_of_forall_not_mem noSlots]
      rfl
  | cons leaf leaves ih =>
      rw [writeAll] at success
      rcases written : draft.write leaf.1 leaf.2 with ⟨next, error | _⟩
      · rw [written] at success
        cases success
      · rw [written] at success
        rcases store_of_write noSlots written with ⟨replaced, stored, stillNoSlots⟩
        exact Json.storeAll_cons_eq_ok_iff.mpr
          ⟨next.root, replaced, stored, ih stillNoSlots success⟩

end Draft

namespace Pipeline

mutual

/-- What a pipeline of maps places of a source, in order. -/
def placements (source : Json) : Pipeline → List (KeyPath × Json)
  | .single rules => rules.placements source.leaves
  | .sequence stages => stagePlacements source stages

/-- What stages place of a source, one after the other. -/
def stagePlacements (source : Json) : List Pipeline → List (KeyPath × Json)
  | [] => []
  | stage :: others => placements source stage ++ stagePlacements source others

end

theorem stagePlacements_append (source : Json) (first second : List Pipeline) :
    stagePlacements source (first ++ second) =
      stagePlacements source first ++ stagePlacements source second := by
  induction first with
  | nil => rfl
  | cons stage first ih => simp [stagePlacements, ih]

mutual

/-- A pipeline of maps that succeeds has stored its placements into the seed, one after the
other. -/
theorem storeAll_of_mapOnto {source seed extended : Json} : (pipeline : Pipeline) →
    (pipeline.mapOnto source seed).value = .ok extended →
      storeAll [] (pipeline.placements source) seed = (extended, .ok ())
  | .single rules, success => RuleSet.storeAll_of_mapOnto success
  | .sequence stages, success => by
      rcases container : source.isContainer with _ | _
      · simp [mapOnto, container] at success
      · rw [mapOnto, if_pos container] at success
        exact storeAll_of_mapStages stages 0 success

theorem storeAll_of_mapStages {source seed extended : Json} : (stages : List Pipeline) →
    (index : Nat) → (mapStages source index seed stages).value = .ok extended →
      storeAll [] (stagePlacements source stages) seed = (extended, .ok ())
  | [], _, success => by
      cases success
      rfl
  | stage :: others, index, success => by
      simp only [mapStages, Logged.value_bind] at success
      rcases outcome : (mapOnto source seed stage).value with error | middle
      · rw [outcome] at success
        cases success
      · rw [outcome] at success
        exact Json.storeAll_append_eq_ok_iff.mpr ⟨middle, storeAll_of_mapOnto stage outcome,
          storeAll_of_mapStages others (index + 1) success⟩

end

/-- The order of writes at paths that are pairwise apart does not matter where all of them succeed,
except for the order of members; nor does the order of neighbouring stages that place nothing at
paths that are not apart. A value in which a later leaf is placed has to be regular; there is no
such value if all destinations are apart. -/
theorem rearranged_of_reordered :
    (∀ (tree : Json) (writes others : List (KeyPath × Json)) (left right : Draft), tree.Regular →
        writes.Perm others → (writes.Pairwise fun earlier later => Apart earlier.1 later.1) →
        Draft.writeAll writes (.ofTree tree) = (left, .ok ()) →
        Draft.writeAll others (.ofTree tree) = (right, .ok ()) →
          left.finish.Rearranged right.finish) ∧
      ∀ (source seed : Json) (before : List Pipeline) (first second : Pipeline)
        (after : List Pipeline) (extended swapped : Json), seed.Regular →
        (∀ leaf ∈ first.placements source, ∀ other ∈ second.placements source,
          Apart leaf.1 other.1) →
        StoredInRegular
          ((Pipeline.sequence (before ++ first :: second :: after)).placements source) →
        ((Pipeline.sequence (before ++ first :: second :: after)).mapOnto source seed).value =
          .ok extended →
        ((Pipeline.sequence (before ++ second :: first :: after)).mapOnto source seed).value =
          .ok swapped →
          extended.Rearranged swapped := by
  constructor
  · intro tree writes others left right regular perm apart leftSuccess rightSuccess
    have noSlots := Draft.not_mem_vacated_ofTree tree
    exact (Json.interchange_of_perm perm apart).rearranged
      (Json.storedInRegular_of_pairwise_apart apart) regular
      (Draft.storeAll_of_writeAll noSlots leftSuccess)
      (Draft.storeAll_of_writeAll noSlots rightSuccess)
  · intro source seed before first second after extended swapped regular apart inRegular success
      swappedSuccess
    have stored := storeAll_of_mapOnto _ success
    have storedSwapped := storeAll_of_mapOnto _ swappedSuccess
    simp only [placements, stagePlacements_append, stagePlacements]
      at inRegular stored storedSwapped
    exact (Json.interchange_append_comm apart _ _).rearranged inRegular regular stored storedSwapped

/-- A stage that writes past the end of an array and adds a member. -/
def appendingStage : Pipeline :=
  .single ⟨.firstOf [.exact ["first"] ["list", "2"], .exact ["second"] ["note"]], []⟩

/-- A stage that writes into the gap and adds another member. -/
def fillingStage : Pipeline :=
  .single ⟨.firstOf [.exact ["first"] ["name"], .exact ["second"] ["list", "1"]], []⟩

/-- Writes that create an array with a gap and an object inside it. -/
def gapWrites : List (KeyPath × Json) :=
  [(["new", "0", "name"], .bool true), (["note"], .null), (["new", "2"], .bool false),
    (["list", "1"], .string "one")]

theorem rearranged_of_reordered_gaps :
    let source : Json := .object [("first", .bool true), ("second", .bool false)]
    let seed : Json := .object [("list", .array #[.null])]
    let extended : Json := .object [("list", .array #[.null, .bool false, .bool true]),
      ("note", .bool false), ("name", .bool true)]
    let swapped : Json := .object [("list", .array #[.null, .bool false, .bool true]),
      ("name", .bool true), ("note", .bool false)]
    ((Draft.writeAll gapWrites (.ofTree seed)).1.finish).Rearranged
        ((Draft.writeAll (gapWrites.rotateLeft 3) (.ofTree seed)).1.finish) ∧
      ((Pipeline.sequence [appendingStage, fillingStage]).mapOnto source seed).value =
        .ok extended ∧
      ((Pipeline.sequence [fillingStage, appendingStage]).mapOnto source seed).value =
        .ok swapped ∧
      extended.Rearranged swapped := by
  intro source seed extended swapped
  have regular : seed.Regular := by decide
  have isAppending : appendingStage.placements source =
      [(["list", "2"], .bool true), (["note"], .bool false)] := rfl
  have isFilling : fillingStage.placements source =
      [(["name"], .bool true), (["list", "1"], .bool false)] := rfl
  have isWhole :
      (Pipeline.sequence ([] ++ appendingStage :: fillingStage :: [])).placements source =
        [(["list", "2"], .bool true), (["note"], .bool false), (["name"], .bool true),
          (["list", "1"], .bool false)] := rfl
  have success : ((Pipeline.sequence ([] ++ appendingStage :: fillingStage :: [])).mapOnto source
      seed).value = .ok extended := rfl
  have swappedSuccess : ((Pipeline.sequence ([] ++ fillingStage :: appendingStage :: [])).mapOnto
      source seed).value = .ok swapped := rfl
  refine ⟨?_, success, swappedSuccess, ?_⟩
  · refine rearranged_of_reordered.1 seed gapWrites (gapWrites.rotateLeft 3) _ _ regular
      ?_ ?_ rfl rfl
    · exact @List.perm_append_comm _ (gapWrites.take 3) (gapWrites.drop 3)
    · simp [gapWrites, Apart]
  · refine rearranged_of_reordered.2 source seed [] appendingStage fillingStage [] extended swapped
      regular ?_ ?_ success swappedSuccess
    · rw [isAppending, isFilling]
      simp [Apart]
    · rw [isWhole]
      simp [StoredInRegular]

end Pipeline

end Graft
