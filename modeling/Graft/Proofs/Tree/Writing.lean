import Graft.Proofs.Tree.Descent
import Graft.Proofs.Tree.Draft

/-!
# What one write does to a draft

Whatever was written, removed and vacated before, a write that succeeds is read back, and elsewhere
it only fills arrays up to the position that it takes in them; but a vacated slot on its way is
begun anew with all that is in it. A write that fails leaves every node in its place, and what it
has created on its way are containers and padding. It fails just if it comes to a node that cannot
hold its next key, and says which.
-/

namespace Graft.Draft

open KeyPath (Apart)
open Json (Met Renewed)

theorem store_of_write_error {draft changed : Draft} {path : KeyPath} {value : Json}
    {error : WriteError} (nonempty : path ≠ [])
    (failure : draft.write path value = (changed, .error error)) :
    Json.store draft.isVacated value [] path draft.root = (changed.root, .error error) := by
  have root := draft.root_write nonempty value
  have outcome := draft.outcome_write nonempty value
  rw [failure] at root outcome
  refine Prod.ext root.symm ?_
  change (Json.store draft.vacated.contains value [] path draft.root).2 = .error error
  rcases stored : (Json.store draft.vacated.contains value [] path draft.root).2 with
    cause | replaced
  · rw [stored] at outcome
    cases outcome
    rfl
  · rw [stored] at outcome
    cases outcome

/-- What was written is read back. A path that is apart from the written one leads to what it led to
before, unless the write has begun a vacated slot anew on its way, and where it led to nothing it
leads to nothing still, or to the padding of an array. -/
theorem get?_write {draft changed : Draft} {path : KeyPath} {value : Json}
    (success : draft.write path value = (changed, .ok ())) :
    changed.root.get? path = some value ∧
      ∀ other, Apart path other →
        (∀ found, draft.root.get? other = some found → ¬Renewed draft.isVacated [] path other →
          changed.root.get? other = some found) ∧
        (draft.root.get? other = none →
          changed.root.get? other = none ∨ changed.root.IsPadding path other) := by
  rcases write_ok success with ⟨_, replaced, stored, _⟩
  change Json.store draft.isVacated value [] path draft.root = _ at stored
  refine ⟨Json.get?_store stored, ?_⟩
  intro other apart
  constructor
  · intro found leads kept
    rcases Json.get?_store_of_get? leads kept apart.1 with ⟨grown, leadsTo, _, same⟩
    rw [stored, same apart.2] at leadsTo
    exact leadsTo
  · intro missing
    rcases isFound : changed.root.get? other with _ | found
    · exact Or.inl rfl
    · right
      have leads : (Json.store draft.isVacated value [] path draft.root).1.get? other =
          some found := by
        rw [stored]
        exact isFound
      rcases Json.origin_of_get?_store leads with ⟨wasThere, _⟩ | ⟨above, _⟩ | isPadding | below
      · rw [missing] at wasThere
        cases wasThere
      · exact absurd above apart.2
      · rw [stored] at isPadding
        exact isPadding
      · exact absurd below apart.1

/-- A tree with an array of two items. -/
def rackTree : Json :=
  .object [("rack", .array #[.object [("old", .null)], .bool false])]

/-- The array with its first slot vacated. -/
def openRack : Draft := ((ofTree rackTree).remove ["rack", "0"]).1

theorem not_renewed_openRack (rest : KeyPath) :
    ¬Renewed openRack.isVacated [] ("rack" :: "0" :: rest) ["rack", "1"] := by
  rw [Json.renewed_cons_cons_iff, Json.renewed_cons_cons_iff]
  have notVacated : openRack.isVacated ["rack"] = false := by decide
  simp [KeyPath.child, notVacated]

theorem get?_write_openRack :
    ∃ changed, openRack.write ["rack", "0", "1"] (.bool true) = (changed, .ok ()) ∧
      changed.root.get? ["rack", "0", "1"] = some (.bool true) ∧
      changed.root.get? ["rack", "1"] = some (.bool false) ∧
      (changed.root.get? ["rack", "0", "0"] = none ∨
        changed.root.IsPadding ["rack", "0", "1"] ["rack", "0", "0"]) := by
  have success : openRack.write ["rack", "0", "1"] (.bool true) =
      ((openRack.write ["rack", "0", "1"] (.bool true)).1, .ok ()) := Prod.ext rfl rfl
  rcases get?_write success with ⟨readBack, beside⟩
  refine ⟨_, success, readBack, ?_, ?_⟩
  · exact (beside ["rack", "1"] (by simp [Apart])).1 _ rfl (not_renewed_openRack ["1"])
  · exact (beside ["rack", "0", "0"] (by simp [Apart])).2 rfl

/-- A write that fails keeps every node that it does not begin anew: scalars as they are, containers
with all that is in them, and nodes beside its way unchanged. Each node that is found afterwards is
one of these, or a container on the way, or padding. The same slots are vacated as before, and an
array whose end was too far from the position is as it was or was begun empty. -/
theorem get?_write_error {draft changed : Draft} {path : KeyPath}
    {value : Json} {error : WriteError}
    (failure : draft.write path value = (changed, .error error)) :
    (∀ other found, draft.root.get? other = some found → ¬Renewed draft.isVacated [] path other →
      ∃ grown, changed.root.get? other = some grown ∧ found.GrowsInto grown ∧
        (¬other <+: path → grown = found)) ∧
    (∀ other found, changed.root.get? other = some found →
      ((draft.root.get? other).isSome ∧ ¬Renewed draft.isVacated [] path other) ∨
        (other <+: path ∧ other ≠ path ∧ found.isContainer) ∨
        changed.root.IsPadding path other) ∧
    (∀ slot, changed.isVacated slot = draft.isVacated slot) ∧
    ∀ position array, error = .tooFar position array →
      ∃ items, changed.root.get? array = some (.array items) ∧
        (draft.root.get? array = some (.array items) ∨
          items = #[] ∧
            (draft.root.get? array = none ∨ Renewed draft.isVacated [] path array)) := by
  have sameSlots : ∀ slot, changed.isVacated slot = draft.isVacated slot := by
    intro slot
    rw [isVacated, isVacated, (write_error failure).1]
  rcases path with _ | ⟨key, rest⟩
  · cases failure
    have notRenewed : ∀ other, ¬Renewed draft.isVacated [] [] other := by
      rintro other ⟨slot, nonempty, onWay, _⟩
      exact nonempty (List.prefix_nil.mp onWay)
    refine ⟨?_, ?_, sameSlots, ?_⟩
    · intro other found leads _
      exact ⟨found, leads, .refl found, fun _ => rfl⟩
    · intro other found leads
      exact Or.inl ⟨by rw [leads]; rfl, notRenewed other⟩
    · intro position array isTooFar
      cases isTooFar
  · have stored := store_of_write_error (List.cons_ne_nil key rest) failure
    have failed : (Json.store draft.isVacated value [] (key :: rest) draft.root).2 =
        .error error := by
      rw [stored]
    have isRoot : (Json.store draft.isVacated value [] (key :: rest) draft.root).1 =
        changed.root := by
      rw [stored]
    rw [← isRoot]
    refine ⟨?_, ?_, sameSlots, ?_⟩
    · intro other found leads kept
      apply Json.get?_store_of_get? leads kept
      exact Json.not_prefix_of_store_error failed (by rw [leads]; rfl) kept
    · intro other found leads
      rcases Json.origin_of_get?_store leads with wasThere | onWay | isPadding | below
      · exact Or.inl wasThere
      · exact Or.inr (Or.inl onWay)
      · exact Or.inr (Or.inr isPadding)
      · exact absurd below (Json.not_prefix_after_store_error failed (by rw [leads]; rfl))
    · rintro position array rfl
      rcases Json.exists_met_of_store_error failed with
        ⟨upper, next, others, met, isPath, isMet, leads, refused⟩
      rw [List.nil_append, Json.refusal?_eq_some_iff] at refused
      cases refused with
      | gap spelled far =>
          refine ⟨_, leads, ?_⟩
          rw [isPath]
          exact isMet.items_cases

theorem get?_write_error_openRack :
    ∃ changed, openRack.write ["rack", "0", "new", "70000"] .null =
        (changed, .error (.tooFar 70000 ["rack", "0", "new"])) ∧
      (∃ grown, changed.root.get? ["rack", "1"] = some grown ∧
        Json.GrowsInto (.bool false) grown ∧
          (¬["rack", "1"] <+: ["rack", "0", "new", "70000"] → grown = .bool false)) ∧
      changed.isVacated ["rack", "0"] = openRack.isVacated ["rack", "0"] ∧
      ∃ items, changed.root.get? ["rack", "0", "new"] = some (.array items) ∧
        (openRack.root.get? ["rack", "0", "new"] = some (.array items) ∨
          items = #[] ∧
            (openRack.root.get? ["rack", "0", "new"] = none ∨
              Renewed openRack.isVacated [] ["rack", "0", "new", "70000"]
                ["rack", "0", "new"])) := by
  have failure : openRack.write ["rack", "0", "new", "70000"] .null =
      ((openRack.write ["rack", "0", "new", "70000"] .null).1,
        .error (.tooFar 70000 ["rack", "0", "new"])) := Prod.ext rfl rfl
  rcases get?_write_error failure with ⟨kept, _, sameSlots, tooFar⟩
  exact ⟨_, failure, kept ["rack", "1"] _ rfl (not_renewed_openRack ["new", "70000"]),
    sameSlots ["rack", "0"], tooFar 70000 ["rack", "0", "new"] rfl⟩

/-- A write to a path comes to a node at `upper`, from where `key` leads on. -/
def Meets (draft : Draft) (path upper : KeyPath) (key : String) (met : Json) : Prop :=
  ∃ rest, path = upper ++ key :: rest ∧ Met draft.isVacated [] draft.root upper (key :: rest) met

theorem hinders_of_write_error {draft : Draft} {path : KeyPath} {value : Json} {error : WriteError}
    (nonempty : path ≠ []) (failed : (draft.write path value).2 = .error error) :
    ∃ upper key met, draft.Meets path upper key met ∧
      (draft.write path value).1.root.get? upper = some met ∧ Json.Hinders upper key met error := by
  have stored := store_of_write_error nonempty (Prod.ext rfl failed)
  rcases Json.exists_met_of_store_error (by rw [stored]) with
    ⟨upper, key, rest, met, isPath, isMet, leads, refused⟩
  rw [stored] at leads
  exact ⟨upper, key, met, ⟨rest, isPath, isMet⟩, leads, Json.refusal?_eq_some_iff.mp refused⟩

theorem not_hinders_of_write_ok {draft : Draft} {path upper : KeyPath} {value met : Json}
    {key : String} {error : WriteError} (succeeded : (draft.write path value).2 = .ok ())
    (meets : draft.Meets path upper key met) : ¬Json.Hinders upper key met error := by
  intro hinders
  rcases meets with ⟨rest, rfl, isMet⟩
  rcases write_ok (Prod.ext rfl succeeded) with ⟨_, replaced, stored, _⟩
  have outcome : (Json.store draft.isVacated value [] (upper ++ key :: rest) draft.root).2 =
      .ok replaced := congrArg Prod.snd stored
  have accepts := Json.refusal?_eq_none_of_store_ok outcome isMet
  rw [List.nil_append, Json.refusal?_eq_some_iff.mpr hinders] at accepts
  cases accepts

theorem exists_growsInto_of_write_ok {draft : Draft} {path upper : KeyPath} {value met : Json}
    {key : String} (succeeded : (draft.write path value).2 = .ok ())
    (meets : draft.Meets path upper key met) :
    ∃ grown, (draft.write path value).1.root.get? upper = some grown ∧ met.GrowsInto grown := by
  rcases meets with ⟨rest, rfl, isMet⟩
  rcases write_ok (Prod.ext rfl succeeded) with ⟨_, replaced, stored, _⟩
  have leads := Json.get?_store stored
  rw [Json.get?_append] at leads
  rcases Option.bind_eq_some_iff.mp leads with ⟨grown, leadsTo, _⟩
  have isRoot : (Json.store draft.isVacated value [] (upper ++ key :: rest) draft.root).1 =
      (draft.write (upper ++ key :: rest) value).1.root := congrArg Prod.fst stored
  rw [← isRoot] at leadsTo ⊢
  exact ⟨grown, leadsTo, Json.growsInto_of_met isMet leadsTo⟩

/-- A write fails on the empty path, or at a node above the end of the path that cannot hold the
next key, which the error names and which stays as it was met. It succeeds just if it meets no such
node, and then the arrays on its way have grown by no more than a gap and an item. The gap before a
position is computed only where the position is past the end. -/
theorem write_outcome (draft : Draft) (path : KeyPath) (value : Json) :
    ((draft.write path value).2 = .error .emptyPath ↔ path = []) ∧
    (∀ error, (draft.write path value).2 = .error error → path ≠ [] →
      ∃ upper key met, draft.Meets path upper key met ∧
        (draft.write path value).1.root.get? upper = some met ∧ Json.Hinders upper key met error) ∧
    ((draft.write path value).2 = .ok () ↔
      path ≠ [] ∧ ∀ upper key met error, draft.Meets path upper key met →
        ¬Json.Hinders upper key met error) ∧
    ((draft.write path value).2 = .ok () →
      ∀ upper key items, draft.Meets path upper key (.array items) →
        ∃ grown, (draft.write path value).1.root.get? upper = some (.array grown) ∧
          items.size ≤ grown.size ∧ grown.size ≤ items.size + 65537) ∧
    Json.storeByGaps draft.isVacated value [] path draft.root =
      Prod.map id some (Json.store draft.isVacated value [] path draft.root) := by
  refine ⟨?_, fun error failed nonempty => hinders_of_write_error nonempty failed, ?_, ?_,
    Json.storeByGaps_eq _ _ _ _ _⟩
  · constructor
    · intro failed
      rcases path with _ | ⟨key, rest⟩
      · rfl
      · rcases hinders_of_write_error (List.cons_ne_nil key rest) failed with
          ⟨_, _, _, _, _, hinders⟩
        cases hinders
    · rintro rfl
      rfl
  · constructor
    · intro succeeded
      refine ⟨(write_ok (Prod.ext rfl succeeded)).1, ?_⟩
      intro upper key met error meets
      exact not_hinders_of_write_ok succeeded meets
    · rintro ⟨nonempty, free⟩
      rcases outcome : (draft.write path value).2 with error | _
      · rcases hinders_of_write_error nonempty outcome with ⟨upper, key, met, meets, _, hinders⟩
        exact absurd hinders (free upper key met error meets)
      · rfl
  · intro succeeded upper key items meets
    rcases exists_growsInto_of_write_ok succeeded meets with ⟨_, leads, others, rfl, bounds⟩
    exact ⟨others, leads, bounds⟩

theorem write_outcome_openRack :
    ∃ upper key met, openRack.Meets ["rack", "0", "new", "70000"] upper key met ∧
      (openRack.write ["rack", "0", "new", "70000"] .null).1.root.get? upper = some met ∧
      Json.Hinders upper key met (.tooFar 70000 ["rack", "0", "new"]) :=
  (write_outcome openRack ["rack", "0", "new", "70000"] .null).2.1 _ rfl (by simp)

end Graft.Draft
