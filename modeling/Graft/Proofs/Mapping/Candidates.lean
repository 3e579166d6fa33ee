import Graft.Mapping.Basic
import Graft.Proofs.Mapping.Run

/-!
# Nested candidates

Candidates that are combined of candidates themselves can be listed one by one. How they are nested
does not matter for a run, only their order: the first plain rule that does not decline a leaf
decides about it. A rule that sends a leaf to something that is no path does not decline it, so the
fault is reported and no further candidate is asked.

A rule can decline a leaf in three ways. Combined rules do not tell them apart, and neither does a
run that has a single rule.
-/

namespace Graft

theorem Target.declines_iff {target : Target} :
    target.declines ↔ target.resolve = .ok none := by
  constructor
  · intro declines
    unfold Target.declines at declines
    split at declines <;> first | rfl | cases declines
  · intro resolved
    unfold Target.resolve at resolved
    split at resolved
    case h_1 => rfl
    case h_2 => cases resolved
    case h_3 => rfl
    case h_4 => rfl
    case h_5 items =>
      rcases keys : items.toList.mapM Target.key? with _ | found
      · simp [keys] at resolved
      · simp [keys] at resolved
    case h_6 => cases resolved

namespace ReferenceRule

/-- What a rule decides about the leaf at a path: it declines the leaf, or it gives it a path, or it
is at fault. -/
def decision (path : KeyPath) (rule : ReferenceRule) : Except MappingError (Option KeyPath) :=
  (rule.target path).value.resolve

/-- What the first rule that does not decline the leaf decides. -/
def firstDecision (path : KeyPath) : List ReferenceRule → Except MappingError (Option KeyPath)
  | [] => .ok none
  | rule :: others =>
      match rule.decision path with
      | .ok none => firstDecision path others
      | decided => decided

mutual

/-- The rules that a rule is combined of, in order of priority. A rule that is not combined stands
for itself. -/
def plainRules : ReferenceRule → List ReferenceRule
  | .firstOf candidates => candidateRules candidates
  | rule => [rule]

/-- The rules that candidates are combined of, one candidate after the other. -/
def candidateRules : List ReferenceRule → List ReferenceRule
  | [] => []
  | candidate :: others => plainRules candidate ++ candidateRules others

end

/-- Whether a rule is not combined of others. -/
def isPlain : ReferenceRule → Bool
  | .firstOf _ => false
  | _ => true

mutual

theorem all_isPlain_plainRules : (rule : ReferenceRule) → rule.plainRules.all isPlain
  | .all => rfl
  | .exact _ _ => rfl
  | .custom _ => rfl
  | .firstOf candidates => by
      rw [plainRules]
      exact all_isPlain_candidateRules candidates

theorem all_isPlain_candidateRules :
    (candidates : List ReferenceRule) → (candidateRules candidates).all isPlain
  | [] => rfl
  | candidate :: others => by
      rw [candidateRules, List.all_append, all_isPlain_plainRules candidate,
        all_isPlain_candidateRules others]
      rfl

end

example : plainRules (.firstOf [.firstOf [.all, .firstOf []], .firstOf [.exact ["a"] ["b"]]]) =
    [.all, .exact ["a"] ["b"]] := rfl

theorem firstDecision_singleton (path : KeyPath) (rule : ReferenceRule) :
    firstDecision path [rule] = rule.decision path := by
  simp only [firstDecision]
  split
  case h_1 declined => exact declined.symm
  case h_2 => rfl

theorem firstDecision_append (path : KeyPath) (first second : List ReferenceRule) :
    firstDecision path (first ++ second) =
      match firstDecision path first with
      | .ok none => firstDecision path second
      | decided => decided := by
  induction first with
  | nil => rfl
  | cons rule others ih =>
      simp only [List.cons_append, firstDecision]
      rcases rule.decision path with error | (_ | target)
      · rfl
      · exact ih
      · rfl

/-- From whatever index the candidates are counted, the first that does not decline decides. -/
theorem resolve_firstTarget (path : KeyPath) (index : Nat) (candidates : List ReferenceRule) :
    (firstTarget path index candidates).value.resolve = firstDecision path candidates := by
  induction candidates generalizing index with
  | nil => rfl
  | cons candidate others ih =>
      simp only [firstTarget, firstDecision, decision, Logged.value_bind]
      split
      case isTrue declines =>
        rw [Target.declines_iff.mp declines]
        exact ih (index + 1)
      case isFalse decides =>
        -- the other branch of the match is only taken for what is not `.ok none`
        have resolved := mt Target.declines_iff.mpr decides
        simp only [Logged.value_bind, Logged.value_pure]

theorem decision_firstOf (path : KeyPath) (candidates : List ReferenceRule) :
    (firstOf candidates).decision path = firstDecision path candidates := by
  rw [decision, target]
  exact resolve_firstTarget path 0 candidates

mutual

/-- A rule decides as the first of its plain rules that does not decline. -/
theorem firstDecision_plainRules (path : KeyPath) : (rule : ReferenceRule) →
    firstDecision path rule.plainRules = rule.decision path
  | .all => firstDecision_singleton path .all
  | .exact source target => firstDecision_singleton path (.exact source target)
  | .custom choose => firstDecision_singleton path (.custom choose)
  | .firstOf candidates => by
      rw [plainRules, decision_firstOf]
      exact firstDecision_candidateRules path candidates

theorem firstDecision_candidateRules (path : KeyPath) : (candidates : List ReferenceRule) →
    firstDecision path (candidateRules candidates) = firstDecision path candidates
  | [] => rfl
  | candidate :: others => by
      rw [candidateRules, firstDecision_append, firstDecision_plainRules path candidate,
        firstDecision_candidateRules path others, firstDecision]

end

end ReferenceRule

namespace RuleSet

/-- Whether two rule sets give the same, as maps and as transforms: the same tree or the same fault,
and after a failed transform the same tree as well. -/
def RunsAs (left right : RuleSet) : Prop :=
  (∀ source seed, (left.mapOnto source seed).value = (right.mapOnto source seed).value) ∧
    ∀ tree, (left.transform tree).value = (right.transform tree).value

theorem runsAs_of_verdict_eq {left right : RuleSet} (same : left.verdict = right.verdict) :
    left.RunsAs right := by
  have sameCopy : left.copy = right.copy := by
    funext leaf draft
    rw [copy, copy, same]
  have sameMove : left.move = right.move := by
    funext path draft
    rw [move, move, same]
  refine ⟨?_, ?_⟩
  · intro source seed
    rcases sourceContainer : source.isContainer with _ | _
    · rw [left.mapOnto_of_source_noContainer sourceContainer,
        right.mapOnto_of_source_noContainer sourceContainer]
    · rcases seedContainer : seed.isContainer with _ | _
      · rw [left.mapOnto_of_seed_noContainer sourceContainer seedContainer,
          right.mapOnto_of_seed_noContainer sourceContainer seedContainer]
      · rw [left.value_mapOnto sourceContainer seedContainer,
          right.value_mapOnto sourceContainer seedContainer, sameCopy]
  · intro tree
    rcases container : tree.isContainer with _ | _
    · simp [transform, container]
    · rw [left.value_transform container, right.value_transform container, sameMove]

/-- What a run gives depends on its reference rule through the decisions alone. -/
theorem runsAs_of_decision_eq {left right : ReferenceRule} (values : List ValueRule)
    (same : ∀ path, left.decision path = right.decision path) :
    RunsAs ⟨left, values⟩ ⟨right, values⟩ := by
  apply runsAs_of_verdict_eq
  funext path value
  have sameDestination : (destination ⟨left, values⟩ path).value =
      (destination ⟨right, values⟩ path).value := same path
  simp only [verdict, sameDestination]

theorem runsAs_firstOf_singleton (rule : ReferenceRule) (values : List ValueRule) :
    RunsAs ⟨.firstOf [rule], values⟩ ⟨rule, values⟩ := by
  apply runsAs_of_decision_eq
  intro path
  rw [ReferenceRule.decision_firstOf, ReferenceRule.firstDecision_singleton]

/-- Nested candidates give the same as their plain rules in one list, a single candidate gives the
same as the rule itself, and so what is built of any number of rules gives the same as all of them
combined. -/
theorem nested_candidates_run_flat :
    (∀ (rule : ReferenceRule) (values : List ValueRule),
        rule.plainRules.all ReferenceRule.isPlain ∧
          RunsAs ⟨rule, values⟩ ⟨.firstOf rule.plainRules, values⟩) ∧
      (∀ (rule : ReferenceRule) (values : List ValueRule),
        RunsAs ⟨.firstOf [rule], values⟩ ⟨rule, values⟩) ∧
      ∀ (mode : Mode) (first : ReferenceRule) (others : List ReferenceRule)
        (values : List ValueRule), ∃ reference,
          Mapping.build mode (first :: others) values =
              .ok ⟨mode, .single ⟨reference, values⟩⟩ ∧
            RunsAs ⟨reference, values⟩ ⟨.firstOf (first :: others), values⟩ := by
  refine ⟨?_, runsAs_firstOf_singleton, ?_⟩
  · intro rule values
    refine ⟨rule.all_isPlain_plainRules, runsAs_of_decision_eq values ?_⟩
    intro path
    rw [ReferenceRule.decision_firstOf, ReferenceRule.firstDecision_plainRules]
  · intro mode first others values
    cases others with
    | nil =>
        refine ⟨first, rfl, ?_⟩
        rcases runsAs_firstOf_singleton first values with ⟨asMap, asTransform⟩
        exact ⟨fun source seed => (asMap source seed).symm, fun tree => (asTransform tree).symm⟩
    | cons second others =>
        exact ⟨.firstOf (first :: second :: others), rfl, fun _ _ => rfl, fun _ => rfl⟩

end RuleSet

end Graft
