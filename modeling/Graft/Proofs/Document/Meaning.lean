import Graft.Proofs.Document.Building
import Graft.Proofs.Mapping.Treatment

/-!
# What documents mean

The run that a document describes, read off the document as it is written. Of the listed reference
rules the first one that applies to the path of a leaf says where the leaf goes, and the listed
value rules work on its value in turn. A composition does what its stages describe, one after the
other. There is no run if anything in the document is not as it should be.

The mapping that is built for a document performs the run that the document describes.
-/

namespace Graft.Document

/-- What is listed under a member: the items of an array, or the one value that is there. -/
def listed : Json → List Json
  | .array items => items.toList
  | other => [other]

/-- The path that an expression spells. -/
def spelled? (expression : String) : Option KeyPath := (KeyPath.ofExpression expression).toOption

/-- From which path to which path the members of a rule send a leaf. The paths are spelled by
expressions or else listed as keys; without a target the leaf keeps its path. -/
def endpoints? (members : List (String × Json)) : Option (KeyPath × KeyPath) :=
  match (members.lookup "path").bind string?, optional? string? (members.lookup "to") with
  | some source, some target => do
      let source ← spelled? source
      let target ← target.elim (some source) spelled?
      some (source, target)
  | _, _ => do
      let source ← (members.lookup "ref").bind strings?
      let target ← optional? strings? (members.lookup "to")
      some (source, target.getD source)

/-- Where a reference rule sends the leaf at a path, if the rule applies to it. -/
def sends? (rule : Json) : Option (KeyPath → Option KeyPath) :=
  match rule with
  | .string "all" => some some
  | .object members =>
      (endpoints? members).map fun (source, target) path =>
        if path = source then some target else none
  | _ => none

/-- Where the first of the listed reference rules that applies sends the leaf at a path. -/
def destination? (spec : Json) : Option (KeyPath → Option KeyPath) := do
  let rules ← (listed spec).mapM sends?
  some fun path => rules.findSome? fun sends => sends path

/-- What a value rule makes of a value, unless it gives up the leaf. -/
def revises? (rule : Json) : Option (Json → Option Json) :=
  match rule with
  | .object members =>
      match members.lookup "equals", members.lookup "replace", members.lookup "skip_if" with
      | some value, some replacement, _ =>
          some fun found => some (if found.sameValue value then replacement else found)
      | _, _, some value => some fun found => if found.sameValue value then none else some found
      | _, _, _ => none
  | _ => none

/-- What the listed value rules make of a value in turn. -/
def revision? (spec : Json) : Option (Json → Option Json) := do
  let rules ← (if spec = .null then [] else listed spec).mapM revises?
  some fun value => rules.foldlM (fun value revise => revise value) value

mutual

/-- The run that a document describes. -/
def run? (document : Document) : Option Run :=
  match document with
  | .single mode reference values => do
      let destination ← destination? reference
      let revision ← revision? values
      let treatment : Treatment := fun path value => do
        let target ← destination path
        let revised ← revision value
        some (target, revised)
      some (treatment.run mode)
  | .composition mode stages => (stageRuns? mode stages).map fun runs => mode.inSequence runs
termination_by (document.stagesSize, 1)

/-- The runs that stages describe, each of which is an object that reads as a document of the given
mode. -/
def stageRuns? (mode : Mode) (stages : List Json) : Option (List Run) :=
  match stages with
  | [] => some []
  | .object members :: others =>
      match _read : ofMembers? members with
      | some inner =>
          if inner.mode = mode then do
            let run ← run? inner
            let runs ← stageRuns? mode others
            some (run :: runs)
          else none
      | none => none
  | _ :: _ => none
termination_by (sizeOf stages, 0)
decreasing_by
  · have := stagesSize_ofMembers? _read
    apply Prod.Lex.left
    simp only [List.cons.sizeOf_spec, Json.object.sizeOf_spec]
    omega
  · apply Prod.Lex.left
    simp only [List.cons.sizeOf_spec]
    omega

end

/-! ### Rules that are built -/

theorem listed_eq_singleton {value : Json} (notArray : ∀ items, value ≠ .array items) :
    listed value = [value] := by
  cases value with
  | array items => exact (notArray items rfl).elim
  | _ => rfl

/-- The target of a leaf that a rule sends to a path or does not apply to. -/
def targetOf : Option KeyPath → Target
  | none => .noMatch
  | some path => .path path

theorem spelled?_of_ofExpressions {source : String} {target : Option String} {rule : ReferenceRule}
    (read : ReferenceRule.ofExpressions source target = .ok rule) :
    ∃ path other, spelled? source = some path ∧ target.elim (some path) spelled? = some other ∧
      rule = .exact path other := by
  simp only [ReferenceRule.ofExpressions, bind, Except.bind] at read
  rcases readSource : KeyPath.ofExpression source with error | path
  · simp only [readSource] at read
    cases read
  · have isPath : spelled? source = some path := by rw [spelled?, readSource, Except.toOption]
    rcases target with _ | expression
    · simp only [readSource] at read
      cases read
      exact ⟨path, path, isPath, rfl, rfl⟩
    · rcases readTarget : KeyPath.ofExpression expression with error | other
      · simp only [readSource, readTarget] at read
        cases read
      · simp only [readSource, readTarget] at read
        cases read
        refine ⟨path, other, isPath, ?_, rfl⟩
        rw [Option.elim, spelled?, readTarget, Except.toOption]

theorem endpoints?_of_referenceRule? {members : List (String × Json)} {rule : ReferenceRule}
    (read : referenceRule? (.object members) = .ok (some rule)) :
    ∃ source target, endpoints? members = some (source, target) ∧ rule = .exact source target := by
  simp only [referenceRule?] at read
  split at read
  case h_1 source target isSource isTarget =>
    rcases made : ReferenceRule.ofExpressions source target with error | found
    · rw [made] at read
      cases read
    · rw [made] at read
      cases read
      rcases spelled?_of_ofExpressions made with ⟨path, other, isPath, isOther, rfl⟩
      refine ⟨path, other, ?_, rfl⟩
      simp [endpoints?, isSource, isTarget, isPath, isOther]
  case h_2 source target isSource isTarget noExpressions =>
    cases read
    refine ⟨source, target.getD source, ?_, rfl⟩
    rw [endpoints?]
    split
    case h_1 expression other isExpression isOther =>
      exact (noExpressions expression other isExpression isOther).elim
    case h_2 => simp [isSource, isTarget]
  case h_3 => cases read

theorem sends?_of_referenceRule? {value : Json} {rule : ReferenceRule}
    (read : referenceRule? value = .ok (some rule)) :
    ∃ sends, sends? value = some sends ∧
      ∀ path, (rule.target path).value = targetOf (sends path) := by
  cases value with
  | string word =>
      by_cases isAll : word = "all"
      · subst isAll
        cases read
        exact ⟨some, rfl, fun path => rfl⟩
      · simp [referenceRule?, isAll] at read
  | object members =>
      rcases endpoints?_of_referenceRule? read with ⟨source, target, isEndpoints, rfl⟩
      refine ⟨_, by rw [sends?, isEndpoints]; rfl, ?_⟩
      intro path
      by_cases isSource : path = source
      · simp [ReferenceRule.target, isSource, targetOf]
      · simp [ReferenceRule.target, isSource, targetOf]
  | null => cases read
  | bool value => cases read
  | number value => cases read
  | array items => cases read

theorem sends?_of_referenceRules {index : Nat} {values : List Json} {rules : List ReferenceRule}
    (read : referenceRules index values = .ok rules) :
    ∃ sends, values.mapM sends? = some sends ∧ ∀ path count,
      (ReferenceRule.firstTarget path count rules).value =
        targetOf (sends.findSome? fun sends => sends path) := by
  induction values generalizing index rules with
  | nil =>
      cases read
      exact ⟨[], rfl, fun path count => by simp [ReferenceRule.firstTarget, targetOf]⟩
  | cons value values ih =>
      rw [referenceRules] at read
      rcases readFirst : referenceRule? value with error | (_ | rule)
      · simp [readFirst] at read
      · simp [readFirst] at read
      · rcases readOthers : referenceRules (index + 1) values with error | others
        · simp [readFirst, readOthers, Except.map] at read
        · simp only [readFirst, readOthers, Except.map, Except.ok.injEq] at read
          subst read
          rcases sends?_of_referenceRule? readFirst with ⟨first, isFirst, firstTarget⟩
          rcases ih readOthers with ⟨others, areOthers, otherTarget⟩
          refine ⟨first :: others, by simp [List.mapM_cons, isFirst, areOthers], ?_⟩
          intro path count
          simp only [ReferenceRule.firstTarget, Logged.value_bind, firstTarget path,
            List.findSome?_cons]
          rcases first path with _ | target
          · exact otherTarget path (count + 1)
          · rfl

theorem buildReference_cases {spec : Json} {rule : ReferenceRule}
    (built : buildReference spec = .ok rule) :
    (∃ rules, referenceRules 0 (listed spec) = .ok rules ∧ rule = .firstOf rules) ∨
      (listed spec = [spec] ∧ referenceRule? spec = .ok (some rule)) := by
  unfold buildReference at built
  split at built
  case h_1 items =>
    left
    rcases read : referenceRules 0 items.toList with error | rules
    · rw [read] at built
      cases built
    · rw [read] at built
      cases built
      exact ⟨rules, read, rfl⟩
  case h_2 notArray =>
    right
    refine ⟨listed_eq_singleton notArray, ?_⟩
    split at built
    case h_1 => cases built
    case h_2 => cases built
    case h_3 found read =>
      cases built
      exact read

/-- The rule that is built sends a leaf where the first listed rule that applies sends it. -/
theorem destination?_of_buildReference {spec : Json} {rule : ReferenceRule}
    (built : buildReference spec = .ok rule) :
    ∃ destination, destination? spec = some destination ∧
      ∀ path, (rule.target path).value = targetOf (destination path) := by
  rcases buildReference_cases built with ⟨rules, read, rfl⟩ | ⟨isOne, read⟩
  · rcases sends?_of_referenceRules read with ⟨sends, areSends, sameTarget⟩
    refine ⟨_, by rw [destination?, areSends]; rfl, ?_⟩
    intro path
    rw [ReferenceRule.target]
    exact sameTarget path 0
  · rcases sends?_of_referenceRule? read with ⟨sends, isSends, sameTarget⟩
    refine ⟨fun path => [sends].findSome? fun sends => sends path, ?_, ?_⟩
    · simp [destination?, isOne, isSends]
    · intro path
      simp only [sameTarget path, List.findSome?_singleton]

theorem revises?_eq_map (value : Json) :
    revises? value = (valueRule? value).map ValueRule.apply := by
  cases value with
  | object members =>
      rw [revises?, valueRule?]
      rcases members.lookup "equals" with _ | value
      · rcases members.lookup "skip_if" with _ | skipped <;> rfl
      · rcases members.lookup "replace" with _ | replacement
        · rcases members.lookup "skip_if" with _ | skipped <;> rfl
        · rfl
  | _ => rfl

theorem revises?_of_valueRules {index : Nat} {values : List Json} {rules : List ValueRule}
    (read : valueRules index values = .ok rules) :
    values.mapM revises? = some (rules.map ValueRule.apply) := by
  induction values generalizing index rules with
  | nil =>
      cases read
      rfl
  | cons value values ih =>
      rw [valueRules] at read
      rcases readFirst : valueRule? value with _ | rule
      · simp [readFirst] at read
      · rcases readOthers : valueRules (index + 1) values with error | others
        · simp [readFirst, readOthers, Except.map] at read
        · simp only [readFirst, readOthers, Except.map, Except.ok.injEq] at read
          subst read
          simp [List.mapM_cons, revises?_eq_map value, readFirst, ih readOthers]

theorem applyAll_eq_foldlM (rules : List ValueRule) (value : Json) :
    ValueRule.applyAll rules value =
      (rules.map ValueRule.apply).foldlM (fun value revise => revise value) value := by
  induction rules generalizing value with
  | nil => rfl
  | cons rule rules ih =>
      rw [ValueRule.applyAll, List.map_cons, List.foldlM_cons]
      rcases rule.apply value with _ | revised
      · rfl
      · exact ih revised

/-- The value rules that are built make of a value what the listed rules make of it in turn. -/
theorem revision?_of_buildValues {spec : Json} {rules : ValueRules}
    (built : buildValues spec = .ok rules) :
    ∃ revision, revision? spec = some revision ∧
      ∀ value, ValueRule.applyAll rules.toList value = revision value := by
  have areRevisions : (if spec = .null then [] else listed spec).mapM revises? =
      some (rules.toList.map ValueRule.apply) := by
    unfold buildValues at built
    split at built
    case h_1 =>
      cases built
      rfl
    case h_2 items =>
      rcases read : valueRules 0 items.toList with error | found
      · rw [read] at built
        cases built
      · rw [read] at built
        cases built
        rw [if_neg (by simp)]
        exact revises?_of_valueRules read
    case h_3 notNull notArray =>
      split at built
      case h_1 rule read =>
        cases built
        rw [if_neg notNull, listed_eq_singleton notArray]
        simp [ValueRules.toList, revises?_eq_map spec, read]
      case h_2 => cases built
  refine ⟨_, by rw [revision?, areRevisions]; rfl, ?_⟩
  intro value
  exact applyAll_eq_foldlM rules.toList value

/-- The mapping that is built for a single document performs the run that the document describes. -/
theorem performs_of_build_single {mode : Mode} {reference values : Json} {mapping : Mapping}
    (built : (build (.single mode reference values)).value = .ok mapping) :
    ∃ run, run? (.single mode reference values) = some run ∧ mapping.Performs run := by
  rcases build_single_eq_ok_iff.mp built with ⟨rule, rules, builtRule, builtRules, rfl⟩
  rcases destination?_of_buildReference builtRule with ⟨destination, isDestination, sameTarget⟩
  rcases revision?_of_buildValues builtRules with ⟨revision, isRevision, sameValue⟩
  refine ⟨_, by rw [run?, isDestination, isRevision]; rfl, RuleSet.Follows.performs ?_ mode⟩
  intro path value
  simp only [RuleSet.verdict, RuleSet.destination, Logged.value_bind, Logged.value_pure, sameTarget,
    sameValue]
  rcases destination path with _ | target
  · rfl
  · simp only [targetOf, Target.resolve]
    rcases revision value with _ | revised <;> rfl

mutual

theorem performs_of_build {document : Document} {mapping : Mapping}
    (built : (build document).value = .ok mapping) :
    ∃ run, document.run? = some run ∧ mapping.Performs run := by
  match document with
  | .single mode reference values => exact performs_of_build_single built
  | .composition mode stages =>
      rcases build_composition_eq_ok_iff.mp built with ⟨mappings, builtStages, rfl⟩
      rcases performs_of_buildStages builtStages with ⟨runs, areRuns, performs⟩
      have sameMode := (load_of_buildStages builtStages).1
      refine ⟨mode.inSequence runs, ?_, Mapping.performs_compose performs sameMode⟩
      rw [run?, areRuns]
      rfl
termination_by (document.stagesSize, 1)

theorem performs_of_buildStages {mode : Mode} {index : Nat} {stages : List Json}
    {mappings : List Mapping} (built : (buildStages mode index stages).value = .ok mappings) :
    ∃ runs, stageRuns? mode stages = some runs ∧ List.Forall₂ Mapping.Performs mappings runs := by
  match stages with
  | [] =>
      cases buildStages_nil_eq_ok_iff.mp built
      exact ⟨[], by rw [stageRuns?], .nil⟩
  | stage :: others =>
      rcases buildStages_cons_eq_ok_iff.mp built with
        ⟨inner, mapping, further, isStage, builtInner, builtOthers, rfl⟩
      rcases stageDocument_eq_ok_iff.mp isStage with ⟨members, isObject, read, rightMode⟩
      rcases performs_of_build builtInner with ⟨run, isRun, performs⟩
      rcases performs_of_buildStages builtOthers with ⟨runs, areRuns, othersPerform⟩
      refine ⟨run :: runs, ?_, .cons performs othersPerform⟩
      rw [isObject, stageRuns?]
      split
      case h_1 found isFound =>
        rw [read] at isFound
        cases isFound
        simp [rightMode, isRun, areRuns]
      case h_2 isMissing =>
        rw [read] at isMissing
        cases isMissing
termination_by (sizeOf stages, 0)
decreasing_by
  · apply Prod.Lex.left
    have := stagesSize_stageDocument isStage
    simp only [List.cons.sizeOf_spec]
    omega
  · apply Prod.Lex.left
    simp only [List.cons.sizeOf_spec]
    omega

end

/-- A mapping that is built for a document has the mode of the document, and what it gives for any
value, a tree or a fault, is what the run that the document describes gives. -/
theorem apply_of_build {document : Document} {mapping : Mapping}
    (built : (build document).value = .ok mapping) :
    mapping.mode = document.mode ∧
      ∃ run, document.run? = some run ∧
        ∀ source, (mapping.apply source).value = run source (document.mode.start source) := by
  have sameMode := mode_of_build built
  rcases performs_of_build built with ⟨run, isRun, performs⟩
  refine ⟨sameMode, run, isRun, ?_⟩
  intro source
  rw [← sameMode]
  exact performs.apply source

/-- A composition of a single mapping and of another composition. -/
def nestedStages : List Json :=
  [.object [("mode", .string "transform"),
      ("ref", .array #[.object [("path", .string "a"), ("to", .string "b.c")],
        .object [("ref", .array #[.string "d"])]]),
      ("values", .object [("equals", .null), ("replace", .bool true)])],
    .object [("compose", .string "transform"), ("stages", .array #[
      .object [("mode", .string "transform"), ("ref", .string "all"),
        ("values", .array #[.object [("skip_if", .bool false)]])]])]]

theorem apply_nestedStages :
    ∃ mapping, (build (.composition .transform nestedStages)).value = .ok mapping ∧
      mapping.mode = .transform ∧
      ∃ run, run? (.composition .transform nestedStages) = some run ∧
        run (.object [("a", .null), ("d", .bool false), ("e", .null)])
            (.object [("a", .null), ("d", .bool false), ("e", .null)]) =
          .ok (.object [("b", .object [("c", .bool true)]), ("d", .bool false), ("e", .null)]) := by
  have built : (build (.composition .transform nestedStages)).value = .ok ⟨.transform, .sequence
      [.single ⟨.firstOf [.exact ["a"] ["b", "c"], .exact ["d"] ["d"]],
          [.replace .null (.bool true)]⟩,
        .sequence [.single ⟨.all, [.skip (.bool false)]⟩]]⟩ := by
    cbv
  rcases apply_of_build built with ⟨isTransform, run, isRun, same⟩
  refine ⟨_, built, isTransform, run, isRun, ?_⟩
  exact (same _).symm.trans rfl

end Graft.Document
