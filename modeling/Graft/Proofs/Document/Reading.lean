import Graft.Proofs.Document.Faults
import Graft.Proofs.Tree.Removal

/-!
# Objects that ask for a composition

An object with a member `compose` asks for a composition, and every other member but `stages` is
reported as one that means nothing. What is built is the composition that is asked for, in the
object and in every stage that asks for one in turn, unless one of them is misread. Mostly that is
an object that names no mode or lists no stages: it is read as a single mapping by members that were
reported. These are the only reported members that are not safe to leave out.
-/

namespace Graft.Document

/-- What is read depends on the members of five names only, and on those of a single mapping only
if there is no composition. -/
theorem ofMembers?_congr {members others : List (String × Json)}
    (sameCompose : others.lookup "compose" = members.lookup "compose")
    (sameStages : (members.lookup "compose").isSome →
      others.lookup "stages" = members.lookup "stages")
    (sameSingle : composition? members = none → single? others = single? members) :
    ofMembers? others = ofMembers? members := by
  have sameComposition : composition? others = composition? members := by
    rcases asked : members.lookup "compose" with _ | asks
    · simp [composition?, sameCompose, asked]
    · rw [composition?, composition?, sameCompose, sameStages (by rw [asked]; rfl)]
  rw [ofMembers?, ofMembers?, sameComposition]
  rcases isComposition : composition? members with _ | document
  · rw [sameSingle isComposition]
  · rfl

theorem ignoredMember_mem_log_iff {members : List (String × Json)} {name : String} :
    .ignoredMember name ∈ (ofJson (.object members)).log ↔
      name ∈ members.map Prod.fst ∧ name ∉ knownNames members := by
  simp [ofJson, unknownNames]

theorem ne_compose_of_unknown {members : List (String × Json)} {name : String}
    (isMember : name ∈ members.map Prod.fst) (unknown : name ∉ knownNames members) :
    name ≠ "compose" := by
  rintro rfl
  have asks : (members.lookup "compose").isSome := by
    rcases List.mem_map.mp isMember with ⟨⟨_, value⟩, inside, rfl⟩
    exact List.lookup_isSome_iff.mpr ⟨_, inside, by simp⟩
  exact unknown (by simp [knownNames, asks])

/-- A member that is reported as one that means nothing can be left out without any change to what
the object is read as and to what is built for it, unless the member is one of a single mapping and
the object describes no composition although it asks for one. -/
theorem ofJson_eraseMember {members : List (String × Json)} {name : String}
    (reported : .ignoredMember name ∈ (ofJson (.object members)).log)
    (ofComposition : name ∈ ["mode", "ref", "values"] → (composition? members).isSome) :
    (ofJson (.object (Json.eraseMember name members))).value = (ofJson (.object members)).value ∧
      load (.object (Json.eraseMember name members)) = load (.object members) := by
  rcases ignoredMember_mem_log_iff.mp reported with ⟨isMember, unknown⟩
  have keeps : ∀ other, other ≠ name →
      (Json.eraseMember name members).lookup other = members.lookup other :=
    fun other differs => Json.lookup_eraseMember_of_ne differs members
  have same : (ofJson (.object (Json.eraseMember name members))).value =
      (ofJson (.object members)).value := by
    rw [value_ofJson_object, value_ofJson_object, ofMembers?_congr]
    case sameCompose => exact keeps _ (ne_compose_of_unknown isMember unknown).symm
    case sameStages =>
      intro asks
      apply keeps
      rintro rfl
      exact unknown (by simp [knownNames, asks])
    case sameSingle =>
      intro noComposition
      have notSingle : name ∉ ["mode", "ref", "values"] := by
        intro isSingle
        simpa [noComposition] using ofComposition isSingle
      simp only [List.mem_cons, List.not_mem_nil, or_false, not_or] at notSingle
      rcases notSingle with ⟨notMode, notReference, notValues⟩
      rw [single?, single?, keeps _ (Ne.symm notMode), keeps _ (Ne.symm notReference),
        keeps _ (Ne.symm notValues)]
  exact ⟨same, by rw [load, load, same]⟩

/-- A composition with reference rules that mean nothing. -/
def stagesAndReference : List (String × Json) :=
  [("compose", .string "map"), ("ref", .string "all"),
    ("stages", .array #[.object [("ref", .string "all")]])]

theorem ofJson_stagesAndReference :
    .ignoredMember "ref" ∈ (ofJson (.object stagesAndReference)).log ∧
      (ofJson (.object (Json.eraseMember "ref" stagesAndReference))).value =
        (ofJson (.object stagesAndReference)).value ∧
      load (.object (Json.eraseMember "ref" stagesAndReference)) =
        load (.object stagesAndReference) := by
  have reported : .ignoredMember "ref" ∈ (ofJson (.object stagesAndReference)).log := by
    decide
  exact ⟨reported, ofJson_eraseMember reported fun _ => rfl⟩

/-- A composition whose stages were forgotten, with a reference rule. -/
def stagesForgotten : List (String × Json) :=
  [("compose", .string "map"), ("ref", .string "all")]

/-- The reference rule is reported as one that means nothing, but nothing is built without it. -/
theorem load_eraseMember_stagesForgotten :
    .ignoredMember "ref" ∈ (ofJson (.object stagesForgotten)).log ∧
      load (.object stagesForgotten) = .ok (.ofRules .map .all (.many [])) ∧
      load (.object (Json.eraseMember "ref" stagesForgotten)) =
        .error (.mapping (.noReferenceRule .null)) := by
  refine ⟨by decide, ?_, ?_⟩
  · cbv
  · cbv

/-- Whether an object names a mode as its composition and lists stages. -/
def Asks (members : List (String × Json)) (mode : Mode) (stages : List Json) : Prop :=
  members.lookup "compose" = some (.string mode.name) ∧
    members.lookup "stages" = some (.array stages.toArray)

/-- Whether a mapping is the composition that an object asks for, if it asks for one: it has the
mode that the object names and runs what the stages become, and every stage becomes the composition
that it asks for. -/
inductive Composed : List (String × Json) → Mapping → Prop where
  | plain {members : List (String × Json)} {mapping : Mapping}
      (asksNothing : members.lookup "compose" = none) : Composed members mapping
  | composition {members : List (String × Json)} {mode : Mode} {stages : List Json}
      {mappings : List Mapping} (asks : Asks members mode stages)
      (loaded : List.Forall₂ (fun stage mapping => load stage = .ok mapping) stages mappings)
      (sameMode : ∀ mapping ∈ mappings, mapping.mode = mode)
      (nested : ∀ inner mapping, .object inner ∈ stages → load (.object inner) = .ok mapping →
        Composed inner mapping) :
      Composed members ⟨mode, .sequence (mappings.map Mapping.pipeline)⟩

/-- Whether an object asks for a composition in a way in which none should be built, or a stage of
its composition does. -/
inductive Misread : List (String × Json) → Prop where
  /-- A member that is reported as one that means nothing stands in for the composition. -/
  | byReference {members : List (String × Json)}
      (reported : .ignoredMember "ref" ∈ (ofJson (.object members)).log)
      (noComposition : composition? members = none) : Misread members
  /-- The mode is not given by its name alone. -/
  | byObject {members form : List (String × Json)}
      (asks : members.lookup "compose" = some (.object form)) : Misread members
  | inStage {members inner : List (String × Json)} {mode : Mode} {stages : List Json}
      (asks : Asks members mode stages) (isStage : .object inner ∈ stages)
      (misread : Misread inner) : Misread members

section

variable {members : List (String × Json)} {mode : Mode} {stages : List Json} {mapping : Mapping}

theorem Asks.composition? (asks : Asks members mode stages) :
    composition? members = some (.composition mode stages) :=
  isComposition_iff.mp ⟨⟨_, asks.1, .word⟩, asks.2⟩

theorem Asks.stages_unique {other : Mode} {others : List Json} (asks : Asks members mode stages)
    (alsoAsks : Asks members other others) : stages = others := by
  have same := asks.2.symm.trans alsoAsks.2
  simpa using same

theorem Asks.sizeOf_lt {inner : List (String × Json)} (asks : Asks members mode stages)
    (isStage : .object inner ∈ stages) : sizeOf inner < sizeOf members := by
  have listSmaller := sizeOf_lookup_lt asks.2
  have stageSmaller := List.sizeOf_lt_of_mem isStage
  simp only [Json.array.sizeOf_spec, Array.mk.sizeOf_spec] at listSmaller
  simp only [Json.object.sizeOf_spec] at stageSmaller
  omega

theorem Asks.load_eq_ok_iff (asks : Asks members mode stages) :
    load (.object members) = .ok mapping ↔
      (build (.composition mode stages)).value = .ok mapping := by
  simp [load_object_eq_ok_iff, ofMembers?, asks.composition?]

/-- An object that describes a composition names the mode by a string or by an object. -/
theorem asks_of_composition? {document : Document} (read : composition? members = some document) :
    (∃ mode stages, Asks members mode stages) ∨
      ∃ form, members.lookup "compose" = some (.object form) := by
  rcases exists_isComposition read with ⟨mode, stages, ⟨⟨value, isCompose, names⟩, isStages⟩, _⟩
  cases names with
  | word => exact Or.inl ⟨mode, stages, isCompose, isStages⟩
  | member => exact Or.inr ⟨_, isCompose⟩

/-- Nothing but a reference rule can stand in for a composition. -/
theorem lookup_ref_isSome_of_load (noComposition : composition? members = none)
    (built : load (.object members) = .ok mapping) : (members.lookup "ref").isSome := by
  rcases load_object_eq_ok_iff.mp built with ⟨document, read, builtDocument⟩
  rw [ofMembers?, noComposition, Option.none_or] at read
  rcases Option.map_eq_some_iff.mp read with ⟨mode, -, rfl⟩
  rcases build_single_eq_ok_iff.mp builtDocument with ⟨rule, -, builtRule, -⟩
  rcases isReference : members.lookup "ref" with _ | reference
  · rw [isReference] at builtRule
    cases builtRule
  · rfl

theorem ignoredMember_ref_mem_log (asks : (members.lookup "compose").isSome)
    (hasReference : (members.lookup "ref").isSome) :
    .ignoredMember "ref" ∈ (ofJson (.object members)).log := by
  refine ignoredMember_mem_log_iff.mpr ⟨?_, by simp [knownNames, asks]⟩
  rcases List.lookup_isSome_iff.mp hasReference with ⟨member, inside, isReference⟩
  exact List.mem_map.mpr ⟨member, inside, (beq_iff_eq.mp isReference).symm⟩

theorem exists_load_of_mem {mappings : List Mapping} {stage : Json}
    (loaded : List.Forall₂ (fun stage mapping => load stage = .ok mapping) stages mappings)
    (isStage : stage ∈ stages) : ∃ mapping, load stage = .ok mapping := by
  induction loaded with
  | nil => simp at isStage
  | cons loadsFirst _ ih =>
      rcases List.mem_cons.mp isStage with rfl | isOther
      · exact ⟨_, loadsFirst⟩
      · exact ih isOther

theorem not_misread_of_lookup_eq_none (asksNothing : members.lookup "compose" = none) :
    ¬Misread members := by
  rintro (⟨reported, -⟩ | asks | asks)
  · exact (ignoredMember_mem_log_iff.mp reported).2 (by simp [knownNames, asksNothing])
  · rw [asksNothing] at asks
    cases asks
  · rw [asks.1] at asksNothing
    cases asksNothing

theorem Asks.not_misread (asks : Asks members mode stages)
    (nested : ∀ inner, .object inner ∈ stages → ¬Misread inner) : ¬Misread members := by
  rintro (⟨-, noComposition⟩ | asksByObject | ⟨asksHere, isStage, misread⟩)
  · rw [asks.composition?] at noComposition
    cases noComposition
  · rw [asks.1] at asksByObject
    cases asksByObject
  · rw [← asks.stages_unique asksHere] at isStage
    exact nested _ isStage misread

theorem Composed.not_misread (composed : Composed members mapping) : ¬Misread members := by
  induction composed with
  | plain asksNothing => exact not_misread_of_lookup_eq_none asksNothing
  | composition asks loaded _ _ ih =>
      apply asks.not_misread
      intro inner isStage
      rcases exists_load_of_mem loaded isStage with ⟨mapping, loads⟩
      exact ih inner mapping isStage loads

/-- An object that is not misread becomes what it asks for. The stages are smaller than the object,
and none of them is misread. -/
theorem composed_of_not_misread {members : List (String × Json)} {mapping : Mapping}
    (built : load (.object members) = .ok mapping)
    (notMisread : ¬Misread members) : Composed members mapping := by
  rcases isCompose : members.lookup "compose" with _ | value
  · exact .plain isCompose
  · have asksSomething : (members.lookup "compose").isSome := by rw [isCompose]; rfl
    rcases read : composition? members with _ | document
    · have hasReference := lookup_ref_isSome_of_load read built
      have reported := ignoredMember_ref_mem_log asksSomething hasReference
      exact (notMisread (.byReference reported read)).elim
    · rcases asks_of_composition? read with ⟨mode, stages, asks⟩ | ⟨form, asksByObject⟩
      · rcases build_composition_eq_ok_iff.mp (asks.load_eq_ok_iff.mp built) with
          ⟨mappings, builtStages, rfl⟩
        rcases load_of_buildStages builtStages with ⟨sameMode, loaded⟩
        rw [Mapping.compose_of_forall_mode sameMode]
        refine .composition asks loaded sameMode ?_
        intro inner mapping isStage loads
        apply composed_of_not_misread loads
        intro misread
        exact notMisread (.inStage asks isStage misread)
      · exact (notMisread (.byObject asksByObject)).elim
termination_by sizeOf members
decreasing_by exact asks.sizeOf_lt isStage

/-- What is built for an object is the composition that the object asks for, and so it is for every
stage that asks for one, unless the object or a stage is misread. -/
theorem composed_iff_not_misread (built : load (.object members) = .ok mapping) :
    Composed members mapping ↔ ¬Misread members :=
  ⟨Composed.not_misread, composed_of_not_misread built⟩

end

/-- A composition of a single mapping and of a composition without stages. -/
def compositionInStages : List (String × Json) :=
  [("compose", .string "map"), ("stages", .array #[
    .object [("ref", .string "all")],
    .object [("compose", .string "map"), ("stages", .array #[])]])]

theorem composed_compositionInStages :
    ∃ mapping, load (.object compositionInStages) = .ok mapping ∧
      Composed compositionInStages mapping := by
  have built : load (.object compositionInStages) =
      .ok ⟨.map, .sequence [.single ⟨.all, []⟩, .sequence []]⟩ := by
    cbv
  refine ⟨_, built, (composed_iff_not_misread built).mpr ?_⟩
  have asks : Asks compositionInStages .map [.object [("ref", .string "all")],
      .object [("compose", .string "map"), ("stages", .array #[])]] := ⟨rfl, rfl⟩
  have emptyAsks : Asks [("compose", .string "map"), ("stages", .array #[])] .map [] := ⟨rfl, rfl⟩
  apply asks.not_misread
  intro inner isStage
  simp only [List.mem_cons, List.not_mem_nil, or_false, Json.object.injEq] at isStage
  rcases isStage with rfl | rfl
  · exact not_misread_of_lookup_eq_none rfl
  · exact emptyAsks.not_misread fun _ isStage => by cases isStage

/-- Where the stages are forgotten, a single mapping is built. -/
theorem not_composed_stagesForgotten :
    load (.object stagesForgotten) = .ok (.ofRules .map .all (.many [])) ∧
      ¬Composed stagesForgotten (.ofRules .map .all (.many [])) := by
  refine ⟨by cbv, ?_⟩
  intro composed
  exact composed.not_misread (.byReference (by decide) rfl)

end Graft.Document
