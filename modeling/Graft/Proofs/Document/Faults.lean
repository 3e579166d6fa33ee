import Graft.Proofs.Document.Building

/-!
# What is wrong with a document

The legal forms of rules and stages, said without the functions that read them, and the first fault
of a document that is not legal: reference rules come before value rules, the `path` of a rule
before its `to`, and what stands in a list comes in the order of the list. A stage that reads as a
document of the right mode has the first fault of that document, whatever is wrong with it, and any
other stage is a fault itself.

A document is built just if it is legal, and otherwise building it fails with its first fault.
-/

namespace Graft.Document

/-- The first fault in a list: the values before it are legal. What the fault of a value is may
depend on its index. -/
def FirstIn {α ε : Type} (Legal : α → Prop) (Fault : Nat → α → ε → Prop) (values : List α)
    (error : ε) : Prop :=
  ∃ before value after, values = before ++ value :: after ∧ (∀ earlier ∈ before, Legal earlier) ∧
    Fault before.length value error

/-- Whether a value is a list of keys: an array that holds nothing but strings. -/
def IsKeyList (value : Json) : Prop :=
  ∃ keys : List String, value = .array (keys.map .string).toArray

/-- The expressions that spell the paths of a reference rule, in the order in which they are read. A
`to` that is `null` counts as absent. -/
inductive Spelled (members : List (String × Json)) : List String → Prop where
  | source {source : String} (isSource : members.lookup "path" = some (.string source))
      (noTarget : members.lookup "to" = none ∨ members.lookup "to" = some .null) :
      Spelled members [source]
  | target {source target : String} (isSource : members.lookup "path" = some (.string source))
      (isTarget : members.lookup "to" = some (.string target)) : Spelled members [source, target]

/-- Whether the paths of a reference rule are listed key by key. -/
structure KeysListed (members : List (String × Json)) : Prop where
  source : ∃ value, members.lookup "ref" = some value ∧ IsKeyList value
  target : ∀ value, members.lookup "to" = some value → value = .null ∨ IsKeyList value

/-- Whether an expression spells a path. -/
def LegalExpression (text : String) : Prop := ∃ path, KeyPath.ofExpression text = .ok path

/-- The legal reference rules. Keys count only where no expressions are spelled. -/
inductive LegalReferenceRule : Json → Prop where
  | all : LegalReferenceRule (.string "all")
  | expressions {members : List (String × Json)} {texts : List String}
      (spelled : Spelled members texts) (legal : ∀ text ∈ texts, LegalExpression text) :
      LegalReferenceRule (.object members)
  | keys {members : List (String × Json)} (notSpelled : ∀ texts, ¬Spelled members texts)
      (listed : KeysListed members) : LegalReferenceRule (.object members)

/-- The first fault of a reference rule: its first expression that is none, or its form. -/
inductive ReferenceRuleFault (misshapen : MappingError) : Json → DocumentError → Prop where
  | expression {members : List (String × Json)} {texts : List String} {error : Path.PathError}
      (spelled : Spelled members texts)
      (first : FirstIn LegalExpression
        (fun _ text error => KeyPath.ofExpression text = .error error) texts error) :
      ReferenceRuleFault misshapen (.object members) (.path error)
  | form {value : Json} (notAll : value ≠ .string "all")
      (noForm : ∀ members, value = .object members →
        (∀ texts, ¬Spelled members texts) ∧ ¬KeysListed members) :
      ReferenceRuleFault misshapen value (.mapping misshapen)

/-- Whether a value is a legal value rule: an object with `equals` and `replace`, or with
`skip_if`. -/
def LegalValueRule (value : Json) : Prop :=
  ∃ members, value = .object members ∧
    (((members.lookup "equals").isSome ∧ (members.lookup "replace").isSome) ∨
      (members.lookup "skip_if").isSome)

/-- The fault of a value that is no value rule: its form. -/
def ValueRuleFault (misshapen : MappingError) (value : Json) (error : DocumentError) : Prop :=
  ¬LegalValueRule value ∧ error = .mapping misshapen

/-- The legal values where a rule or a list of rules is expected. -/
inductive LegalRules (LegalRule : Json → Prop) : Json → Prop where
  | list {items : Array Json} (each : ∀ item ∈ items.toList, LegalRule item) :
      LegalRules LegalRule (.array items)
  | rule {value : Json} (legal : LegalRule value) : LegalRules LegalRule value

/-- The first fault where a rule or a list of rules is expected. What is misshapen in a list is told
by its index, and what stands alone by `misshapen`. -/
inductive RulesFault (LegalRule : Json → Prop)
    (RuleFault : MappingError → Json → DocumentError → Prop) (misshapen : Json → MappingError) :
    Json → DocumentError → Prop where
  | list {items : Array Json} {error : DocumentError}
      (first : FirstIn LegalRule (fun index item => RuleFault (.badElement index item) item)
        items.toList error) :
      RulesFault LegalRule RuleFault misshapen (.array items) error
  | rule {value : Json} {error : DocumentError} (notList : ∀ items, value ≠ .array items)
      (fault : RuleFault (misshapen value) value error) :
      RulesFault LegalRule RuleFault misshapen value error

/-- The values that name a mode. -/
inductive NamesMode (mode : Mode) : Json → Prop where
  | word : NamesMode mode (.string mode.name)
  | member : NamesMode mode (.object [(mode.name, .null)])

/-- Whether members describe a composition. -/
structure IsComposition (members : List (String × Json)) (mode : Mode) (stages : List Json) :
    Prop where
  mode : ∃ value, members.lookup "compose" = some value ∧ NamesMode mode value
  stages : members.lookup "stages" = some (.array stages.toArray)

/-- The document that members describe: a composition if they have the form of one, and otherwise a
single mapping, which is a map if no mode is named. -/
inductive Describes (members : List (String × Json)) : Document → Prop where
  | composition {mode : Mode} {stages : List Json} (form : IsComposition members mode stages) :
      Describes members (.composition mode stages)
  | single {mode : Mode} (noComposition : ∀ mode stages, ¬IsComposition members mode stages)
      (isMode : (members.lookup "mode" = none ∧ mode = .map) ∨
        ∃ value, members.lookup "mode" = some value ∧ NamesMode mode value) :
      Describes members (.single mode ((members.lookup "ref").getD .null)
        ((members.lookup "values").getD .null))

/-- Whether a stage is an object that describes a document of the composition's mode. -/
def IsStage (mode : Mode) (stage : Json) (inner : Document) : Prop :=
  ∃ members, stage = .object members ∧ Describes members inner ∧ inner.mode = mode

/-- The documents in which everything has a legal form. Value rules may be missing. -/
inductive Legal : Document → Prop where
  | single {mode : Mode} {reference values : Json}
      (legalReference : LegalRules LegalReferenceRule reference)
      (legalValues : values = .null ∨ LegalRules LegalValueRule values) :
      Legal (.single mode reference values)
  | composition {mode : Mode} {stages : List Json}
      (described : ∀ stage ∈ stages, ∃ inner, IsStage mode stage inner)
      (legal : ∀ stage ∈ stages, ∀ inner, IsStage mode stage inner → Legal inner) :
      Legal (.composition mode stages)

/-- Whether a stage describes a legal document of the composition's mode. -/
def LegalStage (mode : Mode) (stage : Json) : Prop :=
  ∃ inner, IsStage mode stage inner ∧ Legal inner

/-- The first fault of a document that is not legal. -/
inductive FirstFault : Document → DocumentError → Prop where
  | reference {mode : Mode} {reference values : Json} {error : DocumentError}
      (fault : RulesFault LegalReferenceRule ReferenceRuleFault .noReferenceRule reference error) :
      FirstFault (.single mode reference values) error
  | values {mode : Mode} {reference values : Json} {error : DocumentError}
      (legalReference : LegalRules LegalReferenceRule reference) (present : values ≠ .null)
      (fault : RulesFault LegalValueRule ValueRuleFault .noValueRules values error) :
      FirstFault (.single mode reference values) error
  | noStage {mode : Mode} {before after : List Json} {stage : Json}
      (earlier : ∀ other ∈ before, LegalStage mode other)
      (notStage : ∀ inner, ¬IsStage mode stage inner) :
      FirstFault (.composition mode (before ++ stage :: after))
        (.mapping (.badElement before.length stage))
  | inStage {mode : Mode} {before after : List Json} {stage : Json} {inner : Document}
      {error : DocumentError} (earlier : ∀ other ∈ before, LegalStage mode other)
      (isStage : IsStage mode stage inner) (fault : FirstFault inner error) :
      FirstFault (.composition mode (before ++ stage :: after)) error

/-! ### Attempts that report the first fault -/

/-- An attempt succeeds just if everything is legal, and fails just with what the fault is. -/
structure Reports {α ε : Type} (outcome : Except ε α) (legal : Prop) (fault : ε → Prop) : Prop where
  ok_iff : (∃ result, outcome = .ok result) ↔ legal
  error_iff : ∀ error, outcome = .error error ↔ fault error

section

variable {α β γ ε : Type} {legal otherLegal : Prop} {fault otherFault : ε → Prop}

theorem reports_ok (result : α) (isLegal : legal) (noFault : ∀ error, ¬fault error) :
    Reports (.ok result : Except ε α) legal fault :=
  ⟨by simp [isLegal], fun error => by simp [noFault error]⟩

theorem reports_error {error : ε} (illegal : ¬legal)
    (isFault : ∀ other, fault other ↔ other = error) :
    Reports (.error error : Except ε α) legal fault :=
  ⟨by simp [illegal], fun other => by simp [isFault other, eq_comm]⟩

theorem Reports.congr {outcome : Except ε α} (reports : Reports outcome legal fault)
    (sameLegal : legal ↔ otherLegal) (sameFault : ∀ error, fault error ↔ otherFault error) :
    Reports outcome otherLegal otherFault :=
  ⟨reports.ok_iff.trans sameLegal, fun error => (reports.error_iff error).trans (sameFault error)⟩

theorem Reports.map {outcome : Except ε α} (reports : Reports outcome legal fault)
    (change : α → β) : Reports (outcome.map change) legal fault := by
  rcases outcome with error | result
  · exact ⟨by simp [← reports.ok_iff, Except.map], fun other => by
      simp [← reports.error_iff, Except.map]⟩
  · exact ⟨by simp [← reports.ok_iff, Except.map], fun other => by
      simp [← reports.error_iff, Except.map]⟩

theorem Reports.mapError {δ : Type} {outcome : Except ε α} (reports : Reports outcome legal fault)
    (change : ε → δ) :
    Reports (outcome.mapError change) legal
      (fun error => ∃ cause, fault cause ∧ error = change cause) := by
  rcases outcome with error | result
  · exact ⟨by simp [← reports.ok_iff, Except.mapError], fun other => by
      simp [← reports.error_iff, Except.mapError, eq_comm]⟩
  · exact ⟨by simp [← reports.ok_iff, Except.mapError], fun other => by
      simp [← reports.error_iff, Except.mapError]⟩

/-- Of two attempts in turn, the second one reports only if the first one finds everything legal. -/
theorem Reports.andThen {first : Except ε α} {second : Except ε β}
    (reports : Reports first legal fault) (join : α → β → γ)
    (reportsOther : Reports second otherLegal otherFault) :
    Reports (first.bind fun result => second.map (join result)) (legal ∧ otherLegal)
      (fun error => fault error ∨ (legal ∧ otherFault error)) := by
  refine ⟨?_, ?_⟩
  · rw [← reports.ok_iff, ← reportsOther.ok_iff]
    rcases first with error | result
    · simp [Except.bind]
    · rcases second with error | other
      · simp [Except.bind, Except.map]
      · simp [Except.bind, Except.map]
  · intro error
    rw [← reports.ok_iff, ← reports.error_iff, ← reportsOther.error_iff]
    rcases first with failure | result
    · simp [Except.bind]
    · rcases second with failure | other
      · simp [Except.bind, Except.map]
      · simp [Except.bind, Except.map]

end

section

variable {α β ε : Type} {Legal : α → Prop} {Fault : Nat → α → ε → Prop}
  {value : α} {values : List α} {error : ε}

theorem not_firstIn_nil : ¬FirstIn Legal Fault [] error := by
  simp [FirstIn]

theorem firstIn_cons_iff :
    FirstIn Legal Fault (value :: values) error ↔
      Fault 0 value error ∨
        (Legal value ∧ FirstIn Legal (fun index => Fault (index + 1)) values error) := by
  constructor
  · rintro ⟨before, faulty, after, isList, earlier, fault⟩
    rcases before with _ | ⟨first, before⟩
    · cases isList
      exact Or.inl fault
    · cases isList
      rcases List.forall_mem_cons.mp earlier with ⟨legal, others⟩
      exact Or.inr ⟨legal, before, faulty, after, rfl, others, fault⟩
  · rintro (fault | ⟨legal, before, faulty, after, rfl, earlier, fault⟩)
    · exact ⟨[], value, values, rfl, by simp, fault⟩
    · exact ⟨value :: before, faulty, after, rfl, List.forall_mem_cons.mpr ⟨legal, earlier⟩, fault⟩

theorem reports_list_from (item : Nat → α → Except ε β) (run : Nat → List α → Except ε (List β))
    (runNil : ∀ index, run index [] = .ok [])
    (runCons : ∀ index value values, run index (value :: values) =
      (item index value).bind fun result => (run (index + 1) values).map (result :: ·))
    (index : Nat)
    (each : ∀ value ∈ values, ∀ index,
      Reports (item index value) (Legal value) (Fault index value)) :
    Reports (run index values) (∀ value ∈ values, Legal value)
      (FirstIn Legal (fun position => Fault (index + position)) values) := by
  induction values generalizing index with
  | nil =>
      rw [runNil]
      exact reports_ok [] (by simp) fun error => not_firstIn_nil
  | cons value values ih =>
      rcases List.forall_mem_cons.mp each with ⟨ofValue, ofValues⟩
      rw [runCons]
      refine ((ofValue index).andThen (· :: ·) (ih (index + 1) ofValues)).congr
        List.forall_mem_cons.symm ?_
      intro error
      have shifted : (fun position => Fault (index + (position + 1))) =
          fun position => Fault (index + 1 + position) := by
        funext position
        rw [Nat.add_right_comm, Nat.add_assoc]
      rw [firstIn_cons_iff, shifted]
      rfl

/-- A function that takes the values of a list in turn until one fails reports the first fault. -/
theorem reports_list (item : Nat → α → Except ε β) (run : Nat → List α → Except ε (List β))
    (runNil : ∀ index, run index [] = .ok [])
    (runCons : ∀ index value values, run index (value :: values) =
      (item index value).bind fun result => (run (index + 1) values).map (result :: ·))
    (each : ∀ value ∈ values, ∀ index,
      Reports (item index value) (Legal value) (Fault index value)) :
    Reports (run 0 values) (∀ value ∈ values, Legal value) (FirstIn Legal Fault values) := by
  have reports := reports_list_from item run runNil runCons 0 each
  simpa only [Nat.zero_add] using reports

end

theorem string?_eq_some_iff {value : Json} {text : String} :
    string? value = some text ↔ value = .string text := by
  cases value <;> simp [string?]

theorem strings?_eq_some_iff {value : Json} {keys : List String} :
    strings? value = some keys ↔ value = .array (keys.map .string).toArray := by
  have ofItems : ∀ (items : List Json) (keys : List String),
      items.mapM string? = some keys ↔ items = keys.map .string := by
    intro items
    induction items with
    | nil => intro keys; cases keys <;> simp
    | cons item items ih =>
        intro keys
        simp only [List.mapM_cons, Option.bind_eq_bind, Option.bind_eq_some_iff,
          string?_eq_some_iff, ih, Option.pure_def, Option.some.injEq]
        rcases keys with _ | ⟨key, keys⟩
        · simp
        · simp
  cases value with
  | array items =>
      have isMapM : strings? (.array items) = items.toList.mapM string? := rfl
      rw [isMapM, ofItems, Json.array.injEq, ← Array.toList_inj]
  | null => simp [strings?]
  | bool value => simp [strings?]
  | number value => simp [strings?]
  | string text => simp [strings?]
  | object members => simp [strings?]

theorem optional?_eq_some_iff {α : Type} {read? : Json → Option α}
    (readsNoNull : read? .null = none) {member : Option Json} {found : Option α} :
    optional? read? member = some found ↔
      ((member = none ∨ member = some .null) ∧ found = none) ∨
        ∃ value result, member = some value ∧ read? value = some result ∧ found = some result := by
  rcases member with _ | value
  · simp [optional?, eq_comm]
  · by_cases isNull : value = .null
    · subst isNull
      simp [optional?, readsNoNull, eq_comm]
    · have isRead : optional? read? (some value) = (read? value).map some := by
        cases value with
        | null => exact absurd rfl isNull
        | _ => rfl
      rw [isRead]
      simp [isNull, eq_comm]

theorem spelled_iff {members : List (String × Json)} {texts : List String} :
    Spelled members texts ↔ ∃ source target,
      (members.lookup "path").bind string? = some source ∧
        optional? string? (members.lookup "to") = some target ∧
          texts = source :: target.toList := by
  simp only [Option.bind_eq_some_iff, string?_eq_some_iff, exists_eq_right, optional?_eq_some_iff
    (show string? .null = none from rfl)]
  constructor
  · rintro (⟨isSource, noTarget⟩ | ⟨isSource, isTarget⟩)
    · exact ⟨_, none, isSource, Or.inl ⟨noTarget, rfl⟩, rfl⟩
    · exact ⟨_, some _, isSource, Or.inr ⟨_, _, isTarget, rfl, rfl⟩, rfl⟩
  · rintro ⟨source, target, isSource, ⟨noTarget, rfl⟩ | ⟨_, text, isTarget, rfl, rfl⟩, rfl⟩
    · exact .source isSource noTarget
    · exact .target isSource isTarget

theorem keysListed_iff {members : List (String × Json)} :
    KeysListed members ↔ ∃ source target,
      (members.lookup "ref").bind strings? = some source ∧
        optional? strings? (members.lookup "to") = some target := by
  simp only [Option.bind_eq_some_iff, strings?_eq_some_iff, exists_eq_right, optional?_eq_some_iff
    (show strings? .null = none from rfl)]
  constructor
  · rintro ⟨⟨_, isSource, source, rfl⟩, target⟩
    rcases isTarget : members.lookup "to" with _ | value
    · exact ⟨source, none, isSource, Or.inl ⟨Or.inl rfl, rfl⟩⟩
    · rcases target value isTarget with rfl | ⟨keys, rfl⟩
      · exact ⟨source, none, isSource, Or.inl ⟨Or.inr rfl, rfl⟩⟩
      · exact ⟨source, some keys, isSource, Or.inr ⟨_, keys, rfl, rfl, rfl⟩⟩
  · rintro ⟨source, target, isSource, legalTarget⟩
    refine ⟨⟨_, isSource, source, rfl⟩, ?_⟩
    intro value isTarget
    rcases legalTarget with ⟨absent | isNull, _⟩ | ⟨_, keys, isKeys, rfl, _⟩
    · rw [absent] at isTarget
      cases isTarget
    · rw [isNull] at isTarget
      cases isTarget
      exact Or.inl rfl
    · rw [isKeys] at isTarget
      cases isTarget
      exact Or.inr ⟨keys, rfl⟩

/-- Of two expressions the first one is read first. -/
theorem reports_ofExpressions (source : String) (target : Option String) :
    Reports (ReferenceRule.ofExpressions source target)
      (∀ text ∈ source :: target.toList, LegalExpression text)
      (FirstIn LegalExpression (fun _ text error => KeyPath.ofExpression text = .error error)
        (source :: target.toList)) := by
  have ofExpression : ∀ text, Reports (KeyPath.ofExpression text) (LegalExpression text)
      fun error => KeyPath.ofExpression text = .error error :=
    fun text => ⟨.rfl, fun error => .rfl⟩
  rcases target with _ | target
  · have isMap : ReferenceRule.ofExpressions source none =
        (KeyPath.ofExpression source).map fun path => .ofPaths path none := by
      simp only [ReferenceRule.ofExpressions, bind, Except.bind]
      cases KeyPath.ofExpression source <;> rfl
    rw [isMap]
    refine ((ofExpression source).map _).congr (by simp) ?_
    intro error
    simp [firstIn_cons_iff, not_firstIn_nil]
  · have isBind : ReferenceRule.ofExpressions source (some target) =
        (KeyPath.ofExpression source).bind fun path =>
          (KeyPath.ofExpression target).map fun other => .ofPaths path (some other) := by
      simp only [ReferenceRule.ofExpressions, bind, Except.bind]
      cases KeyPath.ofExpression source with
      | error error => rfl
      | ok path => cases KeyPath.ofExpression target <;> rfl
    rw [isBind]
    refine ((ofExpression source).andThen _ (ofExpression target)).congr (by simp) ?_
    intro error
    simp [firstIn_cons_iff, not_firstIn_nil]

/-- The reference rule that a value describes, or what is wrong with it. -/
def readReferenceRule (misshapen : MappingError) (value : Json) :
    Except DocumentError ReferenceRule :=
  match referenceRule? value with
  | .error error => .error (.path error)
  | .ok none => .error (.mapping misshapen)
  | .ok (some rule) => .ok rule

theorem spelled_unique {members : List (String × Json)} {texts others : List String}
    (spelled : Spelled members texts) (alsoSpelled : Spelled members others) : texts = others := by
  rcases spelled_iff.mp spelled with ⟨source, target, isSource, isTarget, rfl⟩
  rcases spelled_iff.mp alsoSpelled with ⟨other, otherTarget, isOther, isOtherTarget, rfl⟩
  rw [isSource] at isOther
  rw [isTarget] at isOtherTarget
  cases isOther
  cases isOtherTarget
  rfl

theorem reports_readReferenceRule_of_spelled (misshapen : MappingError)
    {members : List (String × Json)} {texts : List String} (spelled : Spelled members texts) :
    Reports (readReferenceRule misshapen (.object members)) (LegalReferenceRule (.object members))
      (ReferenceRuleFault misshapen (.object members)) := by
  rcases spelled_iff.mp spelled with ⟨source, target, isSource, isTarget, rfl⟩
  have isRead : readReferenceRule misshapen (.object members) =
      (ReferenceRule.ofExpressions source target).mapError .path := by
    simp only [readReferenceRule, referenceRule?, isSource, isTarget]
    cases ReferenceRule.ofExpressions source target <;> rfl
  rw [isRead]
  refine ((reports_ofExpressions source target).mapError _).congr ?_ ?_
  · constructor
    · exact .expressions spelled
    · intro legal
      cases legal with
      | expressions otherSpelled legal => exact spelled_unique spelled otherSpelled ▸ legal
      | keys notSpelled => exact absurd spelled (notSpelled _)
  · intro error
    constructor
    · rintro ⟨cause, first, rfl⟩
      exact .expression spelled first
    · intro fault
      cases fault with
      | expression otherSpelled first =>
          cases spelled_unique spelled otherSpelled
          exact ⟨_, first, rfl⟩
      | form _ noForm => exact absurd spelled ((noForm members rfl).1 _)

theorem reports_readReferenceRule_of_not_spelled (misshapen : MappingError)
    {members : List (String × Json)} (notSpelled : ∀ texts, ¬Spelled members texts) :
    Reports (readReferenceRule misshapen (.object members)) (LegalReferenceRule (.object members))
      (ReferenceRuleFault misshapen (.object members)) := by
  -- Expressions are tried first, so without them it is the keys that decide.
  by_cases listed : KeysListed members
  · rcases keysListed_iff.mp listed with ⟨source, target, isSource, isTarget⟩
    have isRule : referenceRule? (.object members) = .ok (some (.ofPaths source target)) := by
      simp only [referenceRule?]
      split
      case h_1 text other isText isOther =>
        exact absurd (spelled_iff.mpr ⟨text, other, isText, isOther, rfl⟩) (notSpelled _)
      case h_2 found other isFound isOther _ =>
        rw [isSource] at isFound
        rw [isTarget] at isOther
        cases isFound
        cases isOther
        rfl
      case h_3 _ noKeys => exact (noKeys source target isSource isTarget).elim
    rw [readReferenceRule, isRule]
    refine reports_ok _ (.keys notSpelled listed) ?_
    intro error fault
    cases fault with
    | expression spelled _ => exact notSpelled _ spelled
    | form _ noForm => exact (noForm members rfl).2 listed
  · have isNone : referenceRule? (.object members) = .ok none := by
      simp only [referenceRule?]
      split
      case h_1 text other isText isOther =>
        exact absurd (spelled_iff.mpr ⟨text, other, isText, isOther, rfl⟩) (notSpelled _)
      case h_2 found other isFound isOther _ =>
        exact absurd (keysListed_iff.mpr ⟨found, other, isFound, isOther⟩) listed
      case h_3 => rfl
    rw [readReferenceRule, isNone]
    refine reports_error ?_ ?_
    · intro legal
      cases legal with
      | expressions spelled _ => exact notSpelled _ spelled
      | keys _ listedKeys => exact listed listedKeys
    · intro error
      constructor
      · intro fault
        cases fault with
        | expression spelled _ => exact absurd spelled (notSpelled _)
        | form => rfl
      · rintro rfl
        refine .form (by simp) ?_
        rintro others ⟨⟩
        exact ⟨notSpelled, listed⟩

/-- A value that is no object is a reference rule only if it is the one word. -/
theorem reports_misshapen (misshapen : MappingError) {value : Json} (notAll : value ≠ .string "all")
    (noObject : ∀ members, value ≠ .object members) :
    Reports (.error (.mapping misshapen) : Except DocumentError ReferenceRule)
      (LegalReferenceRule value) (ReferenceRuleFault misshapen value) := by
  refine reports_error ?_ ?_
  · intro legal
    cases legal with
    | all => exact notAll rfl
    | expressions => exact noObject _ rfl
    | keys => exact noObject _ rfl
  · intro error
    constructor
    · intro fault
      cases fault with
      | expression => exact absurd rfl (noObject _)
      | form => rfl
    · rintro rfl
      exact .form notAll fun members isObject => absurd isObject (noObject members)

theorem reports_readReferenceRule (misshapen : MappingError) (value : Json) :
    Reports (readReferenceRule misshapen value) (LegalReferenceRule value)
      (ReferenceRuleFault misshapen value) := by
  cases value with
  | string word =>
      by_cases isAll : word = "all"
      · subst isAll
        refine reports_ok _ .all ?_
        intro error fault
        cases fault with
        | form notAll => exact notAll rfl
      · have isNone : referenceRule? (.string word) = .ok none := by
          rw [referenceRule?, if_neg isAll]
        rw [readReferenceRule, isNone]
        exact reports_misshapen misshapen (by simpa using isAll) (by simp)
  | object members =>
      by_cases spelled : ∃ texts, Spelled members texts
      · exact reports_readReferenceRule_of_spelled misshapen spelled.choose_spec
      · exact reports_readReferenceRule_of_not_spelled misshapen (not_exists.mp spelled)
  | null => exact reports_misshapen misshapen (by simp) (by simp)
  | bool value => exact reports_misshapen misshapen (by simp) (by simp)
  | number value => exact reports_misshapen misshapen (by simp) (by simp)
  | array items => exact reports_misshapen misshapen (by simp) (by simp)

theorem reports_referenceRules (items : List Json) :
    Reports (referenceRules 0 items) (∀ item ∈ items, LegalReferenceRule item)
      (FirstIn LegalReferenceRule
        (fun index item => ReferenceRuleFault (.badElement index item) item) items) := by
  refine reports_list (fun index item => readReferenceRule (.badElement index item) item)
    referenceRules (fun index => rfl) ?_ fun item _ index => reports_readReferenceRule _ item
  intro index item items
  rw [referenceRules, readReferenceRule]
  rcases referenceRule? item with error | (_ | rule) <;> rfl

section

variable {α : Type} {LegalRule : Json → Prop}
  {RuleFault : MappingError → Json → DocumentError → Prop} {misshapen : Json → MappingError}
  {outcome : Except DocumentError α}

theorem Reports.ofList {items : Array Json} (noRule : ¬LegalRule (.array items))
    (reports : Reports outcome (∀ item ∈ items.toList, LegalRule item)
      (FirstIn LegalRule (fun index item => RuleFault (.badElement index item) item)
        items.toList)) :
    Reports outcome (LegalRules LegalRule (.array items))
      (RulesFault LegalRule RuleFault misshapen (.array items)) := by
  refine reports.congr ?_ ?_
  · constructor
    · exact .list
    · intro legal
      cases legal with
      | list each => exact each
      | rule legal => exact absurd legal noRule
  · intro error
    constructor
    · exact .list
    · intro fault
      cases fault with
      | list first => exact first
      | rule notList => exact absurd rfl (notList items)

theorem Reports.ofRule {value : Json} (notList : ∀ items, value ≠ .array items)
    (reports : Reports outcome (LegalRule value) (RuleFault (misshapen value) value)) :
    Reports outcome (LegalRules LegalRule value)
      (RulesFault LegalRule RuleFault misshapen value) := by
  refine reports.congr ?_ ?_
  · constructor
    · exact .rule
    · intro legal
      cases legal with
      | list => exact absurd rfl (notList _)
      | rule legal => exact legal
  · intro error
    constructor
    · exact .rule notList
    · intro fault
      cases fault with
      | list => exact absurd rfl (notList _)
      | rule _ fault => exact fault

end

theorem reports_buildReference (spec : Json) :
    Reports (buildReference spec) (LegalRules LegalReferenceRule spec)
      (RulesFault LegalReferenceRule ReferenceRuleFault .noReferenceRule spec) := by
  by_cases isList : ∃ items, spec = .array items
  · rcases isList with ⟨items, rfl⟩
    exact .ofList nofun ((reports_referenceRules items.toList).map _)
  · have notList : ∀ items, spec ≠ .array items := not_exists.mp isList
    have isRead : buildReference spec = readReferenceRule (.noReferenceRule spec) spec := by
      cases spec with
      | array items => exact absurd rfl (notList items)
      | _ => rfl
    rw [isRead]
    exact .ofRule notList (reports_readReferenceRule _ spec)

/-- The value rule that a value describes, or what is wrong with it. -/
def readValueRule (misshapen : MappingError) (value : Json) : Except DocumentError ValueRule :=
  match valueRule? value with
  | none => .error (.mapping misshapen)
  | some rule => .ok rule

theorem isSome_valueRule?_iff {value : Json} :
    (valueRule? value).isSome ↔ LegalValueRule value := by
  cases value with
  | object members =>
      simp only [valueRule?, LegalValueRule, Json.object.injEq, exists_eq_left']
      rcases members.lookup "equals" with _ | equals <;>
        rcases members.lookup "replace" with _ | replace <;>
        rcases members.lookup "skip_if" with _ | skip <;> simp
  | null => simp [valueRule?, LegalValueRule]
  | bool value => simp [valueRule?, LegalValueRule]
  | number value => simp [valueRule?, LegalValueRule]
  | string text => simp [valueRule?, LegalValueRule]
  | array items => simp [valueRule?, LegalValueRule]

theorem reports_readValueRule (misshapen : MappingError) (value : Json) :
    Reports (readValueRule misshapen value) (LegalValueRule value)
      (ValueRuleFault misshapen value) := by
  unfold ValueRuleFault
  rw [← isSome_valueRule?_iff, readValueRule]
  rcases valueRule? value with _ | rule
  · exact reports_error (by simp) (by simp)
  · exact reports_ok rule rfl (by simp)

theorem reports_valueRules (items : List Json) :
    Reports (valueRules 0 items) (∀ item ∈ items, LegalValueRule item)
      (FirstIn LegalValueRule (fun index item => ValueRuleFault (.badElement index item) item)
        items) := by
  refine reports_list (fun index item => readValueRule (.badElement index item) item)
    valueRules (fun index => rfl) ?_ fun item _ index => reports_readValueRule _ item
  intro index item items
  rw [valueRules, readValueRule]
  rcases valueRule? item with _ | rule <;> rfl

theorem reports_buildValues_of_present {spec : Json} (present : spec ≠ .null) :
    Reports (buildValues spec) (LegalRules LegalValueRule spec)
      (RulesFault LegalValueRule ValueRuleFault .noValueRules spec) := by
  by_cases isList : ∃ items, spec = .array items
  · rcases isList with ⟨items, rfl⟩
    refine .ofList ?_ ((reports_valueRules items.toList).map _)
    rintro ⟨members, isObject, _⟩
    cases isObject
  · have notList : ∀ items, spec ≠ .array items := not_exists.mp isList
    have isRead : buildValues spec = (readValueRule (.noValueRules spec) spec).map .one := by
      cases spec with
      | null => exact absurd rfl present
      | array items => exact absurd rfl (notList items)
      | object members =>
          rw [buildValues, readValueRule]
          · rcases valueRule? (.object members) with _ | rule <;> rfl
          · simp
          · simp
      | _ => rfl
    rw [isRead]
    exact .ofRule notList ((reports_readValueRule _ spec).map _)

theorem reports_buildValues (spec : Json) :
    Reports (buildValues spec) (spec = .null ∨ LegalRules LegalValueRule spec)
      (fun error => spec ≠ .null ∧
        RulesFault LegalValueRule ValueRuleFault .noValueRules spec error) := by
  by_cases isNull : spec = .null
  · subst isNull
    exact reports_ok _ (Or.inl rfl) fun error fault => fault.1 rfl
  · exact (reports_buildValues_of_present isNull).congr (or_iff_right isNull).symm
      fun error => (and_iff_right isNull).symm

/-! ### Stages -/

theorem namesMode_iff {mode : Mode} {value : Json} :
    NamesMode mode value ↔ Mode.ofJson? value = some mode := by
  constructor
  · rintro (_ | _) <;> cases mode <;> rfl
  · have ofName : ∀ name, Mode.ofName? name = some mode → name = mode.name := by
      intro name names
      unfold Mode.ofName? at names
      split at names <;> cases names <;> rfl
    intro names
    unfold Mode.ofJson? at names
    split at names
    case h_1 name => exact ofName name names ▸ .word
    case h_2 name => exact ofName name names ▸ .member
    case h_3 => cases names

theorem isComposition_iff {members : List (String × Json)} {mode : Mode} {stages : List Json} :
    IsComposition members mode stages ↔
      composition? members = some (.composition mode stages) := by
  constructor
  · rintro ⟨⟨value, isCompose, names⟩, isStages⟩
    simp [composition?, isCompose, namesMode_iff.mp names, isStages]
  · intro read
    unfold composition? at read
    split at read
    case h_1 found items isMode isStages =>
      rcases Option.bind_eq_some_iff.mp isMode with ⟨value, isCompose, names⟩
      cases read
      exact ⟨⟨value, isCompose, namesMode_iff.mpr names⟩, isStages⟩
    case h_2 => cases read

theorem exists_isComposition {members : List (String × Json)} {document : Document}
    (read : composition? members = some document) :
    ∃ mode stages, IsComposition members mode stages ∧ document = .composition mode stages := by
  cases document with
  | composition mode stages => exact ⟨mode, stages, isComposition_iff.mpr read, rfl⟩
  | single mode reference values =>
      unfold composition? at read
      split at read <;> cases read

theorem describes_iff {members : List (String × Json)} {document : Document} :
    Describes members document ↔ ofMembers? members = some document := by
  constructor
  · rintro (form | ⟨noComposition, isMode⟩)
    · rw [ofMembers?, isComposition_iff.mp form, Option.some_or]
    · have none : composition? members = none := by
        rcases read : composition? members with _ | document
        · rfl
        · rcases exists_isComposition read with ⟨mode, stages, form, _⟩
          exact absurd form (noComposition mode stages)
      rw [ofMembers?, none, Option.none_or, single?]
      rcases isMode with ⟨absent, rfl⟩ | ⟨value, isValue, names⟩
      · simp [absent]
      · simp [isValue, namesMode_iff.mp names]
  · intro read
    rcases isComposition : composition? members with _ | found
    · rw [ofMembers?, isComposition, Option.none_or] at read
      rcases Option.map_eq_some_iff.mp read with ⟨mode, isMode, rfl⟩
      refine .single ?_ ?_
      · intro other stages form
        rw [isComposition_iff.mp form] at isComposition
        cases isComposition
      · rcases isValue : members.lookup "mode" with _ | value
        · rw [isValue] at isMode
          cases isMode
          exact Or.inl ⟨rfl, rfl⟩
        · rw [isValue] at isMode
          exact Or.inr ⟨value, rfl, namesMode_iff.mpr isMode⟩
    · rw [ofMembers?, isComposition, Option.some_or] at read
      cases read
      rcases exists_isComposition isComposition with ⟨mode, stages, form, rfl⟩
      exact .composition form

theorem isStage_iff (index : Nat) {mode : Mode} {stage : Json} {inner : Document} :
    IsStage mode stage inner ↔ (stageDocument mode index stage).value = .ok inner := by
  rw [stageDocument_eq_ok_iff]
  simp only [IsStage, describes_iff]

/-- What is no stage is refused for its index, whatever is wrong with it. -/
theorem stageDocument_of_forall_not_isStage {mode : Mode} {index : Nat} {stage : Json}
    (notStage : ∀ inner, ¬IsStage mode stage inner) :
    (stageDocument mode index stage).value = .error (.mapping (.badElement index stage)) := by
  rcases read : (stageDocument mode index stage).value with error | inner
  · simp only [stageDocument] at read
    split at read
    case isTrue =>
      rw [Logged.value_bind] at read
      split at read
      case h_1 document isDocument =>
        rw [Logged.value_pure] at read
        split at read
        · cases read
        · exact read ▸ rfl
      case h_2 => exact read ▸ rfl
    case isFalse => exact read ▸ rfl
  · exact absurd ((isStage_iff index).mpr read) (notStage inner)

/-- The first fault of a stage: that it is none, or that of the document it describes. -/
def StageFault (mode : Mode) (index : Nat) (stage : Json) (error : DocumentError) : Prop :=
  ((∀ inner, ¬IsStage mode stage inner) ∧ error = .mapping (.badElement index stage)) ∨
    ∃ inner, IsStage mode stage inner ∧ FirstFault inner error

theorem isStage_unique {mode : Mode} {stage : Json} {inner other : Document}
    (isStage : IsStage mode stage inner) (isOther : IsStage mode stage other) : inner = other := by
  have read := (isStage_iff 0).mp isStage
  rw [(isStage_iff 0).mp isOther] at read
  exact (Except.ok.inj read).symm

theorem firstFault_composition_iff {mode : Mode} {stages : List Json} {error : DocumentError} :
    FirstFault (.composition mode stages) error ↔
      FirstIn (LegalStage mode) (StageFault mode) stages error := by
  constructor
  · intro fault
    cases fault with
    | noStage earlier notStage => exact ⟨_, _, _, rfl, earlier, Or.inl ⟨notStage, rfl⟩⟩
    | inStage earlier isStage fault => exact ⟨_, _, _, rfl, earlier, Or.inr ⟨_, isStage, fault⟩⟩
  · rintro ⟨before, stage, after, rfl, earlier, ⟨notStage, rfl⟩ | ⟨inner, isStage, fault⟩⟩
    · exact .noStage earlier notStage
    · exact .inStage earlier isStage fault

theorem legal_composition_iff {mode : Mode} {stages : List Json} :
    Legal (.composition mode stages) ↔ ∀ stage ∈ stages, LegalStage mode stage := by
  constructor
  · intro legal stage isMember
    cases legal with
    | composition described legal =>
        rcases described stage isMember with ⟨inner, isStage⟩
        exact ⟨inner, isStage, legal stage isMember inner isStage⟩
  · intro each
    refine .composition ?_ ?_
    · intro stage isMember
      rcases each stage isMember with ⟨inner, isStage, _⟩
      exact ⟨inner, isStage⟩
    · intro stage isMember inner isStage
      rcases each stage isMember with ⟨other, isOther, legal⟩
      exact isStage_unique isOther isStage ▸ legal

theorem reports_stage {mode : Mode} {stage : Json} (index : Nat)
    (ofInner : ∀ inner, IsStage mode stage inner →
      Reports (build inner).value (Legal inner) (FirstFault inner)) :
    Reports ((stageDocument mode index stage).value.bind fun inner => (build inner).value)
      (LegalStage mode stage) (StageFault mode index stage) := by
  by_cases described : ∃ inner, IsStage mode stage inner
  · rcases described with ⟨inner, isStage⟩
    rw [(isStage_iff index).mp isStage]
    refine (ofInner inner isStage).congr ?_ ?_
    · constructor
      · exact fun legal => ⟨inner, isStage, legal⟩
      · rintro ⟨other, isOther, legal⟩
        exact isStage_unique isOther isStage ▸ legal
    · intro error
      constructor
      · exact fun fault => Or.inr ⟨inner, isStage, fault⟩
      · rintro (⟨notStage, _⟩ | ⟨other, isOther, fault⟩)
        · exact absurd isStage (notStage inner)
        · exact isStage_unique isOther isStage ▸ fault
  · have notStage : ∀ inner, ¬IsStage mode stage inner := not_exists.mp described
    rw [stageDocument_of_forall_not_isStage notStage]
    refine reports_error ?_ ?_
    · rintro ⟨inner, isStage, _⟩
      exact notStage inner isStage
    · intro error
      constructor
      · rintro (⟨_, isError⟩ | ⟨inner, isStage, _⟩)
        · exact isError
        · exact absurd isStage (notStage inner)
      · exact fun isError => Or.inl ⟨notStage, isError⟩

theorem reports_buildStages {mode : Mode} {stages : List Json}
    (ofInner : ∀ stage ∈ stages, ∀ inner, IsStage mode stage inner →
      Reports (build inner).value (Legal inner) (FirstFault inner)) :
    Reports (buildStages mode 0 stages).value (∀ stage ∈ stages, LegalStage mode stage)
      (FirstIn (LegalStage mode) (StageFault mode) stages) := by
  refine reports_list
    (fun index stage =>
      (stageDocument mode index stage).value.bind fun inner => (build inner).value)
    (fun index stages => (buildStages mode index stages).value)
    (fun index => by rw [buildStages, Logged.value_pure]) ?_
    fun stage isMember index => reports_stage index (ofInner stage isMember)
  intro index stage others
  rw [buildStages]
  rcases (stageDocument mode index stage).value with error | inner
  · rfl
  · simp only [Except.bind]
    rcases (build inner).value with error | mapping <;> rfl

theorem IsStage.stagesSize_lt {mode : Mode} {stage : Json} {inner : Document} {stages : List Json}
    (isStage : IsStage mode stage inner) (isMember : stage ∈ stages) :
    inner.stagesSize < sizeOf stages := by
  have smaller := stagesSize_stageDocument ((isStage_iff 0).mp isStage)
  have stageSmaller := List.sizeOf_lt_of_mem isMember
  omega

theorem reports_build_single (mode : Mode) (reference values : Json) :
    Reports (build (.single mode reference values)).value (Legal (.single mode reference values))
      (FirstFault (.single mode reference values)) := by
  have inTurn : (build (.single mode reference values)).value =
      (buildReference reference).bind fun rule =>
        (buildValues values).map (Mapping.ofRules mode rule) := by
    rw [build, Logged.value_pure]
    simp only [bind, Except.bind]
    rcases buildReference reference with error | rule
    · rfl
    · rcases buildValues values with error | rules <;> rfl
  rw [inTurn]
  refine ((reports_buildReference reference).andThen _ (reports_buildValues values)).congr ?_ ?_
  · constructor
    · rintro ⟨legalReference, legalValues⟩
      exact .single legalReference legalValues
    · intro legal
      cases legal with
      | single legalReference legalValues => exact ⟨legalReference, legalValues⟩
  · intro error
    constructor
    · rintro (fault | ⟨legalReference, present, fault⟩)
      · exact .reference fault
      · exact .values legalReference present fault
    · intro fault
      cases fault with
      | reference fault => exact Or.inl fault
      | values legalReference present fault => exact Or.inr ⟨legalReference, present, fault⟩

/-- Building reports the first fault. The stages of a composition describe documents with smaller
stages. -/
theorem reports_build (document : Document) :
    Reports (build document).value (Legal document) (FirstFault document) := by
  cases document with
  | single mode reference values => exact reports_build_single mode reference values
  | composition mode stages =>
      have isMap : (build (.composition mode stages)).value =
          (buildStages mode 0 stages).value.map (.compose mode) := by
        rw [build]
        simp only [Logged.value_bind, Logged.value_pure]
      rw [isMap]
      refine ((reports_buildStages ?_).map _).congr legal_composition_iff.symm
        fun error => firstFault_composition_iff.symm
      intro stage isMember inner isStage
      exact reports_build inner
termination_by document.stagesSize
decreasing_by exact isStage.stagesSize_lt isMember

/-- A document is built just if it is legal. Otherwise building it fails with its first fault, and
with nothing else; so a fault in a stage is that of the document which the stage describes, if the
stages before it are legal. -/
theorem build_reports_first_fault (document : Document) :
    ((∃ mapping, (build document).value = .ok mapping) ↔ Legal document) ∧
      (∀ error, (build document).value = .error error ↔ FirstFault document error) ∧
      ∀ mode before stage after error, (∀ other ∈ before, LegalStage mode other) →
        IsStage mode stage document → (build document).value = .error error →
          (build (.composition mode (before ++ stage :: after))).value = .error error := by
  have reports := reports_build document
  refine ⟨reports.ok_iff, reports.error_iff, ?_⟩
  intro mode before stage after error earlier isStage failed
  apply ((reports_build _).error_iff error).mpr
  exact .inStage earlier isStage ((reports.error_iff error).mp failed)

/-- A list of reference rules, the second of which is spelled by two blank expressions. -/
def blankReference : Json :=
  .array #[.string "all", .object [("path", .string ""), ("to", .string "")]]

theorem build_blankReference :
    (build (.composition .map ([.object [("ref", .string "all")]] ++
        .object [("ref", blankReference), ("values", .bool true)] :: [.null]))).value =
      .error (.path .blank) := by
  have isFirst : IsStage .map (.object [("ref", .string "all")])
      (.single .map (.string "all") .null) :=
    (isStage_iff 0).mpr rfl
  have isSecond : IsStage .map (.object [("ref", blankReference), ("values", .bool true)])
      (.single .map blankReference (.bool true)) := (isStage_iff 1).mpr rfl
  have fault : FirstFault (.single .map blankReference (.bool true)) (.path .blank) := by
    refine .reference (.list ⟨[.string "all"], _, [], rfl, ?_, ?_⟩)
    · simpa using LegalReferenceRule.all
    · exact .expression (.target rfl rfl) ⟨[], "", [""], rfl, by simp, rfl⟩
  rcases build_reports_first_fault (.single .map blankReference (.bool true)) with
    ⟨_, reportsFault, comesOut⟩
  refine comesOut .map _ _ [.null] _ ?_ isSecond ((reportsFault _).mpr fault)
  intro other isOther
  cases List.mem_singleton.mp isOther
  exact ⟨_, isFirst, .single (.rule .all) (Or.inl rfl)⟩

end Graft.Document
