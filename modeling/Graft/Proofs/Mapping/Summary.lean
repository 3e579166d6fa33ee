import Graft.Proofs.Mapping.History
import Graft.Proofs.Tree.Trail

/-!
# The summary of a run

A run ends with one summary, whether or not it fails. Every step of a run leaves its counts
balanced: a leaf that was visited was skipped, given up or written, unless the step failed. The
count of written leaves is the number of successful writes among what the run attempts to do to its
draft.

A step is described once, by everything that it can do to the draft, the counts and the log. What a
whole run adds to its books follows by putting its steps together.
-/

namespace Graft

/-- Whether an event is the summary of a run. -/
def Event.isSummary : Event → Bool
  | .finished _ _ => true
  | _ => false

/-- Whether there is no summary among events. -/
abbrev Quiet (events : List Event) : Prop := events.filter Event.isSummary = []

theorem Quiet.append {first second : List Event} (before : Quiet first) (after : Quiet second) :
    Quiet (first ++ second) := by
  rw [Quiet, List.filter_append, before, after, List.nil_append]

/-- How many of the visited leaves are accounted for. -/
def Tally.accounted (tally : Tally) : Nat := tally.skipped + tally.aborted + tally.written

namespace Edit

/-- Whether an edit is a write that succeeds. -/
def isWritten (draft : Draft) : Edit → Bool
  | .remove _ => false
  | .write target value => (draft.write target value).2.isOk

/-- How many writes succeed when edits are attempted one after the other. -/
def writes : List Edit → Draft → Nat
  | [], _ => 0
  | edit :: edits, draft =>
      (if edit.isWritten draft then 1 else 0) + writes edits (edit.perform draft)

theorem performAll_concat (edits : List Edit) (edit : Edit) (draft : Draft) :
    performAll (edits ++ [edit]) draft = edit.perform (performAll edits draft) :=
  performAll_append edits [edit] draft

theorem writes_append (first second : List Edit) (draft : Draft) :
    writes (first ++ second) draft =
      writes first draft + writes second (performAll first draft) := by
  induction first generalizing draft with
  | nil => simp [writes, performAll]
  | cons edit first ih =>
      rw [List.cons_append, writes, writes, ih (edit.perform draft)]
      exact (Nat.add_assoc _ _ _).symm

theorem writes_concat (edits : List Edit) (edit : Edit) (draft : Draft) :
    writes (edits ++ [edit]) draft =
      writes edits draft + if edit.isWritten (performAll edits draft) then 1 else 0 := by
  rw [writes_append, writes, writes, Nat.add_zero]

end Edit

namespace Progress

theorem toList_log_tell (progress : Progress) (events : List Event) :
    (progress.tell events).log.toList = progress.log.toList ++ events := by
  simp only [tell, Array.toList_appendList]

theorem tell_nil (progress : Progress) : progress.tell [] = progress := by
  have log : progress.log ++ ([] : List Event) = progress.log := Array.toList_inj.mp (by simp)
  simp only [tell, log]

theorem tell_tell (progress : Progress) (first second : List Event) :
    (progress.tell first).tell second = progress.tell (first ++ second) := by
  have log : progress.log ++ first ++ second = progress.log ++ (first ++ second) :=
    Array.toList_inj.mp (by simp)
  simp only [tell, log]

theorem write_of_ok {progress : Progress} {target : KeyPath} {value : Json} {next : Draft}
    (written : progress.draft.write target value = (next, .ok ())) :
    progress.write target value = .ok ⟨⟩ { progress with draft := next }.countWritten := by
  simp only [write, written]

theorem write_of_error {progress : Progress} {target : KeyPath} {value : Json} {next : Draft}
    {error : WriteError} (refused : progress.draft.write target value = (next, .error error)) :
    progress.write target value = .error (.write error) { progress with draft := next } := by
  simp only [write, refused]

end Progress

/-- What a step of a run can do: how many leaves it visits, what it attempts to do to the draft, and
what it comes to. -/
inductive Step (start : Progress) :
    (visits : Nat) → (attempts : List Edit) → StepResult → Prop where
  /-- There is no leaf any more. -/
  | passed {events : List Event} (quiet : Quiet events) :
      Step start 0 [] (.ok ⟨⟩ (start.tell events))
  /-- The leaf is sent to something that is no path. -/
  | faulted {events : List Event} (error : MappingError) (quiet : Quiet events) :
      Step start 1 [] (.error error (start.countVisited.tell events))
  /-- No rule matches the leaf. -/
  | skipped {events : List Event} (quiet : Quiet events) :
      Step start 1 [] (.ok ⟨⟩ (start.countVisited.tell events).countSkipped)
  /-- A value rule gives the leaf up. -/
  | aborted {events : List Event} (quiet : Quiet events) :
      Step start 1 [] (.ok ⟨⟩ (start.countVisited.tell events).countAborted)
  /-- The leaf is written. -/
  | written {events : List Event} {attempts : List Edit} (quiet : Quiet events)
      (once : Edit.writes attempts start.draft = 1) :
      Step start 1 attempts (.ok ⟨⟩
        { start.countVisited.tell events with
          draft := Edit.performAll attempts start.draft }.countWritten)
  /-- The leaf cannot be written. -/
  | refused {events : List Event} {attempts : List Edit} (error : MappingError)
      (quiet : Quiet events) (never : Edit.writes attempts start.draft = 0) :
      Step start 1 attempts (.error error
        { start.countVisited.tell events with draft := Edit.performAll attempts start.draft })

/-- A write that follows edits which write nothing. -/
theorem Step.of_write {progress : Progress} {events : List Event} {before : List Edit}
    {target : KeyPath} {value : Json} (quiet : Quiet events)
    (unwritten : Edit.writes before progress.draft = 0) :
    Step progress 1 (before ++ [.write target value])
      (Progress.write
        { progress.countVisited.tell events with
          draft := Edit.performAll before progress.draft } target value) := by
  have performed := Edit.performAll_concat before (.write target value) progress.draft
  have counted := Edit.writes_concat before (.write target value) progress.draft
  rw [unwritten, Nat.zero_add] at counted
  rcases outcome : (Edit.performAll before progress.draft).write target value with
    ⟨next, error | _⟩
  · simp only [Edit.perform, outcome] at performed
    simp only [Edit.isWritten, outcome] at counted
    rw [Progress.write_of_error outcome, ← performed]
    exact .refused (.write error) quiet counted
  · simp only [Edit.perform, outcome] at performed
    simp only [Edit.isWritten, outcome] at counted
    rw [Progress.write_of_ok outcome, ← performed]
    exact .written quiet counted

namespace ReferenceRule

mutual

theorem quiet_target (path : KeyPath) : (rule : ReferenceRule) → Quiet (rule.target path).log
  | .all => rfl
  | .exact _ _ => rfl
  | .custom _ => rfl
  | .firstOf candidates => by
      rw [target]
      exact quiet_firstTarget path 0 candidates

theorem quiet_firstTarget (path : KeyPath) (index : Nat) : (candidates : List ReferenceRule) →
    Quiet (firstTarget path index candidates).log
  | [] => rfl
  | candidate :: others => by
      rw [firstTarget, Logged.log_bind]
      apply (quiet_target path candidate).append
      split
      case isTrue => exact quiet_firstTarget path (index + 1) others
      case isFalse => rfl

end

end ReferenceRule

namespace RuleSet

theorem quiet_destination (rules : RuleSet) (path : KeyPath) :
    Quiet (rules.destination path).log :=
  (rules.reference.quiet_target path).append rfl

/-- What a verdict has a step attempt, after what comes before the write. -/
def Verdict.attempts (before : List Edit) : Verdict → List Edit
  | .fault _ => []
  | .decline => []
  | .place target revised => before ++ [.write target revised]

/-- A visit does one of the things that a step can do, if placing a leaf amounts to some edits that
write nothing, and then a write. -/
theorem step_settle (rules : RuleSet) (path : KeyPath) (value : Json) {before : List Edit}
    {place : KeyPath → Json → Progress → StepResult} {progress : Progress}
    (note : KeyPath → Event) (quiet : ∀ target, Quiet [note target])
    (unwritten : Edit.writes before progress.draft = 0)
    (places : ∀ target revised events,
      place target revised (progress.countVisited.tell events) =
        Progress.write
          { progress.countVisited.tell (events ++ [note target]) with
            draft := Edit.performAll before progress.draft } target revised) :
    Step progress 1 ((rules.verdict path value).attempts before)
      (rules.settle path value place progress) := by
  have quietDestination := rules.quiet_destination path
  simp only [settle, verdict]
  rcases (rules.destination path).value with error | (_ | target)
  · exact .faulted error quietDestination
  · exact .skipped quietDestination
  · rcases ValueRule.applyAll rules.values value with _ | revised
    · rw [Progress.tell_tell]
      exact .aborted (quietDestination.append rfl)
    · simp only [places, Verdict.attempts]
      exact .of_write (quietDestination.append (quiet target)) unwritten

theorem step_copyLeaf (rules : RuleSet) (leaf : KeyPath × Json) (progress : Progress) :
    Step progress 1 ((rules.verdict leaf.1 leaf.2).attempts [])
      (rules.copyLeaf leaf.1 leaf.2 progress) := by
  apply rules.step_settle leaf.1 leaf.2 (.writing leaf.1) (fun _ => rfl) rfl
  intro target revised events
  rw [Progress.tell_tell]
  rfl

theorem moveLeaf_of_leafAt?_eq_none (rules : RuleSet) {path : KeyPath} {progress : Progress}
    (nothing : leafAt? progress.draft path = none) :
    ∃ events, Quiet events ∧ rules.moveLeaf path progress = .ok ⟨⟩ (progress.tell events) := by
  revert nothing
  unfold leafAt? moveLeaf
  rcases progress.draft.isVacated path with _ | _
  · rcases progress.draft.root.get? path with _ | value
    · exact fun _ => ⟨[.gone path], rfl, rfl⟩
    · rcases isLeaf : value.isLeaf with _ | _
      · exact fun _ => ⟨[.gone path], rfl, by simp [isLeaf]⟩
      · intro nothing
        simp [isLeaf] at nothing
  · exact fun _ => ⟨[], rfl, by rw [Progress.tell_nil, if_pos rfl]⟩

theorem editsAt_eq_attempts (rules : RuleSet) {path : KeyPath} {draft : Draft} {value : Json}
    (found : leafAt? draft path = some value) :
    rules.editsAt path draft = (rules.verdict path value).attempts [.remove path] := by
  simp only [editsAt, found]
  cases rules.verdict path value <;> rfl

theorem step_moveLeaf (rules : RuleSet) (path : KeyPath) (progress : Progress) :
    ∃ visits, visits ≤ 1 ∧
      Step progress visits (rules.editsAt path progress.draft) (rules.moveLeaf path progress) := by
  rcases found : leafAt? progress.draft path with _ | value
  · rcases rules.moveLeaf_of_leafAt?_eq_none found with ⟨events, quiet, moved⟩
    have nothing : rules.editsAt path progress.draft = [] := by simp only [editsAt, found]
    rw [nothing, moved]
    exact ⟨0, Nat.zero_le _, .passed quiet⟩
  · rcases leafAt?_eq_some_iff.mp found with ⟨notVacated, leads, isLeaf⟩
    have stays : ¬progress.draft.isVacated path := by
      rwa [Draft.isVacated, Std.TreeSet.contains_iff_mem]
    rw [rules.editsAt_eq_attempts found, moveLeaf, if_neg stays]
    simp only [leads, isLeaf, if_true]
    refine ⟨1, Nat.le_refl _, ?_⟩
    apply rules.step_settle path value (.moving path) (fun _ => rfl) rfl
    intro target revised events
    rw [Progress.tell_tell]
    rfl

end RuleSet

/-- What a run that began with one progress and came to another has added to its books: the edits
that it attempted, how many leaves it visited, and how many of its steps failed. -/
structure Books (start : Progress) (visits : Nat) (attempts : List Edit) (failures : Nat)
    (final : Progress) : Prop where
  draft : final.draft = Edit.performAll attempts start.draft
  visited : final.tally.visited = start.tally.visited + visits
  accounted : final.tally.accounted + failures = start.tally.accounted + visits
  written : final.tally.written = start.tally.written + Edit.writes attempts start.draft
  quiet : ∃ events, Quiet events ∧ final.log.toList = start.log.toList ++ events

namespace Books

theorem refl (start : Progress) : Books start 0 [] 0 start where
  draft := rfl
  visited := rfl
  accounted := rfl
  written := rfl
  quiet := ⟨[], rfl, (List.append_nil _).symm⟩

theorem trans {start middle final : Progress} {firstVisits secondVisits failures : Nat}
    {first second : List Edit} (before : Books start firstVisits first 0 middle)
    (after : Books middle secondVisits second failures final) :
    Books start (firstVisits + secondVisits) (first ++ second) failures final where
  draft := by rw [after.draft, before.draft, Edit.performAll_append]
  visited := by rw [after.visited, before.visited, Nat.add_assoc]
  accounted := by
    have first := before.accounted
    have second := after.accounted
    omega
  written := by
    rw [after.written, before.written, before.draft, Edit.writes_append, Nat.add_assoc]
  quiet := by
    rcases before.quiet with ⟨firstEvents, firstQuiet, firstLog⟩
    rcases after.quiet with ⟨secondEvents, secondQuiet, secondLog⟩
    refine ⟨firstEvents ++ secondEvents, firstQuiet.append secondQuiet, ?_⟩
    rw [secondLog, firstLog, List.append_assoc]

end Books

/-- How far a step or a run has come, whether or not it failed. -/
def lastOf : StepResult → Progress
  | .ok _ final => final
  | .error _ final => final

/-- How many failures an outcome tells of. -/
def failures {α : Type} : Except MappingError α → Nat
  | .ok _ => 0
  | .error _ => 1

/-- What a step or a run adds to the books of the progress it begins with. -/
def Adds (start : Progress) (visits : Nat) (attempts : List Edit) (result : StepResult) : Prop :=
  Books start visits attempts (failures (RuleSet.outcomeOf result).2) (lastOf result)

theorem Step.adds {start : Progress} {visits : Nat} {attempts : List Edit} {result : StepResult}
    (step : Step start visits attempts result) : Adds start visits attempts result := by
  cases step with
  | @passed events quiet =>
      exact ⟨rfl, rfl, rfl, rfl, events, quiet, start.toList_log_tell events⟩
  | @faulted events error quiet =>
      exact ⟨rfl, rfl, rfl, rfl, events, quiet, start.countVisited.toList_log_tell events⟩
  | @skipped events quiet =>
      refine ⟨rfl, rfl, ?_, rfl, events, quiet, start.countVisited.toList_log_tell events⟩
      change start.tally.skipped + 1 + start.tally.aborted + start.tally.written = _
      simp only [Tally.accounted]
      omega
  | @aborted events quiet =>
      refine ⟨rfl, rfl, ?_, rfl, events, quiet, start.countVisited.toList_log_tell events⟩
      change start.tally.skipped + (start.tally.aborted + 1) + start.tally.written = _
      simp only [Tally.accounted]
      omega
  | @written events attempts quiet once =>
      refine ⟨rfl, rfl, rfl, ?_, events, quiet, start.countVisited.toList_log_tell events⟩
      rw [once]
      rfl
  | @refused events attempts error quiet never =>
      refine ⟨rfl, rfl, rfl, ?_, events, quiet, start.countVisited.toList_log_tell events⟩
      rw [never]
      rfl

namespace RuleSet

/-- What steps attempt, one after the other; a failure ends them. -/
def attempted {α : Type} (attemptsAt : α → Draft → List Edit) (step : α → Draft → Outcome) :
    List α → Draft → List Edit
  | [], _ => []
  | item :: items, draft =>
      attemptsAt item draft ++
        match step item draft with
        | (next, .ok _) => attempted attemptsAt step items next
        | (_, .error _) => []

theorem edits_eq_attempted (rules : RuleSet) (paths : List KeyPath) (draft : Draft) :
    rules.edits paths draft = attempted rules.editsAt rules.move paths draft := by
  induction paths generalizing draft with
  | nil => rfl
  | cons path others ih =>
      rw [edits, attempted]
      rcases rules.move path draft with ⟨next, error | _⟩
      · rfl
      · simp only [ih]

/-- What a map attempts to do to its draft. -/
def copyEdits (rules : RuleSet) : List (KeyPath × Json) → Draft → List Edit :=
  attempted (fun leaf _ => (rules.verdict leaf.1 leaf.2).attempts []) rules.copy

/-- A run adds to its books what its steps add, one after the other. It visits at most one leaf for
each item, and if it succeeds at least as many as the steps are bound to. -/
theorem adds_forM {α : Type} {least : Nat} (attemptsAt : α → Draft → List Edit)
    {bare : α → Draft → Outcome} {step : α → EStateM MappingError Progress PUnit}
    (each : ∀ item progress, ∃ visits, least ≤ visits ∧ visits ≤ 1 ∧
      Step progress visits (attemptsAt item progress.draft) (step item progress))
    (follows : ∀ item progress, outcomeOf (step item progress) = bare item progress.draft)
    (items : List α) (progress : Progress) :
    ∃ visits, visits ≤ items.length ∧
      (∀ final, (forM items step : EStateM MappingError Progress PUnit) progress = .ok ⟨⟩ final →
        least * items.length ≤ visits) ∧
      Adds progress visits (attempted attemptsAt bare items progress.draft)
        ((forM items step : EStateM MappingError Progress PUnit) progress) := by
  induction items generalizing progress with
  | nil => exact ⟨0, Nat.le_refl _, fun _ _ => Nat.le_refl _, .refl progress⟩
  | cons item items ih =>
      rcases each item progress with ⟨visits, atLeast, atMost, taken⟩
      have added := taken.adds
      have outcome := follows item progress
      rw [List.forM_cons]
      simp only [bind, EStateM.bind, attempted, ← outcome, List.length_cons]
      rcases result : step item progress with ⟨⟨⟩, next⟩ | ⟨error, last⟩
      · rw [result] at added
        rcases ih next with ⟨others, othersAtMost, othersAtLeast, othersAdded⟩
        refine ⟨visits + others, by omega, ?_, ?_⟩
        · intro final success
          have := othersAtLeast final success
          rw [Nat.mul_succ]
          omega
        · exact Books.trans added othersAdded
      · rw [result] at added
        refine ⟨visits, by omega, (fun final success => by cases success), ?_⟩
        simpa only [outcomeOf, List.append_nil] using added

/-- The step of a transform, as it is taken for one path after the other. -/
def moveStep (rules : RuleSet) (path : KeyPath) : EStateM MappingError Progress PUnit :=
  rules.moveLeaf path

theorem moveLeaves_eq_forM (rules : RuleSet) (paths : List KeyPath) (progress : Progress) :
    rules.moveLeaves paths progress = forM paths rules.moveStep progress := by
  induction paths generalizing progress with
  | nil => rfl
  | cons path others ih =>
      rw [List.forM_cons, moveLeaves]
      simp only [bind, EStateM.bind, moveStep]
      cases rules.moveLeaf path progress with
      | ok _ next => exact ih next
      | error error last => rfl

/-- A map visits every leaf of its source unless it fails. -/
theorem adds_copies (rules : RuleSet) (source seed : Json) :
    ∃ visits, visits ≤ source.leaves.length ∧
      (∀ final, source.visitLeaves rules.copyLeaf { draft := .ofTree seed } = .ok ⟨⟩ final →
        source.leaves.length ≤ visits) ∧
      Adds { draft := .ofTree seed } visits (rules.copyEdits source.leaves (.ofTree seed))
        (source.visitLeaves rules.copyLeaf { draft := .ofTree seed }) := by
  have each (leaf : KeyPath × Json) (progress : Progress) : ∃ visits, 1 ≤ visits ∧ visits ≤ 1 ∧
      Step progress visits ((rules.verdict leaf.1 leaf.2).attempts [])
        (rules.copyLeaf leaf.1 leaf.2 progress) :=
    ⟨1, Nat.le_refl _, Nat.le_refl _, rules.step_copyLeaf leaf progress⟩
  have run := adds_forM (fun leaf _ => (rules.verdict leaf.1 leaf.2).attempts []) each
    (fun leaf => rules.outcomeOf_copyLeaf leaf.1 leaf.2) source.leaves
    { draft := .ofTree seed }
  rw [Json.visitLeaves_eq_visitListed, Json.visitListed_eq_forM]
  simp only [Nat.one_mul] at run
  exact run

/-- A transform visits at most the leaves that its tree had. -/
theorem adds_moves (rules : RuleSet) (tree : Json) :
    ∃ visits, visits ≤ tree.leaves.length ∧
      Adds { draft := .ofTree tree } visits (rules.edits tree.leafPaths (.ofTree tree))
        (rules.moveLeaves tree.leafPaths { draft := .ofTree tree }) := by
  have each (path : KeyPath) (progress : Progress) : ∃ visits, 0 ≤ visits ∧ visits ≤ 1 ∧
      Step progress visits (rules.editsAt path progress.draft) (rules.moveStep path progress) := by
    rcases rules.step_moveLeaf path progress with ⟨visits, atMost, taken⟩
    exact ⟨visits, Nat.zero_le _, atMost, taken⟩
  rcases adds_forM rules.editsAt each rules.outcomeOf_moveLeaf tree.leafPaths
    { draft := .ofTree tree } with ⟨visits, atMost, _, added⟩
  rw [Json.leafPaths, List.length_map] at atMost
  rw [rules.edits_eq_attempted, rules.moveLeaves_eq_forM]
  exact ⟨visits, atMost, added⟩

end RuleSet

/-- A log has one summary, with the given tally. Of the leaves that it counts as visited all but the
failures were skipped, given up or written, and those written are the successful writes of a run
that attempted the given edits on a tree. -/
structure Summarizes (mode : Mode) (tally : Tally) (log : List Event) (tree : Json)
    (attempts : List Edit) (failures : Nat) : Prop where
  once : log.filter Event.isSummary = [.finished mode tally]
  balanced : tally.visited = tally.skipped + tally.aborted + tally.written + failures
  written : tally.written = Edit.writes attempts (.ofTree tree)

theorem Books.summarizes {tree : Json} {visits failures : Nat} {attempts : List Edit}
    {final : Progress} (books : Books { draft := .ofTree tree } visits attempts failures final)
    (mode : Mode) :
    Summarizes mode final.tally (final.finish mode).log tree attempts failures where
  once := by
    rcases books.quiet with ⟨events, quiet, log⟩
    simp only [Progress.finish, log, List.nil_append, List.filter_append, quiet]
    rfl
  balanced := by
    have visited := books.visited
    have accounted := books.accounted
    simp only [Tally.accounted] at visited accounted
    omega
  written := by
    have written := books.written
    simpa using written

namespace RuleSet

theorem mapOnto_of_visitLeaves (rules : RuleSet) {source seed : Json}
    (sourceContainer : source.isContainer) (seedContainer : seed.isContainer) {result : StepResult}
    (run : source.visitLeaves rules.copyLeaf { draft := .ofTree seed } = result) :
    (rules.mapOnto source seed).value =
        ((outcomeOf result).2.map fun _ => (lastOf result).draft.finish) ∧
      (rules.mapOnto source seed).log = ((lastOf result).finish .map).log := by
  simp only [mapOnto, sourceContainer, seedContainer, Bool.not_true, Bool.false_eq_true, if_false,
    run]
  cases result with
  | ok _ final => exact ⟨rfl, List.append_nil _⟩
  | error error final => exact ⟨rfl, List.append_nil _⟩

theorem transform_of_moveLeaves (rules : RuleSet) {tree : Json} (container : tree.isContainer)
    {result : StepResult}
    (run : rules.moveLeaves tree.leafPaths { draft := .ofTree tree } = result) :
    (rules.transform tree).value = ((lastOf result).draft.finish, (outcomeOf result).2) ∧
      (rules.transform tree).log = ((lastOf result).finish .transform).log := by
  simp only [transform, container, Bool.not_true, Bool.false_eq_true, if_false, run]
  cases result with
  | ok _ final => exact ⟨rfl, List.append_nil _⟩
  | error error final => exact ⟨rfl, List.append_nil _⟩

/-- A run that is not refused at once ends with one summary that adds up, whether or not the run
fails. A map that succeeds has visited as many leaves as its source has, a transform at most as many
as its tree had. What the runs give is what their attempts make of the tree. -/
theorem summary_adds_up (rules : RuleSet) :
    (∀ source seed, source.isContainer → seed.isContainer → ∃ tally,
        Summarizes .map tally (rules.mapOnto source seed).log seed
            (rules.copyEdits source.leaves (.ofTree seed))
            (failures (rules.mapOnto source seed).value) ∧
          ∀ extended, (rules.mapOnto source seed).value = .ok extended →
            tally.visited = source.leaves.length ∧
              extended = (Edit.performAll (rules.copyEdits source.leaves (.ofTree seed))
                (.ofTree seed)).finish) ∧
      ∀ tree, tree.isContainer → ∃ tally,
        Summarizes .transform tally (rules.transform tree).log tree
            (rules.edits tree.leafPaths (.ofTree tree)) (failures (rules.transform tree).value.2) ∧
          tally.visited ≤ tree.leaves.length ∧
          (rules.transform tree).value.1 =
            (Edit.performAll (rules.edits tree.leafPaths (.ofTree tree))
              (.ofTree tree)).finish := by
  refine ⟨?_, ?_⟩
  · intro source seed sourceContainer seedContainer
    rcases rules.adds_copies source seed with ⟨visits, atMost, atLeast, books⟩
    rcases run : source.visitLeaves rules.copyLeaf { draft := .ofTree seed } with
      ⟨⟨⟩, final⟩ | ⟨error, final⟩
    · rcases rules.mapOnto_of_visitLeaves sourceContainer seedContainer run with ⟨value, log⟩
      rw [run] at books
      rw [value, log]
      refine ⟨final.tally, books.summarizes .map, ?_⟩
      intro extended success
      cases success
      have visitsAll : visits = source.leaves.length := Nat.le_antisymm atMost (atLeast final run)
      refine ⟨?_, congrArg Draft.finish books.draft⟩
      rw [← visitsAll, ← Nat.zero_add visits]
      exact books.visited
    · rcases rules.mapOnto_of_visitLeaves sourceContainer seedContainer run with ⟨value, log⟩
      rw [run] at books
      rw [value, log]
      exact ⟨final.tally, books.summarizes .map, fun extended success => by cases success⟩
  · intro tree container
    rcases rules.adds_moves tree with ⟨visits, atMost, books⟩
    rcases rules.transform_of_moveLeaves container rfl with ⟨value, log⟩
    rw [value, log]
    refine ⟨_, books.summarizes .transform, ?_, congrArg Draft.finish books.draft⟩
    rw [← Nat.zero_add visits] at atMost
    exact Nat.le_trans (Nat.le_of_eq books.visited) atMost

/-- Rules that decline one leaf, give up another, move two and are at fault about the last. -/
def mixedRules : RuleSet where
  reference := .firstOf
    [.exact ["first"] ["list", "1"], .exact ["second"] ["list", "0"], .exact ["third"] ["third"],
      .custom fun path => if path = ["fifth"] then .json (.bool true) else .noMatch]
  values := [.skip .null]

/-- A tree whose leaves come to every end. -/
def mixedTree : Json :=
  .object [("first", .bool true), ("second", .bool false), ("third", .null), ("fourth", .bool true),
    ("fifth", .null)]

theorem summary_mixedTree :
    mixedTree.isContainer ∧ (Json.object []).isContainer ∧
      (∃ tally, Summarizes .map tally (mixedRules.mapOnto mixedTree (.object [])).log (.object [])
          (mixedRules.copyEdits mixedTree.leaves (.ofTree (.object []))) 1) ∧
      (mixedRules.mapOnto mixedTree (.object [])).log.filter Event.isSummary =
        [.finished .map ⟨5, 1, 1, 2⟩] ∧
      (∃ tally, Summarizes .transform tally (mixedRules.transform mixedTree).log mixedTree
            (mixedRules.edits mixedTree.leafPaths (.ofTree mixedTree)) 1 ∧
          tally.visited ≤ 5) ∧
      (mixedRules.transform mixedTree).log.filter Event.isSummary =
        [.finished .transform ⟨5, 1, 1, 2⟩] := by
  refine ⟨rfl, rfl, ?_, rfl, ?_, rfl⟩
  · rcases mixedRules.summary_adds_up.1 mixedTree (.object []) rfl rfl with ⟨tally, sums, _⟩
    exact ⟨tally, sums⟩
  · rcases mixedRules.summary_adds_up.2 mixedTree rfl with ⟨tally, sums, atMost, _⟩
    exact ⟨tally, sums, atMost⟩

end RuleSet

end Graft
