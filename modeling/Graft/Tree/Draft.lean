import Graft.Tree.Store
import Std.Data.TreeMap
import Std.Data.TreeSet

/-!
# Drafts: trees that are being changed

A draft is a tree together with what has to be remembered until its changes are complete. An item
that was taken out of an array leaves a vacated slot, so that key-paths noted before do not go
astray. A later write through the slot revives it. `Draft.finish` drops the slots that are still
vacated, except that no slot before a written position of the same array is dropped: what was
written stays at the path it was written to.
-/

namespace Graft

/-- A tree that is being changed. -/
structure Draft where
  /-- The tree. -/
  root : Json
  /-- The slots whose items were taken out and that no write has revived. -/
  vacated : Std.TreeSet KeyPath := ∅
  /-- The highest position written in each array, by the array's path. -/
  written : Std.TreeMap KeyPath Nat := ∅

namespace Draft

/-- A draft of a tree, with nothing to remember yet. -/
def ofTree (root : Json) : Draft where
  root := root

/-- Whether the slot at a path was vacated and not written since. -/
def isVacated (draft : Draft) (path : KeyPath) : Bool := draft.vacated.contains path

/-- Notes a written position of an array. -/
def noteWritten (written : Std.TreeMap KeyPath Nat) (step : KeyPath × Nat) :
    Std.TreeMap KeyPath Nat :=
  written.insert step.1 (max step.2 (written.getD step.1 0))

/-- Forgets the vacated slots on the way along the keys that lead on from a location. -/
def revive (vacated : Std.TreeSet KeyPath) : (location keys : KeyPath) → Std.TreeSet KeyPath
  | _, [] => vacated
  | location, key :: rest =>
      revive (vacated.erase (location.child key)) (location.child key) rest

/-- Writes a value at a path. The draft keeps what a failed write created, and remembers only what a
successful write did: slots on the way are vacated no longer, the positions on the way are written,
and nothing is remembered of a container that was replaced. -/
def write (draft : Draft) (path : KeyPath) (value : Json) : Draft × Except WriteError Unit :=
  if path.isEmpty then (draft, .error .emptyPath)
  else
    let ⟨root, vacated, written⟩ := draft
    let (root, outcome) := Json.store vacated.contains value [] path root
    match outcome with
    | .error error => (⟨root, vacated, written⟩, .error error)
    | .ok replaced =>
        let written := (Json.arraySteps [] path root).foldl noteWritten written
        let vacated := revive vacated [] path
        if replaced then
          (⟨root, vacated.filter fun slot => !path.isAtOrAbove slot,
            written.filter fun array _ => !path.isAtOrAbove array⟩, .ok ())
        else (⟨root, vacated, written⟩, .ok ())

/-- Takes out the node at a path, if there is one. -/
def remove (draft : Draft) (path : KeyPath) : Draft × Option Json :=
  match path.splitLast? with
  | none => (draft, none)
  | some (parent, key) =>
      let ⟨root, vacated, written⟩ := draft
      let (root, removal) := Json.changeAt (Json.takeChild key) parent root
      match removal with
      | none => (⟨root, vacated, written⟩, none)
      | some ⟨value, leavesSlot⟩ =>
          (⟨root, if leavesSlot then vacated.insert path else vacated, written⟩, some value)

/-- Adds a vacated slot to the positions to be dropped from its array, unless a later position of
the array was written. -/
def noteDoomed (written : Std.TreeMap KeyPath Nat)
    (doomed : Std.TreeMap KeyPath (Std.TreeSet Nat)) (slot : KeyPath) :
    Std.TreeMap KeyPath (Std.TreeSet Nat) :=
  match slot.splitLast? with
  | none => doomed
  | some (array, key) =>
      match arrayIndex? key with
      | none => doomed
      | some position =>
          if written[array]?.any (position < ·) then doomed
          else doomed.insert array ((doomed.getD array ∅).insert position)

/-- The positions to be dropped from each array, by the array's path. -/
def doomed (draft : Draft) : Std.TreeMap KeyPath (Std.TreeSet Nat) :=
  draft.vacated.foldl (noteDoomed draft.written) ∅

/-- The finished tree: the slots that are still vacated are dropped, as far as no written value
would move. Paths are taken in descending order, so that an array is left in place until the arrays
inside it are done. -/
def finish (draft : Draft) : Json :=
  draft.doomed.foldr
    (fun array positions root => Json.modifyAt (Json.dropItems positions.contains) array root)
    draft.root

end Draft

end Graft
