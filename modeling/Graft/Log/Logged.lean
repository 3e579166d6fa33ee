import Graft.Log.Event

/-!
# Results with a log

`Logged` is a result together with the events on the way to it. Steps that follow each other append
their events in order.
-/

namespace Graft

/-- A result and the events on the way to it. -/
structure Logged (α : Type) where
  value : α
  log : List Event := []

namespace Logged

instance : Monad Logged where
  pure value := { value }
  bind before next :=
    let after := next before.value
    { value := after.value, log := before.log ++ after.log }

/-- Logs one event. -/
def event (event : Event) : Logged Unit := { value := (), log := [event] }

@[simp]
theorem value_pure {α : Type} (value : α) : (pure value : Logged α).value = value := rfl

@[simp]
theorem log_pure {α : Type} (value : α) : (pure value : Logged α).log = [] := rfl

@[simp]
theorem value_bind {α β : Type} (before : Logged α) (next : α → Logged β) :
    (before >>= next).value = (next before.value).value := rfl

@[simp]
theorem log_bind {α β : Type} (before : Logged α) (next : α → Logged β) :
    (before >>= next).log = before.log ++ (next before.value).log := rfl

end Logged

end Graft
