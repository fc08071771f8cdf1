import LuaDecl.Event

/-!
# Results with a log

A computation that reports events has a result and the list of events, oldest first. Main statement:
the events of two computations in a row are those of the first and then those of the second.
-/

namespace LuaDecl

universe u v

/-- A result and the events on the way to it, oldest first. -/
structure Logged (α : Type u) where
  value : α
  events : List Event

namespace Logged

variable {α : Type u} {β : Type v}

/-- A result without events. -/
protected def pure (value : α) : Logged α :=
  ⟨value, []⟩

/-- One computation and then the next. -/
protected def bind (x : Logged α) (f : α → Logged β) : Logged β :=
  ⟨(f x.value).value, x.events ++ (f x.value).events⟩

instance : Monad Logged where
  pure := Logged.pure
  bind := Logged.bind

/-- Reports one event. -/
def log (event : Event) : Logged Unit :=
  ⟨(), [event]⟩

/-- Reports an event if the condition holds. -/
def logIf (condition : Bool) (event : Event) : Logged Unit :=
  ⟨(), if condition then [event] else []⟩

@[simp]
theorem value_pure (a : α) : (pure a : Logged α).value = a := rfl

@[simp]
theorem events_pure (a : α) : (pure a : Logged α).events = [] := rfl

@[simp]
theorem value_bind {α β : Type u} (x : Logged α) (f : α → Logged β) :
    (x >>= f).value = (f x.value).value := rfl

@[simp]
theorem events_bind {α β : Type u} (x : Logged α) (f : α → Logged β) :
    (x >>= f).events = x.events ++ (f x.value).events := rfl

@[simp]
theorem events_log (event : Event) : (log event).events = [event] := rfl

@[simp]
theorem events_logIf (condition : Bool) (event : Event) :
    (logIf condition event).events = if condition then [event] else [] := rfl

end Logged

end LuaDecl
