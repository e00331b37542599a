/-!
# Logged Computations

Generation reports what it does as it goes: the aliases it gives, the option
functions it derives, the tag options it does not know. A computation that
reports is a value here, the list of its events beside its result, rather than
an action, so that what it reports can be compared with what it returns.

The events come first and the result second because a failing computation
still has reported everything up to its failure. `bind` therefore keeps the
events of the part that ran even when the rest is never reached, which a pair
inside an `Except` would lose.

## Main definitions

* `Level`: How much an event matters.
* `Event`: One line of the log.
* `Logged`: The events of a computation and its result.

## Theorems

* `Logged.result_bind`: The result of a sequence ignores the log.
* `Logged.events_bind`: The log of a sequence is the log of its first part
  followed by that of the part it reaches.
-/

namespace FunctionalOptions

/-- How much an event matters. -/
inductive Level where
  | warn
  | info
  | debug
deriving DecidableEq, Repr

/-- One line of the log. -/
structure Event where
  level : Level
  text : String
deriving DecidableEq, Repr

/-- A computation that may fail, with everything it reported on the way. -/
structure Logged (ε α : Type) where
  events : List Event
  result : Except ε α

namespace Logged

variable {ε ε' α β : Type}

/-- A computation that reports nothing. -/
def ofExcept (result : Except ε α) : Logged ε α :=
  ⟨[], result⟩

/-- Failure, with nothing reported. -/
def fail (error : ε) : Logged ε α :=
  ⟨[], .error error⟩

/-- Report one event. -/
def report (level : Level) (text : String) : Logged ε Unit :=
  ⟨[⟨level, text⟩], .ok ()⟩

/-- Report an event that only a reader of the details wants. -/
def debug (text : String) : Logged ε Unit :=
  report .debug text

/-- Run the second part on the result of the first. A failure of the first
    part ends the sequence and keeps its events. -/
def bind (x : Logged ε α) (f : α → Logged ε β) : Logged ε β :=
  match x.result with
  | .error error => ⟨x.events, .error error⟩
  | .ok a => ⟨x.events ++ (f a).events, (f a).result⟩

instance : Monad (Logged ε) where
  pure a := ⟨[], .ok a⟩
  bind := bind

/-- Restate the failure in the terms of a wider computation. -/
def mapError (f : ε → ε') (x : Logged ε α) : Logged ε' α :=
  ⟨x.events, x.result.mapError f⟩

@[simp] theorem result_pure (a : α) : (pure a : Logged ε α).result = .ok a := rfl

@[simp] theorem events_pure (a : α) : (pure a : Logged ε α).events = [] := rfl

@[simp] theorem result_ofExcept (r : Except ε α) : (ofExcept r).result = r := rfl

@[simp] theorem events_ofExcept (r : Except ε α) : (ofExcept r).events = [] := rfl

@[simp] theorem result_fail (e : ε) : (fail e : Logged ε α).result = .error e := rfl

@[simp] theorem events_fail (e : ε) : (fail e : Logged ε α).events = [] := rfl

@[simp] theorem result_report (l : Level) (t : String) :
    (report l t : Logged ε Unit).result = .ok () := rfl

@[simp] theorem events_report (l : Level) (t : String) :
    (report l t : Logged ε Unit).events = [⟨l, t⟩] := rfl

@[simp] theorem result_debug (t : String) :
    (debug t : Logged ε Unit).result = .ok () := rfl

@[simp] theorem events_debug (t : String) :
    (debug t : Logged ε Unit).events = [⟨.debug, t⟩] := rfl

@[simp] theorem result_mapError (f : ε → ε') (x : Logged ε α) :
    (x.mapError f).result = x.result.mapError f := rfl

@[simp] theorem events_mapError (f : ε → ε') (x : Logged ε α) :
    (x.mapError f).events = x.events := rfl

/-- The result of a sequence ignores the log. -/
@[simp] theorem result_bind (x : Logged ε α) (f : α → Logged ε β) :
    (x >>= f).result = x.result >>= fun a => (f a).result := by
  show (bind x f).result = _
  unfold bind
  cases x.result <;> rfl

/-- The log of a sequence is the log of its first part, followed by that of
    the second part when the first one succeeds. -/
@[simp] theorem events_bind (x : Logged ε α) (f : α → Logged ε β) :
    (x >>= f).events = x.events ++
      match x.result with
      | .error _ => []
      | .ok a => (f a).events := by
  show (bind x f).events = _
  unfold bind
  cases x.result with
  | error e => simp only [List.append_nil]
  | ok a => rfl

end Logged

end FunctionalOptions
