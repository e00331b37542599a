import FunctionalOptions.Unicode.Lowercase

/-!
# Channel Directions

Which way values may pass through a channel. Two spellings of a direction are
in use: the fixed word of the data format, and a set of names that people
write, which are told apart without regard to case.

## Main definitions

* `Direction`: The three directions.
* `Direction.word`: The fixed word.
* `Direction.ofWord?`: The direction of a fixed word.
* `Direction.ofName?`: The direction a person names.
-/

namespace FunctionalOptions

namespace Go

/-- Which way values may pass through a channel. -/
inductive Direction where
  /-- Values can only be received. -/
  | recv
  /-- Values can only be sent. -/
  | send
  /-- Values can be received and sent. -/
  | both
deriving DecidableEq, Repr

namespace Direction

/-- The fixed word for a direction. -/
def word : Direction → String
  | recv => "recv"
  | send => "send"
  | both => "both"

/-- The direction of a fixed word. -/
def ofWord? (word : String) : Option Direction :=
  if word = "recv" then some .recv
  else if word = "send" then some .send
  else if word = "both" then some .both
  else none

/-- The direction a person names: by a word, or by the keyword with its
    arrow. -/
def ofName? (name : String) : Option Direction :=
  let small := Unicode.lowercase name
  if small = "recv" ∨ small = "receive" ∨ small = "<-chan" then some .recv
  else if small = "send" ∨ small = "chan<-" then some .send
  else if small = "both" ∨ small = "bidirectional" ∨ small = "chan" then some .both
  else none

/-- Every direction is the one its word names. -/
theorem ofWord?_word (d : Direction) : ofWord? d.word = some d := by
  cases d <;> decide

end Direction

end Go

end FunctionalOptions
