import FunctionalOptions.Descriptor.Basic
import FunctionalOptions.Json.Number

/-!
# Checking the Text of a Shape

Which fields a shape has depends on its kind, and the kind may come last. So
the text of a shape is gone through before anything in it is interpreted, and
what is wrong with the text comes before what is wrong with the fields,
wherever in the shape the two stand.

The kind is the exception. It is read as soon as it comes up, so one that no
shape has is reported before a fault of the text behind it.

Arrays and objects that are read nest at most `depthLimit` deep. What is
skipped may nest as it likes, and only has to be well-formed.

## Main definitions

* `refusal`: The failure to read a tree as something else.
* `skip`: Passing over a tree.
* `check`: Going through the text of a tree.
* `checkTagged`: Going through the text of a shape.
-/

namespace FunctionalOptions

namespace Descriptor

open Json (Failure Stop)

/-- How deep arrays and objects may nest. -/
def depthLimit : Nat := 127

/-- The failure to read a tree as something that it is not. A scalar is read
    before it is found to be of the wrong kind, so its own fault comes first. -/
def refusal : Json → Failure
  | .broken stop => stop.reading
  | .string none => .malformed
  | .number literal => if Json.inRange literal then .mismatched else .malformed
  | _ => .mismatched

/-- Pass over a tree without reading it. A stop inside closes everything around
    itself, so the end of the tree tells. -/
def skip : Json → Except Failure Unit
  | .array _ (some stop) | .object _ (some stop) | .broken stop => .error stop.skipping
  | _ => .ok ()

/-- The end of an array or object that is read. -/
def ended : Option Stop → Except Failure Unit
  | none => .ok ()
  | some stop => .error stop.reading

mutual

/-- Check that the text of a tree can be read, its containers nesting at most
    `depth` deep. -/
def check (depth : Nat) : Json → Except Failure Unit
  | .null => .ok ()
  | .bool _ => .ok ()
  | .number literal => if Json.inRange literal then .ok () else .error .malformed
  | .string none => .error .malformed
  | .string (some _) => .ok ()
  | .array items stop =>
    match depth with
    | 0 => .error .malformed
    | depth + 1 => do
      checkItems depth items
      ended stop
  | .object members stop =>
    match depth with
    | 0 => .error .malformed
    | depth + 1 => do
      checkMembers depth members
      ended stop
  | .broken stop => .error stop.reading

/-- Check the items of an array. -/
def checkItems (depth : Nat) : List Json → Except Failure Unit
  | [] => .ok ()
  | item :: rest => do
    check depth item
    checkItems depth rest

/-- Check the members of an object. -/
def checkMembers (depth : Nat) : List (Option String × Json) → Except Failure Unit
  | [] => .ok ()
  | member :: rest => do
    checkMember depth member
    checkMembers depth rest

/-- Check a member of an object. -/
def checkMember (depth : Nat) : Option String × Json → Except Failure Unit
  | (none, _) => .error .malformed
  | (some _, value) => check depth value

end

/-- Check the kind of a shape, which is read as soon as it comes up and has to
    be a word. -/
def checkKind (tree : Json) : Except Failure Unit :=
  match tree with
  | .string (some word) => if (Kind.ofWord? word).isSome then .ok () else .error .mismatched
  | tree => .error (refusal tree)

/-- Check the members of a shape. A second kind is refused where it comes up,
    a missing one at the end. -/
def checkTaggedMembers (depth : Nat) (seen : Bool) (stop : Option Stop) :
    List (Option String × Json) → Except Failure Unit
  | [] => do
    ended stop
    if seen then .ok () else .error .mismatched
  | (none, _) :: _ => .error .malformed
  | (some name, value) :: rest =>
    if name = "kind" then
      if seen then .error .mismatched
      else do
        checkKind value
        checkTaggedMembers depth true stop rest
    else do
      check depth value
      checkTaggedMembers depth seen stop rest

/-- Check the text of a shape. -/
def checkTagged (depth : Nat) (tree : Json) : Except Failure Unit :=
  match tree, depth with
  | .object _ _, 0 => .error .malformed
  | .array _ _, 0 => .error .malformed
  | .object members stop, depth + 1 => checkTaggedMembers depth false stop members
  | .array [] stop, _ + 1 => do
    ended stop
    .error .mismatched
  | .array (first :: rest) stop, depth + 1 => do
    checkKind first
    checkItems depth rest
    ended stop
  | tree, _ => .error (refusal tree)

end Descriptor

end FunctionalOptions
