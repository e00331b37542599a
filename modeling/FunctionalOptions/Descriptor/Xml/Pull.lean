import FunctionalOptions.Descriptor.Xml.Read
import FunctionalOptions.Xml.Event

/-!
# Reading a Document from Events

The readers of a document as they work through a stream of events, none of which is
seen twice. Each reader is called behind a start tag and goes on to an end tag that
it takes for the end of its element. Whether it is, no reader checks: one that reads
what stands inside relies on the readers it calls to have taken the end tags of the
elements inside.

There are three ways of telling an end tag. Most readers call another one for every
start tag they meet, so the first end tag they see themselves is their own. What has
no contents is passed over by counting the tags that are open. Members are not read
by a call: their names are collected wherever they stand, and the end tags that bear
the name of a member are passed over.

A reader is a loop, and what it does with one event, or one element, is a turn of its
loop. Nothing in a turn says that an event is taken, so nothing says that a loop ends.
Readers are therefore given a limit on the turns of a loop and on how deep calls are
nested, and have no outcome when they reach it. A reader of shapes is needed to read
the shapes inside, which it is handed as one with a lower limit.

## Main definitions

* `Pull.Stream`, `Pull.Reader`: A stream of events, and a reader of one.
* `Pull.Turn`: What a turn of a loop leads to.
* `Pull.loop`: Turns up to the one that ends the loop.
* `Pull.skip`: The end of an element without contents.
* `Pull.members`: The names of the members inside an element.
* `Pull.only`, `Pull.map`, `Pull.params`: What stands inside a shape.
* `Pull.shape`: The shape of an element.
* `Pull.field`, `Pull.record`, `Pull.records`: The fields and the records of a package.
* `Pull.document`: The document of a stream.
-/

namespace FunctionalOptions

namespace Descriptor

open Xml (Tag)

namespace Pull

/-- The events that have not been seen. -/
abbrev Stream := List Xml.Event

/-- A reader of events: what it reads and what it leaves of the stream. It may meet a
    fault, and it may have no outcome at all. -/
abbrev Reader (α : Type) := StateT Stream (ExceptT ReadError Option) α

/-- The limit is reached. -/
def exhausted {α : Type} : Reader α :=
  fun _ => (none : Option (Except ReadError (α × Stream)))

/-- What a turn of a loop leads to: another turn, or the end of the loop. -/
inductive Turn (σ α : Type) where
  | again (state : σ)
  | done (value : α)

/-- Turns up to the one that ends the loop, with a limit on their number. -/
def loop {σ α : Type} (turn : σ → Reader (Turn σ α)) : Nat → σ → Reader α
  | 0, _ => exhausted
  | limit + 1, state => do
    match ← turn state with
    | .again state => loop turn limit state
    | .done value => return value

/-- The next event, if there is one. -/
def next? : Reader (Option Xml.Event)
  | [] => pure (none, [])
  | .fault fault :: _ => throw (.markup fault)
  | event :: rest => pure (some event, rest)

/-- The next event inside an element, which cannot be the end of the stream. -/
def next (element : String) : Reader Xml.Event := do
  match ← next? with
  | some event => return event
  | none => throw (.layout (.unterminated element))

/-- A thing in a place of which there is only one, unless the place is taken. -/
def settle {α : Type} (found : Option α) (fault : ReadError) (value : α) : Result (Option α) :=
  match found with
  | some _ => .error fault
  | none => .ok (some value)

/-! ## Elements without contents -/

/-- An event of an element without contents, given how many elements are open. They are
    counted without a bound; a count in 32 bits is the same up to two thousand million
    elements inside each other. -/
def skipTurn (element : String) (depth : Nat) : Reader (Turn Nat Unit) := do
  match ← next element with
  | .start _ => return .again (depth + 1)
  | .close _ => return if depth = 1 then .done () else .again (depth - 1)
  | _ => return .again depth

/-- Pass over an element behind its start tag. -/
def skip (element : String) (limit : Nat) : Reader Unit :=
  loop (skipTurn element) limit 1

/-- The shape of an element without contents, read from its tag. -/
def leaf (element : String) (limit : Nat) (empty : Bool) (read : Result Shape) :
    Reader Shape := do
  let shape ← read
  if empty then return shape
  skip element limit
  return shape

/-! ## Members -/

/-- A member, or an event inside one, given the names found so far. -/
def membersTurn (context member : String) (names : List String) :
    Reader (Turn (List String) (List String)) := do
  match ← next context with
  | .start tag | .empty tag =>
    if tag.name = member then return .again (names ++ [← required tag member "name"])
    else throw (.unknownElement tag.name context)
  | .close name => return if name = member then .again names else .done names
  | _ => return .again names

/-- The names of the members inside an element, behind those found so far. -/
def members (context member : String) (limit : Nat) (names : List String) :
    Reader (List String) :=
  loop (membersTurn context member) limit names

/-! ## Shapes inside -/

section Inside

variable (shape : Tag → Bool → Reader Shape)

/-- A shape among the contents of an element, given the one found so far. -/
def onlyTurn (element : String) (found : Option Shape) :
    Reader (Turn (Option Shape) Shape) := do
  match ← next element with
  | .start tag =>
    return .again (← settle found (.layout (.severalTypes element)) (← shape tag false))
  | .empty tag =>
    return .again (← settle found (.layout (.severalTypes element)) (← shape tag true))
  | .close _ =>
    match found with
    | some shape => return .done shape
    | none => throw (.layout (.noType element))
  | _ => return .again found

/-- The one shape inside an element, given the one found so far. -/
def only (limit : Nat) (element : String) (found : Option Shape) : Reader Shape :=
  loop (onlyTurn shape element) limit found

/-- The shape inside a container, which has to have contents. -/
def content (limit : Nat) (element : String) (empty : Bool) : Reader Shape :=
  if empty then throw (.layout (.noElementType element)) else only shape limit element none

/-- A key or a value, given those found so far. -/
def mapTurn (limit : Nat) (found : Option Shape × Option Shape) :
    Reader (Turn (Option Shape × Option Shape) Shape) := do
  match ← next "map" with
  | .start tag =>
    if tag.name = "key" then
      let key ← settle found.1 (.duplicate "map" "key") (← only shape limit "key" none)
      return .again (key, found.2)
    else if tag.name = "value" then
      let value ← settle found.2 (.duplicate "map" "value") (← only shape limit "value" none)
      return .again (found.1, value)
    else throw (.unknownElement tag.name "map")
  | .empty tag => throw (.layout (.childWithoutType "map" tag.name))
  | .close _ =>
    match found with
    | (some key, some value) => return .done (.map key value)
    | (none, _) => throw (.layout .noKey)
    | (_, none) => throw (.layout .noValue)
  | _ => return .again found

/-- The key and the value inside a map, given those found so far. -/
def map (limit : Nat) (found : Option Shape × Option Shape) : Reader Shape :=
  loop (mapTurn shape limit) limit found

/-- The parameters and the results of a function. -/
abbrev Signature := List (Param Shape) × List (Param Shape)

/-- A parameter or a result, given those found so far. -/
def paramsTurn (limit : Nat) (found : Signature) : Reader (Turn Signature Signature) := do
  match ← next "func" with
  | .start tag =>
    let name ← optional tag "name"
    if tag.name = "param" then
      let type ← only shape limit "param" none
      return .again (found.1 ++ [⟨name, type⟩], found.2)
    else if tag.name = "result" then
      let type ← only shape limit "result" none
      return .again (found.1, found.2 ++ [⟨name, type⟩])
    else throw (.unknownElement tag.name "func")
  | .empty tag => throw (.layout (.childWithoutType "func" tag.name))
  | .close _ => return .done found
  | _ => return .again found

/-- The parameters and the results inside a function, behind those found so far. -/
def params (limit : Nat) (found : Signature) : Reader Signature :=
  loop (paramsTurn shape limit) limit found

/-- The shape of an element, given its tag and whether that stands for the whole
    element. -/
def shapeOf (limit : Nat) (tag : Tag) (empty : Bool) : Reader Shape := do
  match Kind.ofWord? tag.name with
  | none => throw (.unknownElement tag.name "type")
  | some .basic => leaf "basic" limit empty do return .basic (← required tag "basic" "name")
  | some .named => leaf "named" limit empty (readNamed tag)
  | some .typeParam =>
    leaf "typeParam" limit empty do return .typeParam (← required tag "typeParam" "name")
  | some .unsafePointer => leaf "unsafePointer" limit empty (return .unsafePointer)
  | some .pointer => return .pointer (← content shape limit "pointer" empty)
  | some .slice => return .slice (← content shape limit "slice" empty)
  | some .array =>
    let len ← readLength tag
    return .array len (← content shape limit "array" empty)
  | some .chan =>
    let dir ← readDirection tag
    return .chan dir (← content shape limit "chan" empty)
  | some .map => if empty then throw (.layout .noKeyAndValue) else map shape limit (none, none)
  | some .func =>
    let variadic ← readVariadic tag
    if empty then return .func [] [] variadic
    let (params, results) ← params shape limit ([], [])
    return .func params results variadic
  | some .interface =>
    if empty then return .interface []
    return .interface (← members "interface" "method" limit [])
  | some .struct =>
    if empty then return .struct []
    return .struct (← members "struct" "member" limit [])

end Inside

/-- The shape of an element, with a limit on the depth of the shapes inside. -/
def shape : Nat → Tag → Bool → Reader Shape
  | 0 => fun _ _ => exhausted
  | limit + 1 => shapeOf (shape limit) limit

/-! ## Records -/

/-- A field, given its start tag. -/
def field (limit : Nat) (tag : Tag) : Reader Field := do
  let attributes ← attributesOf tag
  match attributes.lookup "name" with
  | none => throw (.missingAttribute "field" "name")
  | some name =>
    let type ← only (shape limit) limit "field" none
    return ⟨name, type, attributes.lookup "tag"⟩

/-- A field of a record, given those found so far. -/
def fieldsTurn (limit : Nat) (record : String) (found : List Field) :
    Reader (Turn (List Field) (List Field)) := do
  match ← next "record" with
  | .start tag =>
    if tag.name = "field" then return .again (found ++ [← field limit tag])
    else throw (.unknownElement tag.name "record")
  | .empty tag => throw (.layout (.fieldWithoutType tag.name record))
  | .close _ => return .done found
  | _ => return .again found

/-- A record, given its tag and whether that stands for the whole element. -/
def record (limit : Nat) (tag : Tag) (empty : Bool) : Reader Record :=
  if tag.name = "record" then do
    let name ← required tag "record" "name"
    if empty then return ⟨name, []⟩
    return ⟨name, ← loop (fieldsTurn limit name) limit []⟩
  else throw (.unknownElement tag.name "package")

/-- A record behind the others, unless one of them has its name. -/
def addRecord (records : List Record) (record : Record) : Result (List Record) :=
  if records.any (·.name == record.name) then .error (.duplicate "record" record.name)
  else .ok (records ++ [record])

/-- A record of a package, given those found so far. -/
def recordsTurn (limit : Nat) (found : List Record) :
    Reader (Turn (List Record) (List Record)) := do
  match ← next "package" with
  | .start tag => return .again (← addRecord found (← record limit tag false))
  | .empty tag => return .again (← addRecord found (← record limit tag true))
  | .close _ => return .done found
  | _ => return .again found

/-- The records inside a package, behind those found so far. -/
def records (limit : Nat) (found : List Record) : Reader (List Record) :=
  loop (recordsTurn limit) limit found

/-! ## The document -/

/-- A package, given the document found so far. -/
def documentTurn (limit : Nat) (found : Option Document) :
    Reader (Turn (Option Document) Document) := do
  match ← next? with
  | some (.start tag) =>
    if tag.name = "package" ∧ found.isNone then
      let package ← readPackageTag tag
      return .again (some ⟨package, ← records limit []⟩)
    else throw (.unknownElement tag.name "document")
  | some (.empty tag) =>
    if tag.name = "package" ∧ found.isNone then
      return .again (some ⟨← readPackageTag tag, []⟩)
    else throw (.unknownElement tag.name "document")
  | some _ => return .again found
  | none =>
    match found with
    | some document => return .done document
    | none => throw (.layout .noPackage)

/-- The document of a stream. -/
def document (limit : Nat) : Reader Document :=
  loop (documentTurn limit) limit none

end Pull

end Descriptor

end FunctionalOptions
