import FunctionalOptions.Json.Token

/-!
# From Tokens to Trees

The tree of a token list is grown one token at a time. The arrays and objects
that are still open form a stack, innermost first, and what may come next is
one of six expectations. A token either completes the tree or leads to the next
expectation, so the whole reading is one pass down the list.

When the tokens end too early, or one comes that is not expected, the tree ends
there: the value that was due is a broken one, and every container still open
is closed by the same stop.

## Main definitions

* `Expectation`: What may come next.
* `Open`: A container that is not closed yet.
* `step`: The effect of one token.
* `grow`: The tree of a token list, with the tokens left over.
* `ofText`: The tree of a text.
-/

namespace FunctionalOptions

namespace Json

/-- What may come next. -/
inductive Expectation where
  | value
  | valueOrEnd
  | name
  | nameOrEnd
  | colon
  | commaOrEnd
deriving DecidableEq, Repr

/-- A container that is not closed yet, its contents in reverse. An object
    also holds the name whose value is being read. -/
inductive Open where
  | array (items : List Json)
  | object (members : List (Option String × Json)) (name : Option String)

/-- Take in a value: the next item, or the value of the current name. -/
def Open.put (value : Json) : Open → Open
  | .array items => .array (value :: items)
  | .object members name => .object ((name, value) :: members) name

/-- The container, ended as given. -/
def Open.close (stop : Option Stop) : Open → Json
  | .array items => .array items.reverse stop
  | .object members _ => .object members.reverse stop

/-- A value inside the containers around it, all of which end at a stop. -/
def enclose (stop : Stop) (value : Json) : List Open → Json
  | [] => value
  | o :: outer => enclose stop ((o.put value).close (some stop)) outer

/-- The tree that ends at a stop where a value was due. -/
def stopAtValue (stop : Stop) (around : List Open) : Json :=
  enclose stop (.broken stop) around

/-- The tree that ends at a stop where the innermost container was to go on.
    With no container open there is nothing to go on with, and the value that
    was due is broken. -/
def stopInside (stop : Stop) : List Open → Json
  | [] => .broken stop
  | o :: outer => enclose stop (o.close (some stop)) outer

/-- The effect of a token: the tree is complete, or reading goes on. -/
inductive Step where
  | done (tree : Json)
  | next (expecting : Expectation) (around : List Open)

/-- A value is complete and takes its place in the innermost container. -/
def settle (value : Json) : List Open → Step
  | [] => .done value
  | o :: outer => .next .commaOrEnd (o.put value :: outer)

/-- The innermost container is closed, and is complete itself. -/
def closeInnermost : List Open → Step
  | [] => .done (.broken .malformed)
  | o :: outer => settle (o.close none) outer

/-- A token where a value is due. -/
def stepValue (around : List Open) : Token → Step
  | .null => settle .null around
  | .bool b => settle (.bool b) around
  | .number literal => settle (.number literal) around
  | .string text => settle (.string text) around
  | .openArray => .next .valueOrEnd (.array [] :: around)
  | .openObject => .next .nameOrEnd (.object [] none :: around)
  | .brokenString stop => .done (stopAtValue stop around)
  | .brokenWord stop => .done (stopAtValue stop around)
  | _ => .done (stopAtValue .malformed around)

/-- A token where the name of a member is due. -/
def stepName (around : List Open) : Token → Step
  | .string name =>
    match around with
    | .object members _ :: outer => .next .colon (.object members name :: outer)
    | _ => .done (stopInside .malformed around)
  | .brokenString stop => .done (stopInside stop around)
  | _ => .done (stopInside .malformed around)

/-- The effect of one token. -/
def step (expecting : Expectation) (around : List Open) (token : Token) : Step :=
  match expecting with
  | .value => stepValue around token
  | .valueOrEnd => if token = .closeArray then closeInnermost around else stepValue around token
  | .name => stepName around token
  | .nameOrEnd => if token = .closeObject then closeInnermost around else stepName around token
  | .colon =>
    if token = .colon then .next .value around else .done (stopAtValue .malformed around)
  | .commaOrEnd =>
    match token, around with
    | .comma, .array _ :: _ => .next .value around
    | .closeArray, .array _ :: _ => closeInnermost around
    | .comma, .object _ _ :: _ => .next .name around
    | .closeObject, .object _ _ :: _ => closeInnermost around
    | _, _ => .done (stopInside .malformed around)

/-- The tree of a text that ends where something is still expected. -/
def endHere (expecting : Expectation) (around : List Open) : Json :=
  match expecting with
  | .value | .colon => stopAtValue .truncated around
  | .valueOrEnd | .name | .nameOrEnd | .commaOrEnd => stopInside .truncated around

/-- The tree of a token list, with the tokens left over once it is complete. -/
def grow (expecting : Expectation) (around : List Open) : List Token → Json × List Token
  | [] => (endHere expecting around, [])
  | token :: rest =>
    match step expecting around token with
    | .done tree => (tree, rest)
    | .next expecting around => grow expecting around rest

/-- The tree of a text, with the tokens after it. -/
def ofText (text : String) : Json × List Token :=
  grow .value [] (tokens text.toList)

end Json

end FunctionalOptions
