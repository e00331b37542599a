import FunctionalOptions.Proofs.Descriptor.Agreement

/-!
# What the Readers Take of a Stream

A reader that succeeds behind a start tag has taken exactly the element: what stands
between the start tag and the end tag that matches it, and that end tag. No reader sees
to this by itself, and the stream need not be that of a text; it is enough that its end
tags match.

That is so because a reader of elements succeeds only if the element has come to its
end, and the reader of events does what it does. If the two agree, the stream goes on
with an end tag, which can only be the one that matches.

Every turn of a loop takes an event, whatever the stream is like. So there is an outcome
on every stream, and the limit that it takes is the length of the stream.

## Main definitions

* `Pull.TakesElement`, `Pull.TakesNothing`, `Pull.TakesEvent`: What a reader takes of a
  stream if it succeeds.
* `Pull.Terminates`: A reader has an outcome on every stream.
* `Pull.ReadsElement`: A reader terminates and takes an element.

## Theorems

* `Pull.takesElement_of_agrees`: A reader takes an element if it agrees with one that
  succeeds only at the end of the element.
* `Pull.readers_take_elements`: The readers behind a start tag take the element, those
  of a tag that stands for the whole element take nothing, and all of them terminate.
-/

namespace FunctionalOptions

namespace Descriptor

open Xml (Tag Element Ending)
open Xml.Event (Balanced Nested Spans Ends Stops)

namespace Pull

/-! ## Taking -/

section Taking

variable {α : Type}

/-- Behind a start tag of the given name, the reader takes what stands inside the
    element and the end tag that matches. -/
def TakesElement (name : String) (x : Reader α) : Prop :=
  ∀ outer events value rest, Balanced (name :: outer) events →
    x events = some (.ok (value, rest)) →
      ∃ inside, Nested inside ∧ events = inside ++ .close name :: rest

/-- The reader takes no event. -/
def TakesNothing (x : Reader α) : Prop :=
  ∀ events value rest, x events = some (.ok (value, rest)) → rest = events

/-- The reader takes at least one event. -/
def TakesEvent (x : Reader α) : Prop :=
  ∀ events value rest, x events = some (.ok (value, rest)) → Advances events rest

/-- On every stream the reader has an outcome, which is the same with every limit that
    is beyond the length of the stream. -/
def Terminates (x : Nat → Reader α) : Prop :=
  ∀ events, ∃ outcome, ∀ limit, events.length + 1 < limit → x limit events = some outcome

/-- The reader terminates, and if it succeeds it takes an element of the given name. -/
structure ReadsElement (name : String) (x : Nat → Reader α) : Prop where
  terminates : Terminates x
  takes : ∀ limit, TakesElement name (x limit)

/-- The reader terminates, and if it succeeds it takes nothing. -/
structure ReadsNothing (x : Nat → Reader α) : Prop where
  terminates : Terminates x
  takes : ∀ limit, TakesNothing (x limit)

theorem Terminates.of_returns {x : Nat → Reader α} {left : Stream → α → Stream → Prop}
    (h : ∀ events, Returns (events.length < ·) x events (left events)) : Terminates x := by
  intro events
  rcases h events with ⟨outcome, hbig, -⟩
  exact ⟨outcome, fun limit hlimit => hbig limit (Nat.lt_of_succ_lt hlimit)⟩

theorem TakesEvent.of_returns {x : Nat → Reader α} (limit : Nat)
    (h : ∀ events : Stream, Returns (events.length < ·) x events fun _ => Advances events) :
    TakesEvent (x limit) :=
  fun events _ _ hx => (h events).left_of_eq hx

/-- What is read from events like elements that have come to their end is an element. -/
theorem takesElement_of_agrees {name : String} {x : Reader α}
    (h : ∀ {elements : List Element} {events tail : Stream} {ending : Ending},
      Spans elements events tail → Ends tail ending →
        (∀ closing, tail.head? = some (.close closing) → closing = name) →
          ∃ result, Agrees x result events tail.tail ∧
            ∀ value, result = .ok value → ending = .closed) :
    TakesElement name x := by
  intro outer events value rest hbalanced hx
  rcases Xml.Event.exists_spans hbalanced with ⟨elements, tail, ending, hspans, hends, htail⟩
  -- In a balanced stream the first end tag that is left is that of the innermost open element.
  have hname : ∀ closing, tail.head? = some (.close closing) → closing = name := by
    intro closing hclosing
    cases tail with
    | nil => cases hclosing
    | cons event behind =>
        obtain rfl := Option.some.inj hclosing
        rcases htail with ⟨_, heq, -⟩
        exact (List.cons.inj heq).1.symm
  -- The reader of elements has read the same, and it can only do so if the element is closed.
  rcases h hspans hends hname with ⟨result, hagrees, hclosed⟩
  obtain ⟨hresult, rfl⟩ := hagrees.of_ok hx
  have hending := hclosed value hresult
  -- So the stream goes on with an end tag, and what stands before it is what was taken.
  cases hends with
  | stopped hstops =>
      rw [hending] at hstops
      cases hstops
  | @closed closing behind =>
      obtain rfl := hname closing rfl
      refine hspans.exists_nested ?_
      rintro _ ⟨⟩

end Taking

/-! ## Readers of elements -/

section Readers

variable (name : String)

theorem skip_reads (element : String) : ReadsElement name (skip element) := by
  refine ⟨.of_returns fun _ => skip_returns element, fun limit => ?_⟩
  exact takesElement_of_agrees fun hspans hends _ =>
    ⟨_, skip_agrees hspans hends element limit, fun _ hfinish => finish_eq_ok_iff.mp hfinish⟩

/-- An element with members must not have the name of one. -/
theorem members_reads {context member : String} (hname : name ≠ member) (names : List String) :
    ReadsElement name (members context member · names) := by
  refine ⟨.of_returns fun _ => members_returns context member names, fun limit => ?_⟩
  refine takesElement_of_agrees fun hspans hends hclose =>
    ⟨_, members_agrees hspans hends ?_ limit names, fun _ hread => ?_⟩
  · -- The loop takes the end tag of a member for part of what it reads, which this one is not.
    intro closing hclosing
    rw [hclose closing hclosing]
    exact hname
  · simp only [Except.bind_eq_ok_iff, finish_eq_ok_iff] at hread
    rcases hread with ⟨_, _, _, hending, -⟩
    exact hending

theorem only_reads (element : String) (found : Option Shape) :
    ReadsElement name fun limit => only (shape limit) limit element found := by
  refine ⟨.of_returns fun _ => only_returns (shapes_return _) (Nat.lt_succ_self _) element found,
    fun limit => ?_⟩
  refine takesElement_of_agrees fun hspans hends _ =>
    ⟨_, (inside_agrees hspans).only hends limit element found limit, fun _ hread => ?_⟩
  -- With a shape found before, the reader has only the end of the element left to find.
  cases found with
  | none => exact (of_readOnly hread).1
  | some shape => exact (of_readOnly_some hread).1

theorem map_reads (found : Option Shape × Option Shape) :
    ReadsElement name fun limit => map (shape limit) limit found := by
  refine ⟨.of_returns fun _ => map_returns (shapes_return _) (Nat.lt_succ_self _) found,
    fun limit => ?_⟩
  exact takesElement_of_agrees fun hspans hends _ =>
    ⟨_, (inside_agrees hspans).map hends limit limit found.1 found.2 limit,
      fun _ hread => (of_readMap hread).1⟩

theorem params_reads (found : Signature) :
    ReadsElement name fun limit => params (shape limit) limit found := by
  refine ⟨.of_returns fun _ => params_returns (shapes_return _) (Nat.lt_succ_self _) found,
    fun limit => ?_⟩
  refine takesElement_of_agrees fun hspans hends _ =>
    ⟨_, (inside_agrees hspans).params hends limit limit found limit, fun _ hread => ?_⟩
  rw [Except.bind_eq_ok_iff] at hread
  rcases hread with ⟨signature, hread, -⟩
  exact (of_readParams hread).1

theorem shape_terminates (tag : Tag) (empty : Bool) : Terminates (shape · tag empty) := by
  intro events
  rcases shapes_return _ tag empty events (Nat.lt_succ_self _) with ⟨outcome, hbig, -⟩
  exact ⟨outcome, hbig⟩

theorem shape_reads (tag : Tag) : ReadsElement tag.name (shape · tag false) := by
  refine ⟨shape_terminates tag false, fun limit => ?_⟩
  exact takesElement_of_agrees fun hspans hends hclose =>
    ⟨_, shape_agrees hspans (inside_agrees hspans) hends hclose limit,
      fun _ hread => (fits_of_read hread).closed⟩

theorem field_reads (tag : Tag) : ReadsElement name (field · tag) := by
  refine ⟨.of_returns fun _ => field_returns tag, fun limit => ?_⟩
  exact takesElement_of_agrees fun hspans hends _ =>
    ⟨_, field_agrees hspans hends tag limit, fun _ hread => closed_of_readFieldOf hread⟩

theorem record_reads (tag : Tag) : ReadsElement name (record · tag false) := by
  refine ⟨.of_returns fun _ => record_returns tag false, fun limit => ?_⟩
  exact takesElement_of_agrees fun hspans hends _ =>
    ⟨_, record_agrees hspans hends limit, fun _ hread => closed_of_readRecordElement hread⟩

theorem records_reads (found : List Record) : ReadsElement name (records · found) := by
  refine ⟨.of_returns fun _ => records_returns found, fun limit => ?_⟩
  exact takesElement_of_agrees fun hspans hends _ =>
    ⟨_, records_agrees hspans hends limit found limit,
      fun _ hread => closed_of_recordsBehind hread⟩

/-! ## Readers of tags that stand for the whole element -/

theorem shape_empty_reads (tag : Tag) : ReadsNothing (shape · tag true) :=
  ⟨shape_terminates tag true,
    fun limit events _ _ hx => ((shape_empty tag events limit).of_ok hx).2⟩

theorem record_empty_reads (tag : Tag) : ReadsNothing (record · tag true) :=
  ⟨.of_returns fun _ => record_returns tag true,
    fun limit events _ _ hx => ((record_empty tag limit events).of_ok hx).2⟩

end Readers

/-- The readers behind a start tag take exactly the element, and those of a tag that
    stands for the whole element take nothing. Every turn of their loops takes an event,
    and all of them have an outcome on every stream. -/
theorem readers_take_elements :
    ((∀ name element, ReadsElement name (skip element)) ∧
      (∀ name context member names, name ≠ member →
        ReadsElement name (members context member · names)) ∧
      (∀ name element found,
        ReadsElement name fun limit => only (shape limit) limit element found) ∧
      (∀ name found, ReadsElement name fun limit => map (shape limit) limit found) ∧
      (∀ name found, ReadsElement name fun limit => params (shape limit) limit found) ∧
      (∀ tag : Tag, ReadsElement tag.name (shape · tag false)) ∧
      (∀ tag : Tag, ReadsElement tag.name (field · tag)) ∧
      (∀ tag : Tag, ReadsElement tag.name (record · tag false)) ∧
      ∀ name found, ReadsElement name (records · found)) ∧
    (∀ tag, ReadsNothing (shape · tag true) ∧ ReadsNothing (record · tag true)) ∧
    (∀ limit,
      (∀ element depth, TakesEvent (skipTurn element depth)) ∧
      (∀ context member names, TakesEvent (membersTurn context member names)) ∧
      (∀ element found, TakesEvent (onlyTurn (shape limit) element found)) ∧
      (∀ found, TakesEvent (mapTurn (shape limit) limit found)) ∧
      (∀ found, TakesEvent (paramsTurn (shape limit) limit found)) ∧
      (∀ record found, TakesEvent (fieldsTurn limit record found)) ∧
      ∀ found, TakesEvent (recordsTurn limit found)) ∧
    Terminates document := by
  -- The turns are left to the end, one by one; they do not depend on what the stream is like.
  refine ⟨⟨skip_reads, fun name _ _ names hname => members_reads name hname names, only_reads,
    map_reads, params_reads, shape_reads, fun tag => field_reads tag.name tag,
    fun tag => record_reads tag.name tag, records_reads⟩,
    fun tag => ⟨shape_empty_reads tag, record_empty_reads tag⟩,
    fun limit => ⟨?skip, ?members, ?only, ?map, ?params, ?fields, ?records⟩,
    .of_returns fun _ => document_returns⟩
  case skip => exact fun element depth => .of_returns limit fun _ => skipTurn_returns element depth
  case members =>
    exact fun context member names =>
      .of_returns limit fun _ => membersTurn_returns context member names
  case only =>
    exact fun element found => .of_returns limit fun _ =>
      onlyTurn_returns (shapes_return _) (Nat.lt_succ_self _) element found
  case map =>
    exact fun found => .of_returns limit fun _ =>
      mapTurn_returns (shapes_return _) (Nat.lt_succ_self _) found
  case params =>
    exact fun found => .of_returns limit fun _ =>
      paramsTurn_returns (shapes_return _) (Nat.lt_succ_self _) found
  case fields =>
    exact fun record found => .of_returns limit fun _ => fieldsTurn_returns record found
  case records => exact fun found => .of_returns limit fun _ => recordsTurn_returns found

/-- What stands behind the start tag of a package: a record with a struct, in which one
    member stands inside another. The tag of a basic type has contents that mean nothing. -/
def nestedStream : Stream :=
  [.other, .start ⟨"record", " name='R'".toList⟩,
    .start ⟨"field", " name='F'".toList⟩, .start ⟨"struct", []⟩,
    .start ⟨"member", " name='a'".toList⟩, .empty ⟨"member", " name='b'".toList⟩,
    .close "member", .close "struct", .close "field",
    .start ⟨"field", " name='G'".toList⟩, .start ⟨"basic", " name='int'".toList⟩,
    .start ⟨"note", []⟩, .close "note", .close "basic", .close "field",
    .close "record", .close "package", .other]

/-- The names of a record and of its fields. -/
def namesOf (record : Record) : String × List String :=
  (record.name, record.fields.map Field.name)

/-- The package ends at its end tag, and the record inside it does not end before. -/
theorem nestedStream_records : Balanced ["package"] nestedStream ∧
    ∃ found, records 20 [] nestedStream = some (.ok (found, [.other])) ∧
      found.map namesOf = [("R", ["F", "G"])] ∧
      ∃ inside, Nested inside ∧ nestedStream = inside ++ .close "package" :: [.other] := by
  have hbalanced : Balanced ["package"] nestedStream :=
    ⟨_, rfl, _, rfl, _, rfl, _, rfl, _, rfl, _, rfl, _, rfl, _, rfl, trivial⟩
  -- Shapes have no decidable equality, so only the names of what is read are computed.
  have hread : Option.map (Except.map fun left => (left.1.map namesOf, left.2))
      (records 20 [] nestedStream) = some (.ok ([("R", ["F", "G"])], [.other])) := by
    decide +kernel
  rcases Option.map_eq_some_iff.mp hread with ⟨outcome, houtcome, hnames⟩
  cases outcome with
  | error error => cases hnames
  | ok left =>
      rcases left with ⟨found, rest⟩
      obtain ⟨hfound, rfl⟩ := Prod.mk.inj (Except.ok.inj hnames)
      obtain ⟨⟨-, -, -, -, -, -, -, -, hrecords⟩, -⟩ := readers_take_elements
      exact ⟨hbalanced, found, houtcome, hfound,
        (hrecords "package" []).takes 20 [] _ _ _ hbalanced houtcome⟩

end Pull

end Descriptor

end FunctionalOptions
