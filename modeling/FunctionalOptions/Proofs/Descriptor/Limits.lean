import FunctionalOptions.Descriptor.Xml.Pull

/-!
# The Limit of the Readers

Readers of events do not need their limit. Every turn of a loop takes an event, and
a shape inside another one begins behind the start tag of that, so the length of the
stream is limit enough. That a turn takes an event is so for every one of the loops
and for one and the same reason: it begins with the next event, and what it may call
gives nothing back.

A reader is looked at here with all limits at once. There is one outcome that it has
with every limit that is big enough, and with the others it may have none, but no other.

## Main definitions

* `Pull.Advances`: At least one event has been taken.
* `Pull.Returns`: Readers have one outcome in common, and all that are big enough have it.

## Theorems

* `Pull.Returns.bind`: A sequence of readers returns if its steps do.
* `Pull.Returns.loop`: A loop returns if its turns take events.
* `Pull.shape_returns`, `Pull.records_returns`, `Pull.document_returns`: The readers
  return.
-/

namespace FunctionalOptions

namespace Descriptor

namespace Pull

open Xml (Tag)

/-! ## What is left of a stream -/

/-- At least one event has been taken from the stream, and nothing given back. -/
def Advances (events rest : Stream) : Prop :=
  ∃ taken, taken ≠ [] ∧ events = taken ++ rest

theorem advances_cons (event : Xml.Event) (rest : Stream) : Advances (event :: rest) rest :=
  ⟨[event], List.cons_ne_nil _ _, rfl⟩

theorem Advances.suffix {events rest more : Stream} (h : Advances events rest)
    (hmore : more <:+ rest) : Advances events more := by
  rcases h with ⟨taken, htaken, rfl⟩
  rcases hmore with ⟨others, rfl⟩
  exact ⟨taken ++ others, List.append_ne_nil_of_left_ne_nil htaken _,
    (List.append_assoc ..).symm⟩

theorem Advances.isSuffix {events rest : Stream} (h : Advances events rest) :
    rest <:+ events := by
  rcases h with ⟨taken, -, rfl⟩
  exact List.suffix_append _ _

theorem Advances.length_lt {events rest : Stream} (h : Advances events rest) :
    rest.length < events.length := by
  rcases h with ⟨taken, htaken, rfl⟩
  have := List.length_pos_iff.mpr htaken
  rw [List.length_append]
  omega

/-- A turn that is followed by another one has taken an event. -/
def Turn.Leaves {σ α : Type} (events : Stream) : Turn σ α → Stream → Prop
  | .again _, rest => Advances events rest
  | .done _, rest => rest <:+ events

theorem Advances.leaves {σ α : Type} {events : Stream} (turn : Turn σ α) {rest : Stream}
    (h : Advances events rest) : turn.Leaves events rest := by
  cases turn with
  | again state => exact h
  | done value => exact h.isSuffix

/-! ## Sequences -/

section Step

variable {α β : Type} {x : Reader α} {f : α → Reader β} {events rest : Stream}

theorem bind_of_none (h : x events = none) : (x >>= f) events = none := by
  show Option.bind (x events) _ = _
  rw [h]
  rfl

theorem bind_of_error {error : ReadError} (h : x events = some (.error error)) :
    (x >>= f) events = some (.error error) := by
  show Option.bind (x events) _ = _
  rw [h]
  rfl

theorem bind_of_ok {a : α} (h : x events = some (.ok (a, rest))) :
    (x >>= f) events = f a rest := by
  show Option.bind (x events) _ = _
  rw [h]
  rfl

/-- What needs no events leaves the stream as it is. -/
theorem lift_apply (result : Result α) :
    (liftM result : Reader α) events = some (result.map (·, events)) := by
  cases result with
  | error error => rfl
  | ok a => rfl

end Step

/-- The readers have an outcome in common, which all that are big enough have, and the
    others have none but that. If they read something, the rest of the stream is as
    said. -/
def Returns {ι α : Type} (big : ι → Prop) (x : ι → Reader α) (events : Stream)
    (left : α → Stream → Prop) : Prop :=
  ∃ outcome : Except ReadError (α × Stream),
    (∀ i, big i → x i events = some outcome) ∧
    (∀ i, x i events = none ∨ x i events = some outcome) ∧
    ∀ value rest, outcome = .ok (value, rest) → left value rest

namespace Returns

variable {ι κ α β σ : Type} {big : ι → Prop} {x : ι → Reader α} {events : Stream}
  {left : α → Stream → Prop}

/-- A reader that needs no limit returns. -/
theorem of_eq {outcome : Except ReadError (α × Stream)} (h : ∀ i, x i events = some outcome)
    (hleft : ∀ value rest, outcome = .ok (value, rest) → left value rest) :
    Returns big x events left :=
  ⟨outcome, fun i _ => h i, fun i => .inr (h i), hleft⟩

theorem pure (value : α) (hleft : left value events) :
    Returns big (fun _ => Pure.pure value) events left := by
  refine of_eq (fun _ => rfl) ?_
  rintro _ _ ⟨⟩
  exact hleft

theorem throw (error : ReadError) :
    Returns big (fun _ => (MonadExcept.throw error : Reader α)) events left := by
  refine of_eq (fun _ => rfl) ?_
  rintro _ _ ⟨⟩

theorem lift (result : Result α) (hleft : ∀ value, left value events) :
    Returns big (fun _ => (liftM result : Reader α)) events left := by
  refine of_eq (fun _ => lift_apply result) ?_
  intro value rest h
  cases result with
  | error error => cases h
  | ok a =>
      cases h
      exact hleft _

theorem left_of_eq {i : ι} {value : α} {rest : Stream} (h : Returns big x events left)
    (hx : x i events = some (.ok (value, rest))) : left value rest := by
  rcases h with ⟨outcome, -, hany, hleft⟩
  rcases hany i with hnone | hsome
  · rw [hx] at hnone
    cases hnone
  · exact hleft value rest (Option.some.inj (hsome.symm.trans hx))

theorem imp {left' : α → Stream → Prop} (h : Returns big x events left)
    (hleft : ∀ value rest, left value rest → left' value rest) :
    Returns big x events left' := by
  rcases h with ⟨outcome, hbig, hany, hrest⟩
  exact ⟨outcome, hbig, hany, fun value rest h => hleft value rest (hrest value rest h)⟩

/-- Some of the readers return if all do, as long as those that are to be big are. -/
theorem comp {big' : κ → Prop} (h : Returns big x events left) (f : κ → ι)
    (hbig : ∀ k, big' k → big (f k)) : Returns big' (fun k => x (f k)) events left := by
  rcases h with ⟨outcome, hsome, hany, hrest⟩
  exact ⟨outcome, fun k hk => hsome _ (hbig k hk), fun k => hany _, hrest⟩

/-- A sequence returns if its second step returns on what the first one leaves. -/
theorem bind {f : ι → α → Reader β} {left' : β → Stream → Prop} (h : Returns big x events left)
    (hf : ∀ value rest, left value rest → Returns big (f · value) rest left') :
    Returns big (fun i => x i >>= f i) events left' := by
  rcases h with ⟨outcome, hbig, hany, hleft⟩
  cases outcome with
  | error error =>
      -- The second step is never asked, and the error is that of the sequence.
      refine ⟨.error error, fun i hi => bind_of_error (hbig i hi),
        fun i => (hany i).imp bind_of_none bind_of_error, ?_⟩
      rintro _ _ ⟨⟩
  | ok result =>
      rcases result with ⟨value, rest⟩
      rcases hf value rest (hleft value rest rfl) with ⟨outcome, hbig', hany', hleft'⟩
      refine ⟨outcome, fun i hi => ?_, fun i => ?_, hleft'⟩
      · exact (bind_of_ok (hbig i hi)).trans (hbig' i hi)
      · rcases hany i with hnone | hsome
        · exact .inl (bind_of_none hnone)
        · exact (hany' i).imp (bind_of_ok hsome).trans (bind_of_ok hsome).trans

/-- A step that needs no events leaves them to what comes behind it. -/
theorem lift_bind {f : ι → α → Reader β} {left' : β → Stream → Prop} (result : Result α)
    (hf : ∀ value, Returns big (f · value) events left') :
    Returns big (fun i => (liftM result : Reader α) >>= f i) events left' := by
  have hlift : Returns big (fun _ => (liftM result : Reader α)) events
      (fun _ rest => rest = events) := .lift result fun _ => rfl
  refine hlift.bind fun value rest hrest => ?_
  rw [hrest]
  exact hf value

theorem ite {p : Prop} [Decidable p] {y : ι → Reader α} (hx : p → Returns big x events left)
    (hy : ¬p → Returns big y events left) :
    Returns big (fun i => if p then x i else y i) events left := by
  by_cases h : p
  · simp only [if_pos h]
    exact hx h
  · simp only [if_neg h]
    exact hy h

/-- Readers that have no outcome with the limit zero return if the others do. -/
theorem succ {x : Nat → κ → Reader α} {big : Nat × κ → Prop} (hzero : ∀ k, x 0 k = exhausted)
    (hbig : ∀ k, ¬big (0, k))
    (h : Returns (fun i : Nat × κ => big (i.1 + 1, i.2)) (fun i => x (i.1 + 1) i.2) events left) :
    Returns big (fun i => x i.1 i.2) events left := by
  rcases h with ⟨outcome, hsome, hany, hleft⟩
  refine ⟨outcome, ?_, ?_, hleft⟩
  · rintro ⟨limit, k⟩ hlimit
    cases limit with
    | zero => exact absurd hlimit (hbig k)
    | succ limit => exact hsome (limit, k) hlimit
  · rintro ⟨limit, k⟩
    cases limit with
    | zero => exact .inl (congrFun (hzero k) events)
    | succ limit => exact hany (limit, k)

/-- A loop returns if its turns do and those that are followed by another one take an
    event. -/
theorem loop {bound : Nat} {turn : Nat → σ → Reader (Turn σ α)}
    (h : ∀ events : Stream, events.length < bound → ∀ state,
      Returns (events.length < ·) (turn · state) events (Turn.Leaves events))
    (hlength : events.length < bound) (state : σ) :
    Returns (events.length < ·) (fun limit => Pull.loop (turn limit) limit state) events
      fun _ => (· <:+ events) := by
  -- The limit on the number of turns goes down from turn to turn, that of a turn does not.
  suffices hloop : Returns
      (fun limits : Nat × Nat => events.length < limits.1 ∧ events.length < limits.2)
      (fun limits => Pull.loop (turn limits.2) limits.1 state) events
      (fun _ => (· <:+ events)) from
    hloop.comp (fun limit => (limit, limit)) fun _ h => ⟨h, h⟩
  induction hn : events.length using Nat.strongRecOn generalizing events state with
  | ind n ih =>
      subst hn
      -- With the limit zero the loop has no outcome, and zero is not big enough.
      refine succ (x := fun count limit => Pull.loop (turn limit) count state) (fun _ => rfl)
        (fun _ hlimits => Nat.not_lt_zero _ hlimits.1) ?_
      have hturn : Returns
          (fun limits : Nat × Nat => events.length < limits.1 + 1 ∧ events.length < limits.2)
          (fun limits => turn limits.2 state) events (Turn.Leaves events) :=
        (h events hlength state).comp Prod.snd fun _ hlimits => hlimits.2
      refine bind hturn fun next rest hrest => ?_
      cases next with
      | done value => exact pure value hrest
      | again state =>
          -- An event has been taken, so one turn fewer is enough for what is left.
          have hshorter := hrest.length_lt
          have hreturns := ih rest.length hshorter (Nat.lt_trans hshorter hlength) state rfl
          refine (hreturns.imp fun _ more hmore => hmore.trans hrest.isSuffix).comp id ?_
          rintro limits ⟨hcount, hlimit⟩
          exact ⟨by simp only [id]; omega, by simp only [id]; omega⟩

/-- A loop of turns that take an event each. -/
theorem loop_of_advances {bound : Nat} {turn : Nat → σ → Reader (Turn σ α)}
    (h : ∀ events : Stream, events.length < bound → ∀ state,
      Returns (events.length < ·) (turn · state) events fun _ => Advances events)
    (hlength : events.length < bound) (state : σ) :
    Returns (events.length < ·) (fun limit => Pull.loop (turn limit) limit state) events
      fun _ => (· <:+ events) := by
  refine loop (fun events hlength state => ?_) hlength state
  exact (h events hlength state).imp fun turn _ hrest => hrest.leaves turn

/-- What is read with a limit that is big enough for a stream can be read with it behind a
    part of the stream. -/
theorem behind {f : Nat → Nat} {x : Nat → Reader α} {rest : Stream}
    (h : Returns (f rest.length < ·) x rest fun _ => (· <:+ rest))
    (hbound : f rest.length ≤ events.length) (hrest : Advances events rest) :
    Returns (events.length < ·) x rest fun _ => Advances events := by
  have hadvances : Returns (f rest.length < ·) x rest fun _ => Advances events :=
    h.imp fun _ _ hmore => hrest.suffix hmore
  exact hadvances.comp id fun _ hlimit => Nat.lt_of_le_of_lt hbound hlimit

end Returns

/-! ## The readers -/

section Readers

variable {ι : Type} {big : ι → Prop} {events : Stream}

/-- An event is taken unless the stream has come to its end. -/
theorem next?_returns : Returns big (fun _ => next?) events fun event rest =>
    rest <:+ events ∧ ∀ known, event = some known → Advances events rest := by
  cases events with
  | nil =>
      refine .of_eq (fun _ => rfl) ?_
      rintro _ _ ⟨⟩
      exact ⟨List.suffix_rfl, by rintro _ ⟨⟩⟩
  | cons event rest =>
      have hrest := advances_cons event rest
      cases event with
      | fault cause => exact .of_eq (fun _ => rfl) (by rintro _ _ ⟨⟩)
      | _ =>
          refine .of_eq (fun _ => rfl) ?_
          rintro _ _ ⟨⟩
          exact ⟨hrest.isSuffix, fun _ _ => hrest⟩

theorem next_returns (element : String) :
    Returns big (fun _ => next element) events fun _ => Advances events := by
  refine next?_returns.bind fun event rest hrest => ?_
  cases event with
  | none => exact .throw _
  | some event => exact .pure event (hrest.2 event rfl)

theorem skipTurn_returns (element : String) (depth : Nat) :
    Returns big (fun _ => skipTurn element depth) events fun _ => Advances events := by
  refine .bind (next_returns element) fun event rest hrest => ?_
  cases event with
  | _ => exact .pure _ hrest

theorem skip_returns (element : String) :
    Returns (events.length < ·) (skip element) events fun _ => (· <:+ events) :=
  .loop_of_advances (fun _ _ depth => skipTurn_returns element depth) (Nat.lt_succ_self _) 1

theorem leaf_returns (element : String) (empty : Bool) (read : Result Shape) :
    Returns (events.length < ·) (leaf element · empty read) events
      fun _ => (· <:+ events) := by
  refine .lift_bind read fun shape => .ite (fun _ => ?_) fun _ => ?_
  · exact .pure shape List.suffix_rfl
  · -- What stands inside a leaf is skipped, whatever it is.
    refine (skip_returns element).bind fun _ rest hrest => ?_
    exact .pure shape hrest

theorem membersTurn_returns (context member : String) (names : List String) :
    Returns big (fun _ => membersTurn context member names) events fun _ => Advances events := by
  refine .bind (next_returns context) fun event rest hrest => ?_
  have hmember (tag : Tag) : Returns big (fun _ => if tag.name = member then do
        let name ← required tag member "name"
        return .again (names ++ [name])
      else throw (.unknownElement tag.name context) : ι → Reader (Turn _ (List String)))
      rest fun _ => Advances events := by
    refine .ite (fun _ => ?_) fun _ => .throw _
    exact .lift_bind _ fun _ => .pure _ hrest
  cases event with
  | start tag => exact hmember tag
  | empty tag => exact hmember tag
  | _ => exact .pure _ hrest

theorem members_returns (context member : String) (names : List String) :
    Returns (events.length < ·) (members context member · names) events
      fun _ => (· <:+ events) :=
  .loop_of_advances (fun _ _ names => membersTurn_returns context member names)
    (Nat.lt_succ_self _) names

/-! ### Shapes -/

/-- The shapes in streams that are shorter than the bound are read, with a limit that is
    greater than the length by two. -/
def ShapesReturn (bound : Nat) : Prop :=
  ∀ tag empty (events : Stream), events.length < bound →
    Returns (events.length + 1 < ·) (shape · tag empty) events fun _ => (· <:+ events)

section Inside

variable {bound : Nat} (hshape : ShapesReturn bound) (hlength : events.length < bound + 1)
include hshape hlength

theorem onlyTurn_returns (element : String) (found : Option Shape) :
    Returns (events.length < ·) (fun limit => onlyTurn (shape limit) element found) events
      fun _ => Advances events := by
  refine .bind (next_returns element) fun event rest hrest => ?_
  have hshorter := hrest.length_lt
  have hinside (tag : Tag) (empty : Bool) : Returns (events.length < ·)
      (fun limit => do
        let type ← shape limit tag empty
        let found ← settle found (.layout (.severalTypes element)) type
        return .again found : Nat → Reader (Turn _ Shape)) rest fun _ => Advances events := by
    -- The start tag has been taken, and so the limit is great enough for the shape behind it.
    have htype := (hshape tag empty rest (by omega)).behind (by omega) hrest
    refine htype.bind fun type more hmore => ?_
    exact .lift_bind _ fun _ => .pure _ hmore
  cases event with
  | start tag => exact hinside tag false
  | empty tag => exact hinside tag true
  | close name =>
      cases found with
      | none => exact .throw _
      | some shape => exact .pure _ hrest
  | _ => exact .pure _ hrest

theorem only_returns (element : String) (found : Option Shape) :
    Returns (events.length < ·) (fun limit => only (shape limit) limit element found) events
      fun _ => (· <:+ events) :=
  .loop_of_advances (fun _ hlength found => onlyTurn_returns hshape hlength element found)
    hlength found

theorem content_returns (element : String) (empty : Bool) :
    Returns (events.length < ·) (fun limit => content (shape limit) limit element empty) events
      fun _ => (· <:+ events) :=
  .ite (fun _ => .throw _) fun _ => only_returns hshape hlength element none

/-- What stands inside an element behind its start tag is read as the one shape. -/
theorem inside_returns {rest : Stream} (hrest : Advances events rest) (element : String) :
    Returns (events.length < ·) (fun limit => only (shape limit) limit element none) rest
      fun _ => Advances events := by
  have hshorter := hrest.length_lt
  exact (only_returns hshape (by omega) element none).behind (f := id) (Nat.le_of_lt hshorter)
    hrest

theorem mapTurn_returns (found : Option Shape × Option Shape) :
    Returns (events.length < ·) (fun limit => mapTurn (shape limit) limit found) events
      fun _ => Advances events := by
  refine .bind (next_returns "map") fun event rest hrest => ?_
  have hinside := inside_returns hshape hlength hrest
  cases event with
  | start tag =>
      refine .ite (fun _ => ?_) fun _ => .ite (fun _ => ?_) fun _ => .throw _
      · refine (hinside "key").bind fun key more hmore => ?_
        exact .lift_bind _ fun _ => .pure _ hmore
      · refine (hinside "value").bind fun value more hmore => ?_
        exact .lift_bind _ fun _ => .pure _ hmore
  | empty tag => exact .throw _
  | close name =>
      -- The end of the map is an error as long as one of the two is missing.
      rcases found with ⟨_ | key, _ | value⟩
      · exact .throw _
      · exact .throw _
      · exact .throw _
      · exact .pure _ hrest
  | _ => exact .pure _ hrest

theorem map_returns (found : Option Shape × Option Shape) :
    Returns (events.length < ·) (fun limit => map (shape limit) limit found) events
      fun _ => (· <:+ events) :=
  .loop_of_advances (fun _ hlength found => mapTurn_returns hshape hlength found) hlength found

theorem paramsTurn_returns (found : Signature) :
    Returns (events.length < ·) (fun limit => paramsTurn (shape limit) limit found) events
      fun _ => Advances events := by
  refine .bind (next_returns "func") fun event rest hrest => ?_
  have hinside := inside_returns hshape hlength hrest
  cases event with
  | start tag =>
      -- The name is read off the tag and takes no events.
      refine .lift_bind _ fun name => ?_
      refine .ite (fun _ => ?_) fun _ => .ite (fun _ => ?_) fun _ => .throw _
      · refine (hinside "param").bind fun type more hmore => ?_
        exact .pure _ hmore
      · refine (hinside "result").bind fun type more hmore => ?_
        exact .pure _ hmore
  | empty tag => exact .throw _
  | _ => exact .pure _ hrest

theorem params_returns (found : Signature) :
    Returns (events.length < ·) (fun limit => params (shape limit) limit found) events
      fun _ => (· <:+ events) :=
  .loop_of_advances (fun _ hlength found => paramsTurn_returns hshape hlength found) hlength
    found

/-- A shape is read if those inside are. -/
theorem shapeOf_returns (tag : Tag) (empty : Bool) :
    Returns (events.length < ·) (fun limit => shapeOf (shape limit) limit tag empty) events
      fun _ => (· <:+ events) := by
  have hcontent (element : String) (wrap : Shape → Shape) : Returns (events.length < ·)
      (fun limit => do return wrap (← content (shape limit) limit element empty)) events
      fun _ => (· <:+ events) := by
    refine (content_returns hshape hlength element empty).bind fun type rest hrest => ?_
    exact .pure (wrap type) hrest
  have hmembers (context member : String) (wrap : List String → Shape) :
      Returns (events.length < ·) (fun limit =>
        if empty then return wrap [] else return wrap (← members context member limit []))
      events fun _ => (· <:+ events) := by
    refine .ite (fun _ => .pure (wrap []) List.suffix_rfl) fun _ => ?_
    refine (members_returns context member []).bind fun names rest hrest => ?_
    exact .pure (wrap names) hrest
  unfold shapeOf
  cases Kind.ofWord? tag.name with
  | none => exact .throw _
  | some kind =>
      cases kind with
      | basic => exact leaf_returns "basic" empty _
      | named => exact leaf_returns "named" empty _
      | typeParam => exact leaf_returns "typeParam" empty _
      | unsafePointer => exact leaf_returns "unsafePointer" empty _
      | pointer => exact hcontent "pointer" .pointer
      | slice => exact hcontent "slice" .slice
      | array => exact .lift_bind _ fun len => hcontent "array" (.array len)
      | chan => exact .lift_bind _ fun dir => hcontent "chan" (.chan dir)
      | map => exact .ite (fun _ => .throw _) fun _ => map_returns hshape hlength _
      | func =>
          refine .lift_bind _ fun variadic => .ite (fun _ => ?_) fun _ => ?_
          · exact .pure _ List.suffix_rfl
          · refine (params_returns hshape hlength _).bind fun signature rest hrest => ?_
            exact .pure _ hrest
      | interface => exact hmembers "interface" "method" .interface
      | struct => exact hmembers "struct" "member" .struct

end Inside

/-- Shapes are read in streams of every length. -/
theorem shapes_return (bound : Nat) : ShapesReturn bound := by
  induction bound with
  | zero => exact fun _ _ events hlength => absurd hlength (Nat.not_lt_zero _)
  | succ bound ih =>
      intro tag empty events hlength
      -- The shapes inside are read with a limit that is lower by one.
      have hinside := (shapeOf_returns ih hlength tag empty).comp Prod.fst
        fun (limits : Nat × Unit) (hlimit : events.length + 1 < limits.1 + 1) =>
          Nat.lt_of_succ_lt_succ hlimit
      have hshape : Returns (fun limits : Nat × Unit => events.length + 1 < limits.1)
          (fun limits => shape limits.1 tag empty) events fun _ => (· <:+ events) :=
        .succ (x := fun limit _ => shape limit tag empty) (fun _ => rfl)
          (fun _ => Nat.not_lt_zero _) hinside
      exact hshape.comp (fun limit => (limit, ())) fun _ hlimit => hlimit

/-! ### Records -/

theorem field_returns (tag : Tag) :
    Returns (events.length < ·) (field · tag) events fun _ => (· <:+ events) := by
  refine .lift_bind _ fun attributes => ?_
  cases attributes.lookup "name" with
  | none => exact .throw _
  | some name =>
      have honly := only_returns (shapes_return _) (Nat.lt_succ_self events.length) "field" none
      refine honly.bind fun type rest hrest => ?_
      exact .pure _ hrest

theorem fieldsTurn_returns (record : String) (found : List Field) :
    Returns (events.length < ·) (fieldsTurn · record found) events
      fun _ => Advances events := by
  refine .bind (next_returns "record") fun event rest hrest => ?_
  cases event with
  | start tag =>
      refine .ite (fun _ => ?_) fun _ => .throw _
      have hfield := (field_returns tag).behind (f := id) (Nat.le_of_lt hrest.length_lt) hrest
      refine hfield.bind fun field more hmore => ?_
      exact .pure _ hmore
  | empty tag => exact .throw _
  | _ => exact .pure _ hrest

theorem fields_returns (record : String) (found : List Field) :
    Returns (events.length < ·) (fun limit => loop (fieldsTurn limit record) limit found) events
      fun _ => (· <:+ events) :=
  .loop_of_advances (fun _ _ found => fieldsTurn_returns record found) (Nat.lt_succ_self _) found

theorem record_returns (tag : Tag) (empty : Bool) :
    Returns (events.length < ·) (record · tag empty) events fun _ => (· <:+ events) := by
  refine .ite (fun _ => ?_) fun _ => .throw _
  -- The name comes from the tag, so no event is taken before the fields are read.
  refine .lift_bind _ fun name => .ite (fun _ => ?_) fun _ => ?_
  · exact .pure _ List.suffix_rfl
  · refine (fields_returns name []).bind fun fields rest hrest => ?_
    exact .pure _ hrest

theorem recordsTurn_returns (found : List Record) :
    Returns (events.length < ·) (recordsTurn · found) events fun _ => Advances events := by
  refine .bind (next_returns "package") fun event rest hrest => ?_
  have hrecord (tag : Tag) (empty : Bool) : Returns (events.length < ·)
      (fun limit => do
        let record ← record limit tag empty
        let found ← addRecord found record
        return .again found : Nat → Reader (Turn _ (List Record))) rest
      fun _ => Advances events := by
    have hread := (record_returns tag empty).behind (f := id)
      (Nat.le_of_lt hrest.length_lt) hrest
    refine hread.bind fun record more hmore => ?_
    -- A second record of the name is refused, but without a look at the stream.
    exact .lift_bind _ fun _ => .pure _ hmore
  cases event with
  | start tag => exact hrecord tag false
  | empty tag => exact hrecord tag true
  | _ => exact .pure _ hrest

theorem records_returns (found : List Record) :
    Returns (events.length < ·) (records · found) events fun _ => (· <:+ events) :=
  .loop_of_advances (fun _ _ found => recordsTurn_returns found) (Nat.lt_succ_self _) found

theorem documentTurn_returns (found : Option Document) :
    Returns (events.length < ·) (documentTurn · found) events (Turn.Leaves events) := by
  refine next?_returns.bind fun event rest hnext => ?_
  cases event with
  | none =>
      -- This turn is the last one and takes nothing, which is why it need not advance.
      cases found with
      | none => exact .throw _
      | some document => exact .pure _ hnext.1
  | some event =>
      have hrest := hnext.2 event rfl
      cases event with
      | start tag =>
          refine .ite (fun _ => .lift_bind _ fun package => ?_) fun _ => .throw _
          have hrecords := (records_returns []).behind (f := id)
            (Nat.le_of_lt hrest.length_lt) hrest
          refine hrecords.bind fun records more hmore => ?_
          exact .pure _ hmore
      | empty tag =>
          refine .ite (fun _ => ?_) fun _ => .throw _
          exact .lift_bind _ fun _ => .pure _ hrest
      | _ => exact .pure _ hrest

theorem document_returns :
    Returns (events.length < ·) document events fun _ => (· <:+ events) :=
  .loop (fun _ _ found => documentTurn_returns found) (Nat.lt_succ_self _) none

end Readers

end Pull

end Descriptor

end FunctionalOptions
