import FunctionalOptions.Proofs.Descriptor.AcceptedShape
import FunctionalOptions.Proofs.Descriptor.Limits
import FunctionalOptions.Proofs.Xml.Events

/-!
# Shapes from Events and from Elements

A reader of events that has an outcome comes to the same result as the reader of the
elements that the events make up, and it leaves the stream behind the end of the
innermost open element. Neither is clear from a reader alone. Each goes on to the first
end tag that it sees, or to the first of a certain kind, and whether that is the right
one depends on what was taken before.

The argument goes along the elements, and for each way of telling an end tag there is
a reason why it works. What is passed over is counted, so the elements inside are
passed over at a greater depth. The end tag of a member bears the name of a member,
which the element around all members does not. The other readers call one another, so
they are treated together: what stands inside an element is read as the elements are,
and so is what follows it, provided that the element has come to its end. If it has
not, both have failed with the same fault.

## Main definitions

* `Pull.Agrees`: An outcome, if there is one, is the given result with the given rest.
* `Pull.InsideAgrees`: The readers of what stands inside an element agree.

## Theorems

* `Pull.skip_agrees`, `Pull.members_agrees`: What is left of an element is passed over,
  and members are collected, as far as the element goes.
* `Pull.inside_agrees`: What stands inside an element is read as its elements are.
* `Pull.shape_agrees`: So are shapes.
-/

namespace FunctionalOptions

namespace Descriptor

open Xml (Tag Element Ending)
open Xml.Event (Spans Ends Stops)

/-- An element that stands for a shape has come to its end. -/
theorem Fits.closed {members : String → List Element → List String → Prop} {tag : Tag}
    {children : List Element} {ending : Ending} {shape : Shape}
    (h : Fits members (.node tag children ending) shape) : ending = .closed := by
  cases h with
  | pointer hwraps => cases hwraps; rfl
  | slice hwraps => cases hwraps; rfl
  | array hwraps => cases hwraps; rfl
  | chan hwraps => cases hwraps; rfl
  | basic hholds => cases hholds; rfl
  | named hholds => cases hholds; rfl
  | typeParam hholds => cases hholds; rfl
  | unsafePointer hholds => cases hholds; rfl
  | map hholds => cases hholds; rfl
  | func hholds => cases hholds; rfl
  | interface hholds => cases hholds; rfl
  | struct hholds => cases hholds; rfl

namespace Pull

/-- If the reader has an outcome, it is the given result with the given rest of the
    stream. -/
def Agrees {α : Type} (x : Reader α) (result : Result α) (events rest : Stream) : Prop :=
  ∀ outcome, x events = some outcome → outcome = result.map (·, rest)

namespace Agrees

variable {α β : Type} {x : Reader α} {result : Result α} {events rest more : Stream}

theorem of_eq (h : x events = some (result.map (·, rest))) : Agrees x result events rest :=
  fun _ houtcome => Option.some.inj (houtcome.symm.trans h)

theorem of_ok {value : α} (h : Agrees x result events rest)
    (hx : x events = some (.ok (value, more))) : result = .ok value ∧ more = rest := by
  have houtcome := h _ hx
  cases result with
  | error error => cases houtcome
  | ok a =>
      cases houtcome
      exact ⟨rfl, rfl⟩

theorem pure (value : α) : Agrees (Pure.pure value) (.ok value) events events :=
  .of_eq rfl

theorem throw (error : ReadError) :
    Agrees (MonadExcept.throw error : Reader α) (.error error) events rest :=
  .of_eq rfl

/-- A sequence comes to what a sequence of results does. -/
theorem bind {f : α → Reader β} {g : α → Result β} (h : Agrees x result events rest)
    (hf : ∀ value, result = .ok value → Agrees (f value) (g value) rest more) :
    Agrees (x >>= f) (result >>= g) events more := by
  intro outcome houtcome
  -- Without an outcome of the first step there is none of the sequence, and nothing to show.
  cases hx : x events with
  | none =>
      rw [bind_of_none hx] at houtcome
      cases houtcome
  | some first =>
      have hfirst := h first hx
      cases hresult : result with
      | error error =>
          rw [hfirst, hresult] at hx
          exact Option.some.inj (houtcome.symm.trans (bind_of_error hx))
      | ok value =>
          rw [hfirst, hresult] at hx
          exact hf value hresult outcome ((bind_of_ok hx).symm.trans houtcome)

theorem lift_bind {f : α → Reader β} {g : α → Result β} (result : Result α)
    (hf : ∀ value, Agrees (f value) (g value) events more) :
    Agrees ((liftM result : Reader α) >>= f) (result >>= g) events more :=
  bind (.of_eq (lift_apply result)) fun value _ => hf value

theorem ite {p : Prop} [Decidable p] {y : Reader α} {other : Result α}
    (hx : p → Agrees x result events rest) (hy : ¬p → Agrees y other events rest) :
    Agrees (if p then x else y) (if p then result else other) events rest := by
  split
  · next h => exact hx h
  · next h => exact hy h

theorem assoc {γ : Type} {f : α → Reader β} {g : β → Reader γ} {result : Result γ}
    (h : Agrees (x >>= fun a => f a >>= g) result events rest) :
    Agrees (x >>= f >>= g) result events rest := by
  rw [bind_assoc]
  exact h

theorem ite_bind {p : Prop} [Decidable p] {y : Reader α} {g : α → Reader β}
    {result other : Result β} (hx : p → Agrees (x >>= g) result events rest)
    (hy : ¬p → Agrees (y >>= g) other events rest) :
    Agrees ((if p then x else y) >>= g) (if p then result else other) events rest := by
  split
  · next h => exact hx h
  · next h => exact hy h

/-- A loop that agrees after its first turn agrees. -/
theorem loop {σ α : Type} {turn : σ → Reader (Turn σ α)} {state : σ} {result : Result α}
    (h : ∀ count, Agrees (do
      match ← turn state with
      | .again state => Pull.loop turn count state
      | .done value => return value) result events rest)
    (count : Nat) : Agrees (Pull.loop turn count state) result events rest := by
  cases count with
  | zero => rintro _ ⟨⟩
  | succ count => exact h count

end Agrees

section Next

variable {α β : Type} {element : String} {f : Xml.Event → Reader α} {g : α → Reader β}
  {result : Result β} {rest more : Stream}

theorem agrees_start {tag : Tag} (h : Agrees (f (.start tag) >>= g) result rest more) :
    Agrees (next element >>= f >>= g) result (.start tag :: rest) more :=
  h

theorem agrees_empty {tag : Tag} (h : Agrees (f (.empty tag) >>= g) result rest more) :
    Agrees (next element >>= f >>= g) result (.empty tag :: rest) more :=
  h

theorem agrees_close {name : String} (h : Agrees (f (.close name) >>= g) result rest more) :
    Agrees (next element >>= f >>= g) result (.close name :: rest) more :=
  h

theorem agrees_outer_start {f : Option Xml.Event → Reader α} {tag : Tag}
    (h : Agrees (f (some (.start tag)) >>= g) result rest more) :
    Agrees (next? >>= f >>= g) result (.start tag :: rest) more :=
  h

theorem agrees_outer_empty {f : Option Xml.Event → Reader α} {tag : Tag}
    (h : Agrees (f (some (.empty tag)) >>= g) result rest more) :
    Agrees (next? >>= f >>= g) result (.empty tag :: rest) more :=
  h

theorem agrees_other (h : Agrees (f .other >>= g) result rest more) :
    Agrees (next element >>= f >>= g) result (.other :: rest) more :=
  h

/-- Where the stream breaks off, an element does not come to its end. -/
theorem agrees_stop {tail : Stream} {ending : Ending} (h : Stops tail ending)
    (k : Unit → Result β) :
    Agrees (next element >>= f >>= g) (finish element ending >>= k) tail more := by
  cases h with
  | text => exact .of_eq rfl
  | fault => exact .of_eq rfl

end Next

section Elements

variable {elements : List Element} {events tail more : Stream} {ending : Ending}

/-! ## Elements without contents -/

/-- Elements are passed over, whatever comes of what follows them. -/
theorem skip_spans (h : Spans elements events tail) {element : String} {result : Result Unit}
    (depth : Nat)
    (hrest : ∀ count, Agrees (loop (skipTurn element) count (depth + 1)) result tail more)
    (count : Nat) : Agrees (loop (skipTurn element) count (depth + 1)) result events more := by
  induction h generalizing depth count with
  | nil => exact hrest count
  | other _ ih => exact .loop (fun count => agrees_other (ih depth hrest count)) count
  | empty _ ih => exact .loop (fun count => agrees_empty (ih depth hrest count)) count
  | node _ _ ihinside ih =>
      -- The elements inside are passed over one level further in, and their end tag leads back to
      -- this level.
      refine .loop (fun count => agrees_start (ihinside (depth + 1) ?_ count)) count
      exact .loop fun count => agrees_close (ih depth hrest count)
  | cut _ hstops ih =>
      refine .loop (fun count => agrees_start (ih (depth + 1) (.loop fun count => ?_) count)) count
      -- Behind a cut the stream gives no event, so the loop stands where it would without one.
      cases hstops with
      | text => exact hrest 1
      | fault => exact hrest 1

/-- What is left of an element is passed over up to its end. -/
theorem skip_agrees (h : Spans elements events tail) (hends : Ends tail ending)
    (element : String) (limit : Nat) :
    Agrees (skip element limit) (finish element ending) events tail.tail := by
  refine skip_spans h 0 (.loop fun count => ?_) limit
  cases hends with
  | closed => exact .pure ()
  | stopped hstops =>
      rw [← bind_pure (finish element ending)]
      exact agrees_stop hstops _

/-! ## Members -/

section Members

variable {context member : String} {k : List String → Result (List String)}

theorem memberNames_empty {tag : Tag} (hmember : tag.name = member) :
    memberNames context member (.empty tag :: elements) >>= k =
      required tag member "name" >>= fun name =>
        memberNames context member elements >>= fun others => k (name :: others) := by
  rw [memberNames, memberName, if_pos hmember]
  simp only [bind_assoc, pure_bind, List.singleton_append]

theorem memberNames_node {tag : Tag} {children : List Element} (hmember : tag.name = member) :
    memberNames context member (.node tag children ending :: elements) >>= k =
      required tag member "name" >>= fun name =>
        memberNames context member children >>= fun inner =>
          finish context ending >>= fun _ =>
            memberNames context member elements >>= fun others =>
              k (name :: (inner ++ others)) := by
  rw [memberNames, memberName, if_pos hmember]
  simp only [bind_assoc, pure_bind, List.cons_append]

theorem memberNames_unknown {e : Element} {tag : Tag} (hmember : ¬tag.name = member)
    (he : e.tag = tag) :
    memberNames context member (e :: elements) >>= k =
      .error (.unknownElement tag.name context) := by
  cases e with
  | empty other =>
      obtain rfl : other = tag := he
      rw [memberNames, memberName, if_neg hmember]
      rfl
  | node other children ending =>
      obtain rfl : other = tag := he
      rw [memberNames, memberName, if_neg hmember]
      rfl

/-- The names of members are collected, whatever comes of what follows them. -/
theorem members_spans (h : Spans elements events tail) {names : List String}
    (hrest : ∀ inner count, Agrees (loop (membersTurn context member) count (names ++ inner))
      (k inner) tail more) (count : Nat) :
    Agrees (loop (membersTurn context member) count names)
      (memberNames context member elements >>= k) events more := by
  induction h generalizing names k count with
  | nil =>
      have hnames := hrest [] count
      rw [List.append_nil] at hnames
      exact hnames
  | other _ ih => exact .loop (fun count => agrees_other (ih hrest count)) count
  | @empty tag _ _ _ _ ih =>
      refine .loop (fun count => agrees_empty ?_) count
      by_cases hmember : tag.name = member
      · simp only [if_pos hmember]
        rw [memberNames_empty hmember]
        refine .assoc (.lift_bind _ fun name => ih (fun others count => ?_) count)
        have hnames := hrest (name :: others) count
        rw [List.append_cons] at hnames
        exact hnames
      · simp only [if_neg hmember]
        rw [memberNames_unknown hmember rfl]
        exact .of_eq rfl
  | @node tag children elements _ _ _ _ _ ihinside ih =>
      refine .loop (fun count => agrees_start ?_) count
      by_cases hmember : tag.name = member
      · simp only [if_pos hmember]
        rw [memberNames_node hmember]
        refine .assoc (.lift_bind _ fun name => ihinside (fun inner => .loop fun count =>
          agrees_close ?_) count)
        -- The end tag of a member is passed over, since it bears the name of one.
        simp only [if_pos hmember]
        refine ih (fun others count => ?_) count
        have hnames := hrest (name :: (inner ++ others)) count
        rw [List.append_cons, ← List.append_assoc] at hnames
        exact hnames
      · simp only [if_neg hmember]
        rw [memberNames_unknown hmember rfl]
        exact .of_eq rfl
  | @cut tag _ _ _ _ _ hstops ih =>
      refine .loop (fun count => agrees_start ?_) count
      by_cases hmember : tag.name = member
      · simp only [if_pos hmember]
        rw [memberNames_node hmember]
        exact .assoc (.lift_bind _ fun name => ih (fun inner => .loop fun count =>
          agrees_stop hstops _) count)
      · simp only [if_neg hmember]
        rw [memberNames_unknown hmember rfl]
        exact .of_eq rfl

/-- The names of the members are collected up to the end of the element, unless that is
    taken for one of a member. -/
theorem members_agrees (h : Spans elements events tail) (hends : Ends tail ending)
    (hname : ∀ name, tail.head? = some (.close name) → name ≠ member) (limit : Nat)
    (names : List String) :
    Agrees (members context member limit names)
      (memberNames context member elements >>= fun inner =>
        finish context ending >>= fun _ => .ok (names ++ inner)) events tail.tail := by
  refine members_spans h (fun inner => .loop fun count => ?_) limit
  cases hends with
  | @closed name rest =>
      refine agrees_close ?_
      simp only [if_neg (hname name rfl)]
      exact .pure (names ++ inner)
  | stopped hstops => exact agrees_stop hstops _

end Members

/-! ## Shapes -/

/-- The readers of what stands inside an element agree on the elements. -/
structure InsideAgrees (elements : List Element) (events tail : Stream) : Prop where
  only : ∀ {ending}, Ends tail ending → ∀ limit element found count,
    Agrees (loop (onlyTurn (shape limit) element) count found)
      (readOnly element found ending elements) events tail.tail
  map : ∀ {ending}, Ends tail ending → ∀ limit inner key value count,
    Agrees (loop (mapTurn (shape limit) inner) count (key, value))
      (readMap key value ending elements) events tail.tail
  params : ∀ {ending}, Ends tail ending → ∀ limit inner found count,
    Agrees (loop (paramsTurn (shape limit) inner) count found)
      (readParams ending elements >>= fun signature =>
        .ok (found.1 ++ signature.1, found.2 ++ signature.2)) events tail.tail

theorem leaf_agrees (h : Spans elements events tail) (hends : Ends tail ending)
    (element : String) (limit : Nat) (read : Result Shape) :
    Agrees (leaf element limit false read)
      (read >>= fun shape => finish element ending >>= fun _ => .ok shape) events tail.tail :=
  .lift_bind read fun shape => (skip_agrees h hends element limit).bind fun _ _ => .pure shape

theorem leaf_empty (element : String) (limit : Nat) (read : Result Shape) (events : Stream) :
    Agrees (leaf element limit true read) read events events := by
  have h : Agrees (leaf element limit true read) (read >>= .ok) events events :=
    .lift_bind read fun shape => .pure shape
  rw [show read >>= .ok = read from bind_pure read] at h
  exact h

/-- A shape that stands for itself is read from its tag. -/
theorem shape_empty (tag : Tag) (events : Stream) (limit : Nat) :
    Agrees (shape limit tag true) (readEmpty tag) events events := by
  cases limit with
  | zero => rintro _ ⟨⟩
  | succ limit =>
      show Agrees (shapeOf (shape limit) limit tag true) _ _ _
      unfold shapeOf readEmpty
      cases Kind.ofWord? tag.name with
      | none => exact .throw _
      | some kind =>
          cases kind with
          | basic => exact leaf_empty "basic" limit _ events
          | named => exact leaf_empty "named" limit _ events
          | typeParam => exact leaf_empty "typeParam" limit _ events
          | unsafePointer => exact leaf_empty "unsafePointer" limit _ events
          | pointer => exact .throw _
          | slice => exact .throw _
          | array => exact .lift_bind _ fun _ => .throw _
          | chan => exact .lift_bind _ fun _ => .throw _
          | map => exact .throw _
          | func => exact .lift_bind _ fun _ => .pure _
          | interface => exact .pure _
          | struct => exact .pure _

/-- A shape agrees if what stands inside does. -/
theorem shape_agrees {tag : Tag} (h : Spans elements events tail)
    (hinside : InsideAgrees elements events tail) (hends : Ends tail ending)
    (hname : ∀ name, tail.head? = some (.close name) → name = tag.name) (limit : Nat) :
    Agrees (shape limit tag false) (readShapeElement (.node tag elements ending)) events
      tail.tail := by
  cases limit with
  | zero => rintro _ ⟨⟩
  | succ limit =>
      show Agrees (shapeOf (shape limit) limit tag false) _ _ _
      have hcontent (element : String) (wrap : Shape → Shape) :
          Agrees (do return wrap (← content (shape limit) limit element false))
            (readOnly element none ending elements >>= fun shape => .ok (wrap shape)) events
            tail.tail :=
        (hinside.only hends limit element none limit).bind fun _ _ => .pure _
      -- The end tag of this element does not bear the name of a member, since its start tag does
      -- not.
      have hmembers (context member : String) (wrap : List String → Shape)
          (hmember : tag.name ≠ member) :
          Agrees (do return wrap (← members context member limit []))
            ((memberNames context member elements >>= fun names =>
              finish context ending >>= fun _ => .ok names) >>= fun names => .ok (wrap names))
            events tail.tail :=
        (members_agrees h hends (fun name hclose => hname name hclose ▸ hmember) limit []).bind
          fun _ _ => .pure _
      unfold shapeOf
      rw [readShapeElement]
      cases hkind : Kind.ofWord? tag.name with
      | none => exact .throw _
      | some kind =>
          cases kind with
          | basic =>
              -- The name is read before the contents are passed over, and the two steps are put in
              -- a row.
              have hleaf := leaf_agrees h hends "basic" limit
                (required tag "basic" "name" >>= fun name => .ok (.basic name))
              rw [bind_assoc] at hleaf
              exact hleaf
          | named => exact leaf_agrees h hends "named" limit _
          | typeParam =>
              have hleaf := leaf_agrees h hends "typeParam" limit
                (required tag "typeParam" "name" >>= fun name => .ok (.typeParam name))
              rw [bind_assoc] at hleaf
              exact hleaf
          | unsafePointer => exact leaf_agrees h hends "unsafePointer" limit (.ok .unsafePointer)
          | pointer => exact hcontent "pointer" .pointer
          | slice => exact hcontent "slice" .slice
          | array => exact .lift_bind _ fun len => hcontent "array" (.array len)
          | chan => exact .lift_bind _ fun dir => hcontent "chan" (.chan dir)
          | map => exact hinside.map hends limit limit none none limit
          | func =>
              -- The mark for variable arguments is read off the tag, before any parameter.
              refine .lift_bind _ fun variadic => ?_
              have hparams := (hinside.params hends limit limit ([], []) limit).bind
                fun signature _ => .pure (Shape.func signature.1 signature.2 variadic)
              rw [bind_assoc] at hparams
              exact hparams
          | interface =>
              have hnames := hmembers "interface" "method" .interface
                (Kind.word_of_ofWord? hkind ▸ by decide)
              simp only [bind_assoc] at hnames
              exact hnames
          | struct =>
              have hnames := hmembers "struct" "member" .struct
                (Kind.word_of_ofWord? hkind ▸ by decide)
              simp only [bind_assoc] at hnames
              exact hnames

theorem readOnly_cons (element : String) (found : Option Shape) (ending : Ending) (e : Element)
    (elements : List Element) :
    readOnly element found ending (e :: elements) = readShapeElement e >>= fun shape =>
      settle found (.layout (.severalTypes element)) shape >>= fun found =>
        readOnly element found ending elements := by
  rw [readOnly]
  cases found with
  | none => rfl
  | some shape => rfl

theorem readMap_cons (key value : Option Shape) (ending : Ending) (tag : Tag)
    (children : List Element) (childEnding : Ending) (elements : List Element) :
    readMap key value ending (.node tag children childEnding :: elements) =
      if tag.name = "key" then
        readOnly "key" none childEnding children >>= fun shape =>
          settle key (.duplicate "map" "key") shape >>= fun key =>
            readMap key value ending elements
      else if tag.name = "value" then
        readOnly "value" none childEnding children >>= fun shape =>
          settle value (.duplicate "map" "value") shape >>= fun value =>
            readMap key value ending elements
      else .error (.unknownElement tag.name "map") := by
  rw [readMap]
  -- Whether the key, or the value, has been found already is what both sides ask first.
  cases key with
  | none => cases value <;> rfl
  | some key => cases value <;> rfl

theorem readParams_cons (found : Signature) (ending : Ending) (tag : Tag)
    (children : List Element) (childEnding : Ending) (elements : List Element) :
    (readParams ending (.node tag children childEnding :: elements) >>= fun signature =>
        .ok (found.1 ++ signature.1, found.2 ++ signature.2)) =
      optional tag "name" >>= fun name =>
        if tag.name = "param" then
          readOnly "param" none childEnding children >>= fun type =>
            readParams ending elements >>= fun signature =>
              .ok ((found.1 ++ [⟨name, type⟩]) ++ signature.1, found.2 ++ signature.2)
        else if tag.name = "result" then
          readOnly "result" none childEnding children >>= fun type =>
            readParams ending elements >>= fun signature =>
              .ok (found.1 ++ signature.1, (found.2 ++ [⟨name, type⟩]) ++ signature.2)
        else .error (.unknownElement tag.name "func") := by
  rw [readParams, bind_assoc]
  refine bind_congr fun name => ?_
  split
  · simp only [bind_assoc, pure_bind, List.append_assoc, List.singleton_append]
  · split
    · simp only [bind_assoc, pure_bind, List.append_assoc, List.singleton_append]
    · rfl

/-- With nothing left, the readers agree on the end of the element. -/
theorem InsideAgrees.nil : InsideAgrees [] tail tail := by
  constructor
  · -- Each reader sees the end tag of the element, or the place where the stream breaks off.
    intro ending hends limit element found
    refine .loop fun count => ?_
    show Agrees _ (finish element ending >>= _) _ _
    cases hends with
    | closed => cases found <;> exact .of_eq rfl
    | stopped hstops => exact agrees_stop hstops _
  · intro ending hends limit inner key value
    refine .loop fun count => ?_
    show Agrees _ (finish "map" ending >>= _) _ _
    cases hends with
    | closed => cases key <;> cases value <;> exact .of_eq rfl
    | stopped hstops => exact agrees_stop hstops _
  · intro ending hends limit inner found
    refine .loop fun count => ?_
    have hnothing : (found.1 ++ [], found.2 ++ []) = found := by
      rw [List.append_nil, List.append_nil]
    rw [readParams, bind_assoc]
    simp only [pure_bind, hnothing]
    cases hends with
    | closed => exact .of_eq rfl
    | stopped hstops => exact agrees_stop hstops _

/-- The readers agree on an element with contents if they do so on the contents and, when
    the element comes to its end, on what follows it. -/
theorem InsideAgrees.cons {tag : Tag} {children : List Element} {childEnding : Ending}
    {inside behind : Stream} (hchildren : Spans children inside behind)
    (hinside : InsideAgrees children inside behind) (hends : Ends behind childEnding)
    (hname : ∀ name, behind.head? = some (.close name) → name = tag.name)
    (h : childEnding = .closed → InsideAgrees elements behind.tail tail) :
    InsideAgrees (.node tag children childEnding :: elements) (.start tag :: inside) tail := by
  constructor
  · -- A shape that has been read has come to its end, so what follows it can be asked for.
    intro ending htail limit element found
    refine .loop fun count => agrees_start ?_
    rw [readOnly_cons]
    refine .assoc ((shape_agrees hchildren hinside hends hname limit).bind fun type htype => ?_)
    have hclosed := (fits_of_read htype).closed
    exact .assoc (.lift_bind _ fun found => (h hclosed).only htail limit element found count)
  · -- Of a map, the shape stands inside a key or a value, and other tags are errors on both sides.
    intro ending htail limit inner key value
    refine .loop fun count => agrees_start ?_
    rw [readMap_cons]
    refine .ite_bind (fun _ => ?_) fun _ => .ite_bind (fun _ => ?_) fun _ => .of_eq rfl
    · refine .assoc ((hinside.only hends limit "key" none inner).bind fun type htype => ?_)
      have hclosed := (of_readOnly htype).1
      exact .assoc (.lift_bind _ fun key => (h hclosed).map htail limit inner key value count)
    · refine .assoc ((hinside.only hends limit "value" none inner).bind fun type htype => ?_)
      have hclosed := (of_readOnly htype).1
      exact .assoc (.lift_bind _ fun value => (h hclosed).map htail limit inner key value count)
  · -- Of a signature, it stands inside a parameter or a result, whose name has been read before.
    intro ending htail limit inner found
    refine .loop fun count => agrees_start ?_
    rw [readParams_cons]
    refine .assoc (.lift_bind _ fun name => .ite_bind (fun _ => ?_) fun _ =>
      .ite_bind (fun _ => ?_) fun _ => .of_eq rfl)
    · refine .assoc ((hinside.only hends limit "param" none inner).bind fun type htype => ?_)
      exact (h (of_readOnly htype).1).params htail limit inner
        (found.1 ++ [⟨name, type⟩], found.2) count
    · refine .assoc ((hinside.only hends limit "result" none inner).bind fun type htype => ?_)
      exact (h (of_readOnly htype).1).params htail limit inner
        (found.1, found.2 ++ [⟨name, type⟩]) count

/-- The readers of what stands inside an element agree on all the elements. -/
theorem inside_agrees (h : Spans elements events tail) : InsideAgrees elements events tail := by
  induction h with
  | nil => exact .nil
  -- What is no tag is passed over by each of the three, with a turn of its own.
  | other _ ih =>
      constructor
      · intro ending hends limit element found
        exact .loop fun count => agrees_other (ih.only hends limit element found count)
      · intro ending hends limit inner key value
        exact .loop fun count => agrees_other (ih.map hends limit inner key value count)
      · intro ending hends limit inner found
        exact .loop fun count => agrees_other (ih.params hends limit inner found count)
  | @empty tag elements rest tail _ ih =>
      constructor
      · intro ending hends limit element found
        refine .loop fun count => agrees_empty ?_
        rw [readOnly_cons, readShapeElement]
        exact .assoc ((shape_empty tag rest limit).bind fun type _ => .assoc (.lift_bind _
          fun found => ih.only hends limit element found count))
      · intro ending hends limit inner key value
        refine .loop fun count => agrees_empty ?_
        rw [readMap]
        exact .of_eq rfl
      · intro ending hends limit inner found
        refine .loop fun count => agrees_empty ?_
        rw [readParams]
        exact .of_eq rfl
  | node hchildren _ ihinside ih =>
      exact .cons hchildren ihinside .closed
        (fun name hname => (Xml.Event.close.inj (Option.some.inj hname)).symm) fun _ => ih
  | cut hchildren hstops ihinside =>
      -- Where the stream breaks off there is no end tag, and the element has not come to its end.
      refine .cons hchildren ihinside (.stopped hstops) ?_ ?_
      · rintro name hname
        cases hstops <;> cases hname
      · rintro rfl
        cases hstops

end Elements

end Pull

end Descriptor

end FunctionalOptions
