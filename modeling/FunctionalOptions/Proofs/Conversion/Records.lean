import FunctionalOptions.Proofs.Conversion.Places

/-!
# Records with Unsupported Fields

A record can be used when all of its fields can be converted, and otherwise not at
all. The error is then about the first field that cannot, and within that field about
the first thing that is wrong with it. The path in the error is that of the field, so
whoever reads the error is led to one place however many there are.

Whatever is said of the tag of a field is said on the side. A tag can always be read,
so it makes no difference to which error there is.

## Main definitions

* `Record.fieldPath`: The path that an error gives to a field.
* `Record.Field.From`: What a field has from its descriptor.

## Theorems

* `Record.fieldsOfDescriptor_eq_error_iff`: Which field of a record an error is about.
* `Record.ofDescriptor_firstFault`: Which shapes and records are converted, what the
  error is if they are not, and what functions become if they are.
-/

namespace FunctionalOptions

namespace Record

open Descriptor (Shape)
open Go (TypeExpr)

/-- The path that an error gives to a field of a record. -/
def fieldPath (record : String) (field : Descriptor.Field) : String :=
  record ++ "." ++ field.name

/-- The field comes from a descriptor. -/
structure Field.From (record : String) (descriptor : Descriptor.Field) (field : Field) : Prop where
  name : field.name = descriptor.name
  type : TypeExpr.ofShape (fieldPath record descriptor) descriptor.type = .ok field.type
  ignored : field.ignored = descriptor.tag.any Go.StructTag.ignores

/-- The tag of a field can always be read, so a field is converted as its type is. -/
theorem Field.result_ofDescriptor (record : String) (descriptor : Descriptor.Field) :
    (Field.ofDescriptor record descriptor).result = do
      let type ← TypeExpr.ofShape (fieldPath record descriptor) descriptor.type
      return ⟨descriptor.name, type, descriptor.tag.any Go.StructTag.ignores⟩ := by
  rw [Field.ofDescriptor, Logged.result_bind, Logged.result_ofExcept]
  cases descriptor.tag with
  | none => rfl
  | some tag => rfl

theorem Field.ofDescriptor_eq_ok_iff (record : String) (descriptor : Descriptor.Field)
    (field : Field) :
    (Field.ofDescriptor record descriptor).result = .ok field ↔ From record descriptor field := by
  rw [Field.result_ofDescriptor, Except.bind_eq_ok_iff]
  constructor
  · rintro ⟨type, htype, h⟩
    obtain rfl := Except.ok.inj h
    exact ⟨rfl, htype, rfl⟩
  · rintro ⟨hname, htype, hignored⟩
    -- Nothing but these three parts makes up a field.
    exact ⟨field.type, htype, by rw [← hname, ← hignored]; rfl⟩

theorem Field.ofDescriptor_eq_error_iff (record : String) (descriptor : Descriptor.Field)
    (error : RecordError) :
    (Field.ofDescriptor record descriptor).result = .error error ↔
      TypeExpr.ofShape (fieldPath record descriptor) descriptor.type = .error error := by
  rw [Field.result_ofDescriptor, Except.bind_eq_error_iff, or_iff_left]
  rintro ⟨_, _, h⟩
  exact nomatch h

/-- Fields are converted one by one. -/
theorem fieldsOfDescriptor_eq_ok_iff (record : String) (descriptors : List Descriptor.Field)
    (fields : List Field) :
    (fieldsOfDescriptor record descriptors).result = .ok fields ↔
      List.Forall₂ (Field.From record) descriptors fields := by
  induction descriptors generalizing fields with
  | nil =>
      rw [fieldsOfDescriptor, Logged.result_pure, Except.ok.injEq, List.forall₂_nil_left_iff]
      exact eq_comm
  | cons descriptor rest ih =>
      simp only [fieldsOfDescriptor, Logged.result_bind_eq_ok_iff, Field.ofDescriptor_eq_ok_iff, ih,
        Logged.result_pure, List.forall₂_cons_left_iff]
      constructor
      · rintro ⟨field, hfield, others, hothers, h⟩
        exact ⟨field, others, hfield, hothers, (Except.ok.inj h).symm⟩
      · rintro ⟨field, others, hfield, hothers, rfl⟩
        exact ⟨field, hfield, others, hothers, rfl⟩

/-- The first field that cannot be converted is the one that the error is about. -/
theorem fieldsOfDescriptor_eq_error_iff (record : String) (descriptors : List Descriptor.Field)
    (error : RecordError) :
    (fieldsOfDescriptor record descriptors).result = .error error ↔
      ∃ before field after, descriptors = before ++ field :: after ∧
        (∀ other ∈ before, ∃ n, TypeExpr.ofShape (fieldPath record other) other.type = .ok n) ∧
        TypeExpr.ofShape (fieldPath record field) field.type = .error error := by
  induction descriptors with
  | nil =>
      refine iff_of_false (fun h => nomatch h) ?_
      rintro ⟨before, field, after, hsplit, -⟩
      exact absurd hsplit (by simp)
  | cons descriptor rest ih =>
      simp only [fieldsOfDescriptor, Logged.result_bind_eq_error_iff, Field.ofDescriptor_eq_ok_iff,
        Field.ofDescriptor_eq_error_iff, ih, Logged.result_pure, reduceCtorEq, and_false,
        exists_false, or_false]
      -- Either the first field is at fault, or it is in order and a later one is.
      constructor
      · rintro (h | ⟨converted, hconverted, before, field, after, rfl, hbefore, hfield⟩)
        · exact ⟨[], descriptor, rest, rfl, fun _ h => absurd h List.not_mem_nil, h⟩
        · exact ⟨descriptor :: before, field, after, rfl,
            List.forall_mem_cons.mpr ⟨⟨_, hconverted.type⟩, hbefore⟩, hfield⟩
      · rintro ⟨before, field, after, hsplit, hbefore, hfield⟩
        cases before with
        | nil =>
            obtain ⟨rfl, rfl⟩ := List.cons.inj hsplit
            exact Or.inl hfield
        | cons first before =>
            obtain ⟨rfl, rfl⟩ := List.cons.inj hsplit
            -- The field before is in order, so it is converted and the reader goes on to the rest.
            rcases List.forall_mem_cons.mp hbefore with ⟨⟨n, hn⟩, hbefore⟩
            exact Or.inr ⟨⟨descriptor.name, n, _⟩, ⟨rfl, hn, rfl⟩, before, field, after, rfl,
              hbefore, hfield⟩

theorem ofDescriptor_eq_error_iff (record : Descriptor.Record) (error : RecordError) :
    (ofDescriptor record).result = .error error ↔
      (fieldsOfDescriptor record.name record.fields).result = .error error := by
  rw [ofDescriptor, Logged.result_bind_eq_error_iff, or_iff_left]
  rintro ⟨_, _, h⟩
  exact nomatch h

theorem ofDescriptor_eq_ok_iff (record : Descriptor.Record) (converted : Record) :
    (ofDescriptor record).result = .ok converted ↔
      converted.name = record.name ∧
        List.Forall₂ (Field.From record.name) record.fields converted.fields := by
  simp only [ofDescriptor, Logged.result_bind_eq_ok_iff, fieldsOfDescriptor_eq_ok_iff]
  constructor
  · rintro ⟨fields, hfields, h⟩
    obtain rfl := Except.ok.inj h
    exact ⟨rfl, hfields⟩
  · rintro ⟨hname, hfields⟩
    exact ⟨converted.fields, hfields, by rw [← hname]; rfl⟩

/-- A shape cannot be converted if and only if something is wrong with a part of it. The
    error is at the given path and about the first such part. If it can be converted,
    every part of the type has a shape beside it, and beside a function type there is a
    function shape with as many parameters and results. The last parameter is then
    variadic if the shape is, and no other one.

    A record fails with the error of its first field that cannot be converted, and
    otherwise keeps its name and has its fields in their order. -/
theorem ofDescriptor_firstFault (path : String) (shape : Shape) (record : Descriptor.Record) :
    ((∃ e, TypeExpr.ofShape path shape = .error e) ↔
      ∃ s : Shape, s.Within shape ∧ s.fault? ≠ none) ∧
    (∀ e, TypeExpr.ofShape path shape = .error e ↔
      ∃ before s after fault, shape.reading = before ++ s :: after ∧
        (∀ t ∈ before, t.fault? = none) ∧ s.fault? = some fault ∧
        e = .unsupported path fault) ∧
    (∀ n, TypeExpr.ofShape path shape = .ok n →
      (∀ t : TypeExpr, t.Within n → ∃ s, TypeExpr.Beside s t shape n) ∧
      ∀ s inputs outputs, TypeExpr.Beside s (.func inputs outputs) shape n →
        ∃ params results variadic, s = .func params results variadic ∧
          inputs.length = params.length ∧ outputs.length = results.length ∧
          Go.MarksFit inputs outputs ∧ inputs.getLast?.any (·.variadic) = variadic) ∧
    (∀ e, (ofDescriptor record).result = .error e ↔
      ∃ before field after, record.fields = before ++ field :: after ∧
        (∀ other ∈ before, ∃ n,
          TypeExpr.ofShape (fieldPath record.name other) other.type = .ok n) ∧
        TypeExpr.ofShape (fieldPath record.name field) field.type = .error e) ∧
    ∀ converted, (ofDescriptor record).result = .ok converted ↔
      converted.name = record.name ∧
        List.Forall₂ (Field.From record.name) record.fields converted.fields := by
  refine ⟨?fails, TypeExpr.ofShape_eq_error_iff path shape, fun n hn => ⟨?parts, ?functions⟩,
    fun e => ?record, ofDescriptor_eq_ok_iff record⟩
  case fails =>
    constructor
    · rintro ⟨e, h⟩
      rcases (TypeExpr.ofShape_eq_error_iff ..).mp h with
        ⟨before, s, after, fault, hsplit, -, hs, -⟩
      refine ⟨s, Shape.mem_reading_iff.mp ?_, Option.ne_none_iff_exists'.mpr ⟨fault, hs⟩⟩
      -- What is read on the way to the error lies within the shape.
      exact hsplit ▸ List.mem_append_right _ List.mem_cons_self
    · rintro ⟨s, hs, hfault⟩
      -- A shape that is converted has no part that something is wrong with.
      cases hshape : TypeExpr.ofShape path shape with
      | error e => exact ⟨e, rfl⟩
      | ok n => exact absurd ((TypeExpr.exists_ofShape_eq_ok_iff ..).mp ⟨n, hshape⟩ s hs) hfault
  case parts => exact fun t => TypeExpr.exists_beside hn
  case functions =>
    intro s inputs outputs hs
    exact TypeExpr.func_of_ofShape (hs.ofShape_eq_ok hn)
  case record => rw [ofDescriptor_eq_error_iff, fieldsOfDescriptor_eq_error_iff]

/-- A function shape with a variadic mark. -/
def notify : Shape :=
  .func [⟨some "topic", .basic "string"⟩, ⟨some "codes", .slice (.basic "int")⟩]
    [⟨none, .named none "error"⟩] true

/-- One with something wrong in its first parameter, in its last one and in its result. -/
def route : Shape :=
  .func [⟨none, .typeParam "K"⟩, ⟨none, .basic "int"⟩] [⟨none, .unsafePointer⟩] true

theorem ofDescriptor_firstFault_relay :
    (∃ params results, notify = .func params results true ∧ params.length = 2) ∧
    TypeExpr.ofShape "Relay.Route" route =
      .error (.unsupported "Relay.Route" (.shape (.typeParam "K"))) ∧
    (ofDescriptor ⟨"Relay", [⟨"Notify", notify, none⟩, ⟨"Route", route, none⟩]⟩).result =
      .error (.unsupported "Relay.Route" (.shape (.typeParam "K"))) := by
  have hnotify : TypeExpr.ofShape "Relay.Notify" notify = .ok (.func
      [⟨some "topic", .predeclared "string", false⟩, ⟨some "codes", .predeclared "int", true⟩]
      [⟨none, .predeclared "error", false⟩]) := rfl
  have hroute : TypeExpr.ofShape "Relay.Route" route =
      .error (.unsupported "Relay.Route" (.shape (.typeParam "K"))) :=
    ((ofDescriptor_firstFault "Relay.Route" route ⟨"Relay", []⟩).2.1 _).mpr
      ⟨[], .typeParam "K", [route, .basic "int", .unsafePointer], .shape (.typeParam "K"), rfl,
        fun _ h => absurd h List.not_mem_nil, rfl, rfl⟩
  refine ⟨?_, hroute, ?_⟩
  · rcases (ofDescriptor_firstFault "Relay.Notify" notify ⟨"Relay", []⟩).2.2.1 _ hnotify with
      ⟨-, hfunctions⟩
    rcases hfunctions _ _ _ .self with ⟨params, results, variadic, heq, hlength, -, -, hmark⟩
    obtain rfl : true = variadic := hmark
    exact ⟨params, results, heq, hlength.symm⟩
  · exact ((ofDescriptor_firstFault "Relay.Route" route _).2.2.2.1 _).mpr
      ⟨[⟨"Notify", notify, none⟩], ⟨"Route", route, none⟩, [], rfl,
        List.forall_mem_singleton.mpr ⟨_, hnotify⟩, hroute⟩

end Record

end FunctionalOptions
