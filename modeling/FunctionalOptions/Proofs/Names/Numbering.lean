import FunctionalOptions.Proofs.Names.Parameters

/-!
# Numbers Behind Any Names

What a run of calls to the parameter names gives back when anything may be reserved and
anything asked for. The names of a model are only one such run: there the receiver alone
is reserved, and it is too short to end in a number.

A name that collides gets a number, and nobody looks at what the two make together. It is
never a word of the language, since there is no digit in any. But it can have been
reserved itself, or asked for and handed out as it is, and two names that end in digits
can make one name with different numbers.

All three need a name that is another one with a number behind it. Where no name has
that form, every name that is given is free, and no number makes a name that was given
before. One such pair is enough to spoil a run: the shorter name is reserved and asked
for until its number comes up, when the longer one has long been reserved.

## Main definitions

* `ParameterNames.Call`: Reserving a name or asking for one.
* `ParameterNames.answers`: The names that a run of calls is given.
* `ParameterNames.Kept`: Every name that is given is free, and no number makes a name that
  was given before.

## Theorems

* `ParameterNames.answer_cases`: What a name is when it is given.
* `ParameterNames.answers_ascend`: Later numbers are greater.
* `ParameterNames.kept_iff_unnumbered`: For which names every run keeps its promise.
* `ParameterNames.not_kept_for0`: A run that breaks it.
-/

namespace FunctionalOptions

namespace ParameterNames

/-- A call to the names of a run. -/
inductive Call where
  | reserve (name : String)
  | sanitize (name : String)
  | forField (field : String)
deriving DecidableEq, Repr

/-- The name that a call reserves or asks for. -/
def Call.name : Call → String
  | .reserve name | .sanitize name => name
  | .forField field => Go.lowerFirst field

/-- A name that has been given for another one, with the names in use right after it. -/
structure Answer where
  asked : String
  given : String
  names : ParameterNames
deriving DecidableEq, Repr

/-- The answer for a name. -/
def answer (names : ParameterNames) (name : String) : Answer :=
  ⟨name, (names.sanitize name).1, (names.sanitize name).2⟩

/-- The answers that a run of calls is given, in order. -/
def answers (names : ParameterNames) : List Call → List Answer
  | [] => []
  | .reserve name :: calls => (names.reserve name).answers calls
  | .sanitize name :: calls =>
    names.answer name :: (names.answer name).names.answers calls
  | .forField field :: calls =>
    ⟨Go.lowerFirst field, (names.forField field).1, (names.forField field).2⟩ ::
      (names.forField field).2.answers calls

/-- Every name that was given was free at that moment, and a name that is not the one that
    was asked for differs from all names given before. -/
structure Kept (answers : List Answer) : Prop where
  free : ∀ a ∈ answers, a.names.collides a.given = false
  distinct : answers.Pairwise fun earlier a => a.given ≠ a.asked → a.given ≠ earlier.given

instance (answers : List Answer) : Decidable (Kept answers) :=
  decidable_of_iff ((∀ a ∈ answers, a.names.collides a.given = false) ∧
      answers.Pairwise fun earlier a => a.given ≠ a.asked → a.given ≠ earlier.given)
    ⟨fun h => ⟨h.1, h.2⟩, fun h => ⟨h.free, h.distinct⟩⟩

/-! ## One answer -/

theorem collides_iff (names : ParameterNames) (name : String) :
    names.collides name = true ↔ name ∈ Go.keywords ++ aliasTypes ∨ name ∈ names.reserved := by
  simp only [collides, Go.isKeyword, Bool.or_eq_true, List.contains_iff_mem, List.mem_append]

/-- A word with a number behind it is none. -/
theorem append_toString_not_mem (name : String) (n : Nat) :
    name ++ toString n ∉ Go.keywords ++ aliasTypes := by
  intro hmem
  -- The number has a digit, and a digit is no letter of a word.
  rcases Text.toDigits_cons n with ⟨c, rest, hdigits, hc, -⟩
  have hnot := (word_of_mem hmem).2 c (by
    rw [Text.toList_append_toString, hdigits]
    exact List.mem_append_right _ List.mem_cons_self)
  rw [hc] at hnot
  exact Bool.false_ne_true hnot.symm

/-- What can be said of a name when it is given, if all names in use are of one kind and
    the numbers began at some count. It is free and the one that was asked for, or it has a
    number behind it. -/
structure Given (kind : String → Prop) (start : Nat) (a : Answer) : Prop where
  asked : kind a.asked
  reserved : ∀ name ∈ a.names.reserved, kind name
  cases : a.given = a.asked ∧ a.names.collides a.given = false ∨
    ∃ n, start ≤ n ∧ a.names.counter = n + 1 ∧ a.given = a.asked ++ toString n

variable {kind : String → Prop} {start : Nat} {names : ParameterNames} {name : String}

/-- An answer for a name that collides has the next number. -/
theorem answer_of_collides (h : names.collides name = true) :
    names.answer name =
      ⟨name, name ++ toString names.counter, { names with counter := names.counter + 1 }⟩ := by
  unfold answer sanitize
  rw [if_pos h]

/-- An answer for a name that is free changes nothing. -/
theorem answer_of_free (h : names.collides name = false) :
    names.answer name = ⟨name, name, names⟩ := by
  unfold answer sanitize
  rw [h]
  rfl

theorem reserved_answer : (names.answer name).names.reserved = names.reserved := by
  cases h : names.collides name with
  | true => rw [answer_of_collides h]
  | false => rw [answer_of_free h]

theorem counter_le_answer : names.counter ≤ (names.answer name).names.counter := by
  cases h : names.collides name with
  | true =>
      rw [answer_of_collides h]
      exact Nat.le_succ _
  | false => exact Nat.le_of_eq (by rw [answer_of_free h])

theorem given_answer (hname : kind name) (hreserved : ∀ name ∈ names.reserved, kind name)
    (hstart : start ≤ names.counter) : Given kind start (names.answer name) := by
  cases h : names.collides name with
  | true =>
      rw [answer_of_collides h]
      exact ⟨hname, hreserved, Or.inr ⟨names.counter, hstart, rfl, rfl⟩⟩
  | false =>
      rw [answer_of_free h]
      exact ⟨hname, hreserved, Or.inl ⟨rfl, h⟩⟩

/-! ## A run -/

/-- Every call either reserves a name or asks for one. -/
theorem answers_cons (names : ParameterNames) (call : Call) (calls : List Call) :
    names.answers (call :: calls) = (names.reserve call.name).answers calls ∨
      names.answers (call :: calls) =
        names.answer call.name :: (names.answer call.name).names.answers calls := by
  cases call with
  | reserve name => exact Or.inl rfl
  | sanitize name => exact Or.inr rfl
  | forField field => exact Or.inr rfl

section Run

variable {calls : List Call} (hcalls : ∀ call ∈ calls, kind call.name)
  (hreserved : ∀ name ∈ names.reserved, kind name)

include hcalls hreserved

theorem given_answers (hstart : start ≤ names.counter) :
    ∀ a ∈ names.answers calls, Given kind start a := by
  induction calls generalizing names with
  | nil => exact fun a ha => absurd ha List.not_mem_nil
  | cons call calls ih =>
      rcases List.forall_mem_cons.mp hcalls with ⟨hcall, hcalls⟩
      rcases answers_cons names call calls with heq | heq
      · rw [heq]
        exact ih hcalls (List.forall_mem_cons.mpr ⟨hcall, hreserved⟩) hstart
      · rw [heq]
        refine List.forall_mem_cons.mpr ⟨given_answer hcall hreserved hstart, ih hcalls ?_ ?_⟩
        · rwa [reserved_answer]
        · exact Nat.le_trans hstart counter_le_answer

/-- The numbers behind later names are not among those that have been used. -/
theorem answers_ascend :
    (names.answers calls).Pairwise fun earlier a => Given kind earlier.names.counter a := by
  induction calls generalizing names with
  | nil => exact List.Pairwise.nil
  | cons call calls ih =>
      rcases List.forall_mem_cons.mp hcalls with ⟨hcall, hcalls⟩
      rcases answers_cons names call calls with heq | heq
      · rw [heq]
        exact ih hcalls (List.forall_mem_cons.mpr ⟨hcall, hreserved⟩)
      · have hafter : ∀ other ∈ (names.answer call.name).names.reserved, kind other := by
          rwa [reserved_answer]
        rw [heq]
        exact List.pairwise_cons.mpr
          ⟨given_answers hcalls hafter (Nat.le_refl _), ih hcalls hafter⟩

end Run

/-- A reserved name that is asked for again and again gets one number after the other. -/
theorem exists_answer_of_replicate (h : name ∈ names.reserved) (n : Nat) :
    ∃ a ∈ names.answers (List.replicate (n + 1) (.sanitize name)),
      a.given = name ++ toString (names.counter + n) ∧ a.names.reserved = names.reserved := by
  have hcollides := (collides_iff names name).mpr (Or.inr h)
  -- Every answer takes one number and leaves the reserved names as they are.
  induction n generalizing names with
  | zero =>
      rw [List.replicate_one, answers, answer_of_collides hcollides]
      exact ⟨_, List.mem_cons_self, rfl, rfl⟩
  | succ n ih =>
      rw [List.replicate_succ, answers, answer_of_collides hcollides]
      rcases @ih { names with counter := names.counter + 1 } h hcollides with
        ⟨a, ha, hgiven, hreserved⟩
      refine ⟨a, List.mem_cons_of_mem _ ha, ?_, hreserved⟩
      rw [hgiven, Nat.add_assoc, Nat.add_comm 1 n]

/-! ## All runs -/

/-- The answers of a run in which no name is another one with a number behind it. -/
theorem kept_answers (hkind : ∀ name other, kind name → kind other →
      ∀ n : Nat, other ≠ name ++ toString n)
    {calls : List Call} (hcalls : ∀ call ∈ calls, kind call.name) :
    Kept (fresh.answers calls) := by
  have hreserved : ∀ name ∈ fresh.reserved, kind name := fun _ h => absurd h List.not_mem_nil
  have hgiven := given_answers hcalls hreserved (Nat.zero_le _)
  constructor
  · intro a ha
    have ha := hgiven a ha
    rcases ha.cases with ⟨-, hfree⟩ | ⟨n, -, -, hnumber⟩
    · exact hfree
    · -- What collides is a word or has been reserved.
      rw [← Bool.not_eq_true, collides_iff, hnumber]
      rintro (hword | hname)
      · exact append_toString_not_mem a.asked n hword
      · exact hkind a.asked _ ha.asked (ha.reserved _ hname) n rfl
  · refine (answers_ascend hcalls hreserved).imp_of_mem ?_
    intro earlier a hearlier _ ha hasked
    rcases ha.cases with ⟨hplain, -⟩ | ⟨n, hn, -, hnumber⟩
    · exact absurd hplain hasked
    · have hearlier := hgiven earlier hearlier
      rw [hnumber]
      rcases hearlier.cases with ⟨hplain, -⟩ | ⟨m, -, hm, hbefore⟩
      · rw [hplain]
        exact (hkind a.asked earlier.asked ha.asked hearlier.asked n).symm
      · rw [hbefore]
        intro heq
        -- Either the numbers are equal, or one of the names ends in more of the digits.
        rcases Text.append_toString_cases heq with hequal | ⟨k, hk⟩ | ⟨k, hk⟩
        · omega
        · exact hkind a.asked earlier.asked ha.asked hearlier.asked k hk
        · exact hkind earlier.asked a.asked hearlier.asked ha.asked k hk

/-- In every run, a name that is given is no word of the language and no alias type. The
    runs over names of one kind are all kept to their promise, that every name is free when
    it is given and a name with a number differs from all names before, exactly if no name
    of the kind is one with a number behind it. -/
theorem kept_iff_unnumbered (kind : String → Prop) :
    (∀ calls : List Call, ∀ a ∈ fresh.answers calls,
      Go.isKeyword a.given = false ∧ a.given ∉ aliasTypes) ∧
    ((∀ calls : List Call, (∀ call ∈ calls, kind call.name) → Kept (fresh.answers calls)) ↔
      ∀ name other, kind name → kind other → ∀ n : Nat, other ≠ name ++ toString n) := by
  refine ⟨fun calls a ha => ?_, fun h name other hname hother n heq => ?_, ?_⟩
  · have hword : a.given ∉ Go.keywords ++ aliasTypes := by
      have ha : Given (fun _ => True) 0 a :=
        given_answers (fun _ _ => trivial) (fun _ _ => trivial) (Nat.zero_le _) a ha
      rcases ha.cases with ⟨-, hfree⟩ | ⟨n, -, -, hnumber⟩
      · rw [← Bool.not_eq_true, collides_iff] at hfree
        exact fun hmem => hfree (Or.inl hmem)
      · rw [hnumber]
        exact append_toString_not_mem a.asked n
    rw [List.mem_append, not_or] at hword
    refine ⟨?_, hword.2⟩
    rw [← Bool.not_eq_true, Go.isKeyword, List.contains_iff_mem]
    exact hword.1
  · -- Reserve both, and ask for the shorter one until its number makes the longer one.
    have hkept := h (.reserve other :: .reserve name ::
      List.replicate (n + 1) (.sanitize name)) (by
        simp only [List.forall_mem_cons, Call.name, hother, hname, true_and]
        intro call hcall
        rwa [List.eq_of_mem_replicate hcall])
    have hreserved : name ∈ ((fresh.reserve other).reserve name).reserved := List.mem_cons_self
    rcases exists_answer_of_replicate hreserved n with ⟨a, ha, hgiven, hnames⟩
    have hfree := hkept.free a ha
    rw [← Bool.not_eq_true, collides_iff, hgiven, hnames] at hfree
    refine hfree (Or.inr (List.mem_cons_of_mem _ ?_))
    have hcounter : ((fresh.reserve other).reserve name).counter + n = n := Nat.zero_add n
    rw [hcounter, ← heq]
    exact List.mem_cons_self
  · exact fun hkind calls hcalls => kept_answers hkind hcalls

/-- The number of a reserved word makes a name that is reserved itself, or that has been
    given before. -/
theorem not_kept_for0 :
    ¬Kept (fresh.answers [.reserve "for0", .sanitize "for"]) ∧
    ¬Kept (fresh.answers [.sanitize "for0", .forField "For"]) := by
  decide

end ParameterNames

end FunctionalOptions
