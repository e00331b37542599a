import FunctionalOptions.Proofs.Fallible
import FunctionalOptions.Proofs.Json.Number
import FunctionalOptions.Proofs.Json.Quoted

/-!
# Where Literals End

A literal is scanned to its end in a text that goes on. What is found is what is found in the
literal alone, and here this is shown in both directions: a literal can be followed by more text,
and what follows can be cut off.

A string ends with its quote, so anything may follow. A number ends where the text stops going on
like one. So each part of a number finds the same with other text behind it, as long as that text
begins with nothing a number could go on with, and there is no part that takes all the digits but
leaves some.

## Main definitions

* `Extends`: What is found in a text that goes on is what is found in the text alone.
* `NoDigit`: No digit comes next.

## Theorems

* `scanQuoted_append`: A string is scanned to its quote, whatever comes behind it.
* `exists_scanQuoted_of_rest`: And if nothing comes behind it.
* `scanNumber_extends`: A number is scanned to its end.
* `scanNumber_noDigit`: All the digits that come belong to the number.
-/

namespace FunctionalOptions

namespace Json

/-! ## Strings -/

/-- A letter that names a character is scanned as the character. -/
theorem scanQuoted_letter {letter c : Char} (h : escapeLetter? letter = some c)
    (rest : List Char) :
    scanQuoted ('\\' :: letter :: rest) = (scanQuoted rest).push (.scalar c) := by
  -- The digits of a unit are looked for first, but no character is named by that letter.
  have hunit : letter ≠ 'u' := by
    rintro rfl
    cases h
  rw [scanQuoted, h]
  · exact fun _ _ _ _ _ hletter => absurd hletter hunit
  · exact fun hletter => absurd hletter hunit

/-- A string is scanned to its quote, whatever comes behind it. -/
theorem scanQuoted_append {body left : List Char} (h : (scanQuoted body).rest = .ok left)
    (after : List Char) :
    scanQuoted (body ++ after) = ⟨(scanQuoted body).units, .ok (left ++ after)⟩ := by
  fun_induction scanQuoted body with
  | case1 | case3 | case5 | case6 | case8 | case9 => cases h
  | case2 rest =>
      cases h
      rfl
  | case4 a b c d rest n hn ih =>
      simp only [List.cons_append, scanQuoted, hn, ih h]
      rfl
  | case7 letter rest _ _ c hc ih =>
      rw [List.cons_append, List.cons_append, scanQuoted_letter hc, ih h]
      rfl
  | case10 c rest hquote hend _ _ hletter hcontrol ih =>
      -- The character is no backslash, for those stand at the end or in front of a letter.
      have hslash : c ≠ '\\' := by
        intro hslash
        cases rest with
        | nil => exact hend hslash rfl
        | cons letter rest => exact hletter letter rest hslash rfl
      rw [List.cons_append, scanQuoted_plain hquote hslash hcontrol, ih h]
      rfl

/-- A string is scanned to its quote even if nothing comes behind it. -/
theorem exists_scanQuoted_of_rest {text after : List Char}
    (h : (scanQuoted text).rest = .ok after) :
    ∃ body, text = body ++ after ∧ scanQuoted body = ⟨(scanQuoted text).units, .ok []⟩ := by
  fun_induction scanQuoted text with
  | case1 | case3 | case5 | case6 | case8 | case9 => cases h
  | case2 rest =>
      cases h
      exact ⟨['"'], rfl, rfl⟩
  | case4 a b c d rest n hn ih =>
      rcases ih h with ⟨body, rfl, hbody⟩
      refine ⟨'\\' :: 'u' :: a :: b :: c :: d :: body, rfl, ?_⟩
      rw [scanQuoted, hn, hbody]
      rfl
  | case7 letter rest _ _ c hc ih =>
      rcases ih h with ⟨body, rfl, hbody⟩
      refine ⟨'\\' :: letter :: body, rfl, ?_⟩
      rw [scanQuoted_letter hc, hbody]
      rfl
  | case10 c rest hquote hend _ _ hletter hcontrol ih =>
      have hslash : c ≠ '\\' := by
        intro hslash
        cases rest with
        | nil => exact hend hslash rfl
        | cons letter rest => exact hletter letter rest hslash rfl
      rcases ih h with ⟨body, rfl, hbody⟩
      refine ⟨c :: body, rfl, ?_⟩
      rw [scanQuoted_plain hquote hslash hcontrol, hbody]
      rfl

/-! ## Numbers -/

/-- A character in front of what is found. -/
def prepend (c : Char) :
    Except Stop (List Char × List Char) → Except Stop (List Char × List Char)
  | .ok (piece, left) => .ok (c :: piece, left)
  | .error stop => .error stop

/-- What is found in a text that goes on is what is found in the text alone, as long as
    nothing is taken of what it goes on with. -/
structure Extends (after : List Char) (found other : Except Stop (List Char × List Char)) :
    Prop where
  forward : ∀ piece left, found = .ok (piece, left) → other = .ok (piece, left ++ after)
  backward : ∀ piece left, other = .ok (piece, left ++ after) → found = .ok (piece, left)

section Extends

variable {after : List Char}

namespace Extends

theorem ok (piece left : List Char) :
    Extends after (.ok (piece, left)) (.ok (piece, left ++ after)) where
  forward := by
    rintro _ _ ⟨⟩
    rfl
  backward other before h := by
    rw [Except.ok.injEq, Prod.mk.injEq, List.append_cancel_right_eq] at h
    rw [h.1, h.2]

theorem error (stop other : Stop) : Extends after (.error stop) (.error other) where
  forward := by rintro _ _ ⟨⟩
  backward := by rintro _ _ ⟨⟩

theorem prepend (c : Char) {found other : Except Stop (List Char × List Char)}
    (h : Extends after found other) :
    Extends after (Json.prepend c found) (Json.prepend c other) where
  forward piece left hfound := by
    cases found with
    | error => cases hfound
    | ok scanned =>
        cases hfound
        rw [h.forward _ _ rfl]
        rfl
  backward piece left hother := by
    cases other with
    | error => cases hother
    | ok scanned =>
        rcases scanned with ⟨piece, _⟩
        cases hother
        rw [h.backward _ _ rfl]
        rfl

end Extends

/-! ### Where no part of a number begins -/

theorem scanWhole_of_ne {c : Char} (h : c ≠ '0') (text : List Char) :
    scanWhole (c :: text) = scanDigits (c :: text) := by
  unfold scanWhole
  split
  · next heq => exact absurd (List.cons.inj heq).1 h
  · rfl

theorem scanFraction_of_ne {text : List Char} (h : ∀ c ∈ text.head?, c ≠ '.') :
    scanFraction text = .ok ([], text) := by
  unfold scanFraction
  split
  · exact absurd rfl (h '.' rfl)
  · rfl

/-! ### Where a number ends -/

variable (h : EndsNumber after)

include h

/-- Digits end where the text ends that goes on with no more of a number. -/
theorem EndsNumber.takeWhile_append (text : List Char) :
    (text ++ after).takeWhile Char.isDigit = text.takeWhile Char.isDigit ∧
      (text ++ after).dropWhile Char.isDigit = text.dropWhile Char.isDigit ++ after := by
  induction text with
  | nil => exact h.span fun _ hd => absurd hd List.not_mem_nil
  | cons c text ih =>
      -- A digit is taken along; anything else ends the digits in both texts.
      by_cases hc : c.isDigit = true
      · rw [List.cons_append, List.takeWhile_cons_of_pos hc, List.takeWhile_cons_of_pos hc,
          List.dropWhile_cons_of_pos hc, List.dropWhile_cons_of_pos hc, ih.1, ih.2]
        exact ⟨rfl, rfl⟩
      · rw [List.cons_append, List.takeWhile_cons_of_neg hc, List.takeWhile_cons_of_neg hc,
          List.dropWhile_cons_of_neg hc, List.dropWhile_cons_of_neg hc]
        exact ⟨rfl, rfl⟩

theorem scanDigits_extends (text : List Char) :
    Extends after (scanDigits text) (scanDigits (text ++ after)) := by
  cases text with
  | nil =>
      cases after with
      | nil => exact .error _ _
      | cons c after =>
          rw [List.nil_append, scanDigits, scanDigits, (h c rfl).1, if_neg Bool.false_ne_true]
          exact .error _ _
  | cons c text =>
      rw [List.cons_append, scanDigits, scanDigits, (h.takeWhile_append text).1,
        (h.takeWhile_append text).2]
      split
      · exact .ok _ _
      · exact .error _ _

theorem scanWhole_extends (text : List Char) :
    Extends after (scanWhole text) (scanWhole (text ++ after)) := by
  cases text with
  | nil =>
      cases after with
      | nil => exact .error _ _
      | cons c after =>
          have hzero : c ≠ '0' := by
            rintro rfl
            cases (h '0' rfl).1
          rw [List.nil_append, scanWhole_of_ne hzero]
          exact scanDigits_extends h []
  | cons c text =>
      -- A zero stands alone, so it matters whether a digit comes behind it.
      by_cases hzero : c = '0'
      · subst hzero
        cases text with
        | nil =>
            cases after with
            | nil => exact .ok _ _
            | cons c after =>
                rw [List.cons_append, List.nil_append, scanWhole, scanWhole, (h c rfl).1,
                  if_neg Bool.false_ne_true]
                exact .ok _ _
        | cons c text =>
            rw [List.cons_append, List.cons_append, scanWhole, scanWhole]
            split
            · exact .error _ _
            · exact .ok _ _
      · rw [List.cons_append, scanWhole_of_ne hzero, scanWhole_of_ne hzero]
        exact scanDigits_extends h _

theorem scanFraction_extends (text : List Char) :
    Extends after (scanFraction text) (scanFraction (text ++ after)) := by
  cases text with
  | nil =>
      rw [List.nil_append, h.scan.1]
      exact .ok [] []
  | cons c text =>
      by_cases hpoint : c = '.'
      · subst hpoint
        rw [List.cons_append, scanFraction, scanFraction]
        exact (scanDigits_extends h text).prepend '.'
      · rw [scanFraction_of_ne (by rintro _ ⟨⟩; exact hpoint),
          scanFraction_of_ne (by rintro _ ⟨⟩; exact hpoint)]
        exact .ok _ _

theorem scanSignedDigits_extends (text : List Char) :
    Extends after (scanSignedDigits text) (scanSignedDigits (text ++ after)) := by
  cases text with
  | nil =>
      -- With no text left, what is found would have to be found in what it goes on with.
      cases after with
      | nil => exact .error _ _
      | cons c after =>
          constructor
          · rintro _ _ ⟨⟩
          · intro piece left hother
            rw [List.nil_append, scanSignedDigits] at hother
            split at hother
            · -- A sign would be taken of what comes behind the text.
              split at hother
              · next digits rest hdigits =>
                cases hother
                have hlength := congrArg List.length (scanDigits_append hdigits).1
                simp only [List.length_append, List.length_cons] at hlength
                omega
              · cases hother
            · exact (scanDigits_extends h []).backward piece left hother
  | cons c text =>
      rw [List.cons_append, scanSignedDigits, scanSignedDigits]
      split
      · exact (scanDigits_extends h text).prepend c
      · exact scanDigits_extends h (c :: text)

theorem scanExponent_extends (text : List Char) :
    Extends after (scanExponent text) (scanExponent (text ++ after)) := by
  cases text with
  | nil =>
      rw [List.nil_append, h.scan.2]
      exact .ok [] []
  | cons c text =>
      rw [List.cons_append, scanExponent, scanExponent]
      split
      · exact (scanSignedDigits_extends h text).prepend c
      · exact .ok _ _

omit h in
/-- A number is scanned part by part. -/
theorem scanNumber_eq_ok_iff {text literal left : List Char} :
    scanNumber text = .ok (literal, left) ↔ ∃ whole fraction exponent behind rest,
      scanWhole (scanSign text).2 = .ok (whole, behind) ∧
        scanFraction behind = .ok (fraction, rest) ∧ scanExponent rest = .ok (exponent, left) ∧
          literal = (scanSign text).1 ++ whole ++ fraction ++ exponent := by
  simp only [scanNumber, Except.bind_eq_ok_iff, Prod.exists]
  constructor
  · rintro ⟨whole, behind, hwhole, fraction, rest, hfraction, exponent, _, hexponent, ⟨⟩⟩
    exact ⟨whole, fraction, exponent, behind, rest, hwhole, hfraction, hexponent, rfl⟩
  · rintro ⟨whole, fraction, exponent, behind, rest, hwhole, hfraction, hexponent, rfl⟩
    exact ⟨whole, behind, hwhole, fraction, rest, hfraction, exponent, left, hexponent, rfl⟩

omit h in
theorem scanSign_append_of_ne {text : List Char} (htext : text ≠ []) :
    scanSign (text ++ after) = ((scanSign text).1, (scanSign text).2 ++ after) := by
  cases text with
  | nil => exact absurd rfl htext
  | cons c text =>
      have hother (hminus : c ≠ '-') (text : List Char) :
          scanSign (c :: text) = ([], c :: text) := by
        unfold scanSign
        split
        · next heq => exact absurd (List.cons.inj heq).1 hminus
        · rfl
      by_cases hminus : c = '-'
      · subst hminus
        rfl
      · rw [List.cons_append, hother hminus, hother hminus]
        rfl

/-- A number is scanned to its end where no more of it comes behind it. -/
theorem scanNumber_extends {text : List Char} (htext : text ≠ []) :
    Extends after (scanNumber text) (scanNumber (text ++ after)) := by
  constructor
  · -- Forward, each part is scanned in the longer text as it is in the text, and leaves more.
    intro literal left hfound
    rw [scanNumber_eq_ok_iff] at hfound ⊢
    rcases hfound with
      ⟨whole, fraction, exponent, behind, rest, hwhole, hfraction, hexponent, hliteral⟩
    rw [scanSign_append_of_ne htext]
    exact ⟨whole, fraction, exponent, behind ++ after, rest ++ after,
      (scanWhole_extends h _).forward _ _ hwhole, (scanFraction_extends h _).forward _ _ hfraction,
      (scanExponent_extends h _).forward _ _ hexponent, hliteral⟩
  · intro literal left hother
    rw [scanNumber_eq_ok_iff, scanSign_append_of_ne htext] at hother
    rw [scanNumber_eq_ok_iff]
    rcases hother with ⟨whole, fraction, exponent, _, _, hwhole, hfraction, hexponent, hliteral⟩
    -- Each part leaves at least what the last one leaves.
    obtain rfl := scanExponent_append hexponent
    obtain rfl := scanFraction_append hfraction
    refine ⟨whole, fraction, exponent, fraction ++ (exponent ++ left), exponent ++ left,
      (scanWhole_extends h _).backward _ _ ?_, (scanFraction_extends h _).backward _ _ ?_,
      (scanExponent_extends h _).backward _ _ ?_, hliteral⟩
    · simpa only [List.append_assoc] using hwhole
    · simpa only [List.append_assoc] using hfraction
    · simpa only [List.append_assoc] using hexponent

end Extends

/-! ### What no number goes on with -/

/-- No digit comes next. -/
def NoDigit (text : List Char) : Prop :=
  ∀ c ∈ text.head?, c.isDigit = false

section NoDigit

variable {text piece left : List Char}

theorem scanDigits_noDigit (h : scanDigits text = .ok (piece, left)) : NoDigit left := by
  cases text with
  | nil => cases h
  | cons c text =>
      rw [scanDigits] at h
      split at h
      · cases h
        intro d hd
        -- What is left begins where the digits end.
        have hdrop := List.head?_dropWhile_not Char.isDigit text
        rw [hd] at hdrop
        exact hdrop
      · cases h

theorem scanWhole_noDigit (h : scanWhole text = .ok (piece, left)) : NoDigit left := by
  unfold scanWhole at h
  split at h
  · split at h
    · split at h
      · cases h
      · next hd =>
        cases h
        rintro _ ⟨⟩
        exact Bool.eq_false_iff.mpr hd
    · cases h
      rintro _ ⟨⟩
  · exact scanDigits_noDigit h

theorem scanFraction_noDigit (htext : NoDigit text) (h : scanFraction text = .ok (piece, left)) :
    NoDigit left := by
  unfold scanFraction at h
  split at h
  · split at h
    · next hdigits =>
      cases h
      exact scanDigits_noDigit hdigits
    · cases h
  · cases h
    exact htext

theorem scanSignedDigits_noDigit (h : scanSignedDigits text = .ok (piece, left)) :
    NoDigit left := by
  unfold scanSignedDigits at h
  split at h
  · split at h
    · split at h
      · next hdigits =>
        cases h
        exact scanDigits_noDigit hdigits
      · cases h
    · exact scanDigits_noDigit h
  · exact scanDigits_noDigit h

theorem scanExponent_noDigit (htext : NoDigit text) (h : scanExponent text = .ok (piece, left)) :
    NoDigit left := by
  unfold scanExponent at h
  split at h
  · split at h
    · split at h
      · next hdigits =>
        cases h
        exact scanSignedDigits_noDigit hdigits
      · cases h
    · cases h
      exact htext
  · cases h
    exact htext

/-- All the digits that come belong to the number. -/
theorem scanNumber_noDigit (h : scanNumber text = .ok (piece, left)) : NoDigit left := by
  rw [scanNumber_eq_ok_iff] at h
  rcases h with ⟨_, _, _, _, _, hwhole, hfraction, hexponent, -⟩
  exact scanExponent_noDigit (scanFraction_noDigit (scanWhole_noDigit hwhole) hfraction) hexponent

/-- A number begins with its sign or with a digit. -/
theorem exists_cons_of_scanNumber (h : scanNumber text = .ok (piece, left)) :
    ∃ c rest, text = c :: rest ∧ (c = '-' ∨ c.isDigit = true) := by
  have hdigits {text digits left : List Char} (h : scanDigits text = .ok (digits, left)) :
      ∃ c rest, text = c :: rest ∧ (c = '-' ∨ c.isDigit = true) := by
    cases text with
    | nil => cases h
    | cons c rest =>
        rw [scanDigits] at h
        split at h
        · next hc => exact ⟨c, rest, rfl, .inr hc⟩
        · cases h
  rw [scanNumber_eq_ok_iff] at h
  rcases h with ⟨_, _, _, _, _, hwhole, -⟩
  -- Without a sign the whole part comes first, and it begins with a digit.
  unfold scanSign at hwhole
  split at hwhole
  · next rest => exact ⟨'-', rest, rfl, .inl rfl⟩
  · unfold scanWhole at hwhole
    split at hwhole
    · next heq => exact ⟨'0', _, heq, .inr rfl⟩
    · exact hdigits hwhole

end NoDigit

end Json

end FunctionalOptions
