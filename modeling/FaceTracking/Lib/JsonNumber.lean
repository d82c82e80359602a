import FaceTracking.Lib.JsonText

/-!
# Numbers of JSON texts

A natural number in decimal is a number of the grammar (`NumberText.ofNat`), and
`strtod` reads every number of the grammar as the rational it means, behind any
white space and in front of anything that does not go on with a number
(`strtod_number`).
-/

namespace Lib.Json

open Strtod (isDigit digitVal digitsVal)

/-! ## Natural numbers -/

/-- A decimal digit is one byte. -/
theorem utf8EncodeChar_digit {c : Char} (hc : c.isDigit = true) :
    String.utf8EncodeChar c = [UInt8.ofNat c.toNat] ∧ isDigit (UInt8.ofNat c.toNat) = true ∧
      digitVal (UInt8.ofNat c.toNat) = c.toNat - 48 := by
  have hrange : 0x30 ≤ c.toNat ∧ c.toNat ≤ 0x39 := by
    simpa [Char.isDigit, UInt32.le_iff_toNat_le] using hc
  have hall : ∀ n ≤ 0x39, 0x30 ≤ n → String.utf8EncodeChar (Char.ofNat n) = [UInt8.ofNat n] ∧
      isDigit (UInt8.ofNat n) = true ∧ digitVal (UInt8.ofNat n) = n - 48 := by
    decide +kernel
  have h := hall c.toNat hrange.2 hrange.1
  rwa [Char.ofNat_toNat] at h

theorem utf8_toString (n : Nat) :
    utf8 (toString n) = (Nat.toDigits 10 n).flatMap String.utf8EncodeChar := by
  unfold utf8
  rw [Nat.toString_eq_ofList_toDigits, String.toList_ofList]

theorem isDigit_toDigits {n : Nat} {c : Char} (hc : c ∈ Nat.toDigits 10 n) : c.isDigit = true :=
  Nat.isDigit_of_mem_toDigits (by decide) (by decide) hc

theorem toString_digits (n : Nat) : ∀ x ∈ utf8 (toString n), isDigit x = true := by
  intro x hx
  rw [utf8_toString] at hx
  obtain ⟨c, hc, hxc⟩ := List.mem_flatMap.mp hx
  obtain ⟨hone, hdigit, -⟩ := utf8EncodeChar_digit (isDigit_toDigits hc)
  rw [hone, List.mem_singleton] at hxc
  exact hxc ▸ hdigit

theorem digitsVal_toString (n : Nat) : digitsVal 10 (utf8 (toString n)) = n := by
  have hfold : ∀ (cs : List Char) (v : Nat), (∀ c ∈ cs, c.isDigit = true) →
      (cs.flatMap String.utf8EncodeChar).foldl (fun v c => v * 10 + digitVal c) v =
        Nat.ofDigitChars 10 cs v := by
    intro cs
    induction cs with
    | nil => intro v _; rfl
    | cons c cs ih =>
      intro v hcs
      obtain ⟨hone, -, hval⟩ := utf8EncodeChar_digit (hcs c List.mem_cons_self)
      rw [List.flatMap_cons, hone, List.singleton_append, List.foldl_cons,
        ih _ fun x hx => hcs x (List.mem_cons_of_mem c hx), Nat.ofDigitChars_cons, hval,
        Nat.mul_comm v 10]
      rfl
  unfold digitsVal
  rw [utf8_toString, hfold _ 0 fun c hc => isDigit_toDigits hc, Nat.ofDigitChars_ten_toDigits]

/-- A decimal numeral begins with a zero only if it is one. -/
theorem toDigits_zero_head (n : Nat) (h : (Nat.toDigits 10 n).head? = some '0') :
    Nat.toDigits 10 n = ['0'] := by
  induction n using Nat.strong_induction_on with
  | _ n ih =>
    by_cases hn : n < 10
    · rw [Nat.toDigits_of_lt_base hn] at h ⊢
      exact congrArg (fun c => [c]) (Option.some.inj h)
    · have hsplit := Nat.toDigits_of_base_le (b := 10) (by decide) (Nat.le_of_not_lt hn)
      have hhead : (Nat.toDigits 10 (n / 10)).head? = some '0' := by
        rw [hsplit, List.head?_append_of_ne_nil _ Nat.toDigits_ne_nil] at h
        exact h
      have hzero := ih (n / 10) (by omega) hhead
      have hval := Nat.ofDigitChars_ten_toDigits (n := n / 10)
      rw [hzero] at hval
      have hval' : n / 10 = 0 := hval.symm
      omega

theorem toString_zero_head (n : Nat) (h : (utf8 (toString n)).head? = some 0x30) :
    utf8 (toString n) = [0x30] := by
  rw [utf8_toString] at h ⊢
  have hzero : (Nat.toDigits 10 n).head? = some '0' := by
    obtain ⟨c, cs, hcs⟩ := List.exists_cons_of_ne_nil (Nat.toDigits_ne_nil (n := n) (b := 10))
    have hdigit : c.isDigit = true := isDigit_toDigits (hcs ▸ List.mem_cons_self)
    obtain ⟨hone, -, hval⟩ := utf8EncodeChar_digit hdigit
    rw [hcs, List.flatMap_cons, hone] at h
    have hbyte : UInt8.ofNat c.toNat = 0x30 := Option.some.inj h
    rw [hbyte] at hval
    have hrange : 0x30 ≤ c.toNat ∧ c.toNat ≤ 0x39 := by
      simpa [Char.isDigit, UInt32.le_iff_toNat_le] using hdigit
    have hval' : 0 = c.toNat - 48 := hval
    have hnat : c.toNat = 48 := by omega
    rw [hcs, List.head?_cons, ← Char.ofNat_toNat c, hnat]
  rw [toDigits_zero_head n hzero]
  rfl

/-- A natural number in decimal. -/
def NumberText.ofNat (n : Nat) : NumberText where
  minus := false
  int :=
    { digits := utf8 (toString n)
      ne_nil := by
        intro h
        have hval := digitsVal_toString n
        rw [h] at hval
        have hn : n = 0 := hval.symm
        subst hn
        exact absurd h (by decide)
      all := toString_digits n }
  int_zero := toString_zero_head n
  frac := none
  exp := none

@[simp] theorem NumberText.ofNat_text (n : Nat) : (NumberText.ofNat n).text = utf8 (toString n) := by
  simp [NumberText.ofNat, NumberText.text, NumberText.magnitudeText, NumberText.fracDigits,
    NumberText.expText]

@[simp] theorem NumberText.ofNat_value (n : Nat) : (NumberText.ofNat n).value = n := by
  have hint : digitsVal 10 (NumberText.ofNat n).int.digits = n := digitsVal_toString n
  have hfrac : (NumberText.ofNat n).fracDigits = [] := rfl
  have hexp : (NumberText.ofNat n).expValue = 0 := rfl
  change (NumberText.ofNat n).magnitude = n
  unfold NumberText.magnitude
  rw [hint, hfrac, hexp]
  simp [digitsVal]

/-! ## Numbers as `strtod` reads them -/

/-- Text that does not go on with a number. -/
def NumberEnds (r : Bytes) : Prop :=
  ∀ c ∈ r.head?, isDigit c = false ∧ c ≠ 0x2E ∧ Strtod.toLower c ≠ 0x65 ∧ Strtod.toLower c ≠ 0x78

theorem takeWhile_digits {ds r : Bytes} (hds : ∀ c ∈ ds, isDigit c = true)
    (hr : ∀ c ∈ r.head?, isDigit c = false) :
    (ds ++ r).takeWhile isDigit = ds ∧ (ds ++ r).dropWhile isDigit = r := by
  rw [List.takeWhile_append_of_pos hds, List.dropWhile_append_of_pos hds]
  cases r with
  | nil => simp
  | cons c r =>
    have hc := hr c rfl
    simp [hc]

theorem digitsVal_append (b : Nat) (ds es : Bytes) :
    digitsVal b (ds ++ es) = digitsVal b ds * b ^ es.length + digitsVal b es := by
  have hfold : ∀ (es : Bytes) (v : Nat), es.foldl (fun v c => v * b + digitVal c) v =
      v * b ^ es.length + es.foldl (fun v c => v * b + digitVal c) 0 := by
    intro es
    induction es with
    | nil => simp
    | cons e es ih =>
      intro v
      rw [List.foldl_cons, ih, List.foldl_cons, ih (0 * b + digitVal e), List.length_cons, pow_succ]
      ring
  unfold digitsVal
  rw [List.foldl_append, hfold]

theorem isDigit_toNat {c : UInt8} (h : isDigit c = true) : 0x30 ≤ c.toNat ∧ c.toNat ≤ 0x39 := by
  simpa [isDigit, UInt8.le_iff_toNat_le] using h

/-- Letters are not digits, in either case. -/
theorem toLower_ne_of_isDigit {c d : UInt8} (h : isDigit c = true) (hd : 0x3A ≤ d.toNat) :
    Strtod.toLower c ≠ d := by
  obtain ⟨hlo, hhi⟩ := isDigit_toNat h
  have hc : Strtod.toLower c = c := by
    unfold Strtod.toLower
    rw [if_neg]
    simp only [Bool.and_eq_true, decide_eq_true_eq, UInt8.le_iff_toNat_le, not_and]
    intro h41
    have h41' : 0x41 ≤ c.toNat := h41
    omega
  rw [hc]
  rintro rfl
  omega

theorem takeWord_none {w₀ c : UInt8} (h : Strtod.toLower c ≠ w₀) (w t : Bytes) :
    Strtod.takeWord (w₀ :: w) (c :: t) = none := by
  unfold Strtod.takeWord
  rw [if_neg]
  intro heq
  rw [List.length_cons, List.take_succ_cons, List.map_cons] at heq
  exact h (List.cons.inj heq).1

theorem takeSign_digit {c : UInt8} (h : isDigit c = true) (t : Bytes) :
    Strtod.takeSign (c :: t) = (false, c :: t) := by
  obtain ⟨hlo, hhi⟩ := isDigit_toNat h
  unfold Strtod.takeSign
  split
  · rename_i heq
    cases heq
    exact absurd hlo (by decide)
  · rename_i heq
    cases heq
    exact absurd hlo (by decide)
  · rfl

namespace Digits

theorem exists_cons (d : Digits) : ∃ c t, d.digits = c :: t ∧ isDigit c = true := by
  obtain ⟨c, t, h⟩ := List.exists_cons_of_ne_nil d.ne_nil
  exact ⟨c, t, h, d.all c (h ▸ List.mem_cons_self)⟩

end Digits

namespace NumberText

/-- The exponent is read as printed, and as 0 if there is none. -/
theorem takeExp_expText (n : NumberText) {r : Bytes} (hr : NumberEnds r) :
    Strtod.takeExp 0x65 (n.expText ++ r) = n.expValue := by
  unfold expText expValue
  cases n.exp with
  | none =>
    cases r with
    | nil => rfl
    | cons c r =>
      obtain ⟨-, -, he, -⟩ := hr c rfl
      -- what follows is no exponent
      exact if_neg he
  | some e =>
    have hdigits := (takeWhile_digits e.digits.all fun c hc => (hr c hc).1).1
    -- a sign, if there is one, and then a digit
    obtain ⟨c, t, hct, hc⟩ := e.digits.exists_cons
    have hletter : Strtod.toLower (if e.upper then 0x45 else 0x65) = 0x65 := by
      cases e.upper <;> decide
    have hsign : Strtod.takeSign (e.signText ++ (e.digits.digits ++ r)) =
        (decide (e.sign = some true), e.digits.digits ++ r) := by
      unfold Exponent.signText
      rcases e.sign with _ | _ | _
      · rw [hct]
        exact takeSign_digit hc _
      · rfl
      · rfl
    simp only [Option.map_some, Option.getD_some, Exponent.text, List.cons_append,
      List.append_assoc, Strtod.takeExp, hletter, if_true, hsign, hdigits, Exponent.value,
      decide_eq_true_eq]

/-- Neither an exponent nor the end of a number looks like a digit, a dot or an
`x`. -/
theorem exp_head (n : NumberText) {r : Bytes} (hr : NumberEnds r) :
    ∀ c ∈ (n.expText ++ r).head?, isDigit c = false ∧ c ≠ 0x2E ∧ Strtod.toLower c ≠ 0x78 := by
  intro c hc
  unfold expText at hc
  cases hexp : n.exp with
  | none =>
    rw [hexp] at hc
    obtain ⟨hdigit, hpoint, -, hx⟩ := hr c hc
    exact ⟨hdigit, hpoint, hx⟩
  | some e =>
    rw [hexp] at hc
    simp only [Option.map_some, Option.getD_some, Exponent.text, List.cons_append,
      List.head?_cons, Option.mem_some_iff] at hc
    subst hc
    cases e.upper <;> decide

/-- Integer part, fraction and exponent are read as one magnitude. -/
theorem takeNumber_magnitudeText (n : NumberText) {r : Bytes} (hr : NumberEnds r) :
    Strtod.takeNumber isDigit 10 10 0x65 (n.magnitudeText ++ r) = some n.magnitude := by
  have hhead := n.exp_head hr
  have hexp := n.takeExp_expText hr
  have hvalue : (digitsVal 10 (n.int.digits ++ n.fracDigits) : ℚ) / ((10 : Nat) : ℚ) ^
      n.fracDigits.length * ((10 : Nat) : ℚ) ^ n.expValue = n.magnitude := by
    have hten : (10 : ℚ) ^ n.fracDigits.length ≠ 0 := by positivity
    unfold magnitude
    rw [digitsVal_append]
    push_cast
    rw [add_div, mul_div_assoc, div_self hten, mul_one]
  have hrest : n.magnitudeText ++ r = n.int.digits ++
      ((if n.frac.isSome then [0x2E] else []) ++ (n.fracDigits ++ (n.expText ++ r))) := by
    simp [magnitudeText]
  rw [hrest]
  unfold Strtod.takeNumber
  cases hfrac : n.frac with
  | none =>
    have hnofrac : n.fracDigits = [] := by
      unfold fracDigits
      rw [hfrac]
      rfl
    obtain ⟨htake, hdrop⟩ := takeWhile_digits n.int.all fun c hc => (hhead c hc).1
    have hpoint : ∀ t, n.expText ++ r ≠ 0x2E :: t := by
      intro t ht
      rw [ht] at hhead
      exact (hhead 0x2E rfl).2.1 rfl
    rw [hnofrac] at hvalue
    simp only [Option.isSome_none, Bool.false_eq_true, if_false, hnofrac, List.nil_append, htake,
      hdrop]
    rw [if_neg fun h => n.int.ne_nil h.1, hexp, hvalue]
  | some f =>
    have hsomefrac : n.fracDigits = f.digits := by
      unfold fracDigits
      rw [hfrac]
      rfl
    obtain ⟨htake, hdrop⟩ := takeWhile_digits (r := 0x2E :: (f.digits ++ (n.expText ++ r))) n.int.all
      fun c hc => by
        cases hc
        decide
    obtain ⟨htake', hdrop'⟩ := takeWhile_digits f.all fun c hc => (hhead c hc).1
    rw [hsomefrac] at hvalue
    simp only [Option.isSome_some, if_true, hsomefrac, List.singleton_append, htake, hdrop, htake',
      hdrop']
    rw [if_neg fun h => n.int.ne_nil h.1, hexp, hvalue]

/-- No word that begins with a letter stands in front of a number, and no
hexadecimal prefix. -/
theorem takeWord_magnitudeText (n : NumberText) {r : Bytes} (hr : NumberEnds r) :
    Strtod.takeWord (utf8 "inf") (n.magnitudeText ++ r) = none ∧
      Strtod.takeWord (utf8 "nan") (n.magnitudeText ++ r) = none ∧
      Strtod.takeWord (utf8 "0x") (n.magnitudeText ++ r) = none := by
  obtain ⟨c, t, hct, hc⟩ := n.int.exists_cons
  have hmag : ∃ t', n.magnitudeText ++ r = c :: t' := ⟨_, by rw [magnitudeText, hct]; rfl⟩
  obtain ⟨t', ht'⟩ := hmag
  refine ⟨?_, ?_, ?_⟩
  · rw [ht']
    exact takeWord_none (toLower_ne_of_isDigit hc (by decide)) _ _
  · rw [ht']
    exact takeWord_none (toLower_ne_of_isDigit hc (by decide)) _ _
  · by_cases hzero : c = 0x30
    · -- a zero stands alone, so what follows is a point, an exponent or the end
      have hone : n.int.digits = [0x30] := n.int_zero (by rw [hct, hzero]; rfl)
      have hnext : ∀ d ∈ (((if n.frac.isSome then [0x2E] else []) : Bytes) ++
          (n.fracDigits ++ (n.expText ++ r))).head?, Strtod.toLower d ≠ 0x78 := by
        unfold fracDigits
        cases n.frac with
        | none => exact fun d hd => (n.exp_head hr d hd).2.2
        | some f =>
          intro d hd
          cases hd
          decide
      have hsplit : n.magnitudeText ++ r = 0x30 :: (((if n.frac.isSome then [0x2E] else []) :
          Bytes) ++ (n.fracDigits ++ (n.expText ++ r))) := by
        rw [magnitudeText, hone]
        simp
      rw [hsplit, show utf8 "0x" = [0x30, 0x78] from rfl]
      generalize ((if n.frac.isSome then [0x2E] else []) : Bytes) ++
        (n.fracDigits ++ (n.expText ++ r)) = rest at hnext ⊢
      unfold Strtod.takeWord
      rw [if_neg]
      intro heq
      cases rest with
      | nil => exact absurd (congrArg List.length heq) (by decide)
      | cons d rest => exact hnext d rfl (List.cons.inj (List.cons.inj heq).2).1
    · have hlow : Strtod.toLower c ≠ 0x30 := by
        obtain ⟨hlo, hhi⟩ := isDigit_toNat hc
        unfold Strtod.toLower
        rw [if_neg]
        · exact hzero
        · simp only [Bool.and_eq_true, decide_eq_true_eq, UInt8.le_iff_toNat_le, not_and]
          intro h41
          have h41' : 0x41 ≤ c.toNat := h41
          omega
      rw [ht']
      exact takeWord_none hlow _ _

end NumberText

/-- **Numbers.** `strtod` reads the value of a number behind any white space. -/
theorem strtod_number (w : List Blank) (n : NumberText) {r : Bytes} (hr : NumberEnds r) :
    strtod (blanks w ++ (n.text ++ r)) = some (.fin n.value) := by
  obtain ⟨c, t, hct, hc⟩ := n.int.exists_cons
  have hmag : ∃ t', n.magnitudeText ++ r = c :: t' := ⟨_, by rw [NumberText.magnitudeText, hct]; rfl⟩
  obtain ⟨t', ht'⟩ := hmag
  have hspace : (blanks w ++ (n.text ++ r)).dropWhile Strtod.isSpace = n.text ++ r := by
    rw [List.dropWhile_append_of_pos]
    · unfold NumberText.text
      cases n.minus with
      | true => rfl
      | false =>
        have hdigit : Strtod.isSpace c = false := by
          obtain ⟨hlo, hhi⟩ := isDigit_toNat hc
          simp only [Strtod.isSpace, Bool.or_eq_false_iff, beq_eq_false_iff_ne, ne_eq,
            Bool.and_eq_false_iff, decide_eq_false_iff_not]
          refine ⟨?_, .inr ?_⟩
          · rintro rfl
            exact absurd hlo (by decide)
          · rw [UInt8.le_iff_toNat_le]
            have : (0x0D : UInt8).toNat = 13 := rfl
            omega
        simp only [Bool.false_eq_true, if_false, List.nil_append, ht']
        rw [List.dropWhile_cons_of_neg (by simp [hdigit])]
    · intro x hx
      rcases mem_blanks hx with rfl | rfl | rfl | rfl <;> decide
  have hsign : Strtod.takeSign (n.text ++ r) = (n.minus, n.magnitudeText ++ r) := by
    unfold NumberText.text
    cases n.minus with
    | true => rfl
    | false =>
      simp only [Bool.false_eq_true, if_false, List.nil_append, ht']
      exact takeSign_digit hc t'
  obtain ⟨hinf, hnan, hhex⟩ := n.takeWord_magnitudeText hr
  unfold strtod
  simp only [hspace, hsign, Strtod.takeMagnitude, hinf, hnan, hhex, Option.isSome_none,
    Bool.false_eq_true, if_false, n.takeNumber_magnitudeText hr, Option.map_some]
  unfold NumberText.value
  cases n.minus <;> rfl

/-- `strtod` finds nothing behind white space if what stands there begins no number. -/
theorem strtod_none (w : List Blank) {c : UInt8} (hspace : Strtod.isSpace c = false)
    (hdigit : isDigit c = false) (hother : c ≠ 0x2B ∧ c ≠ 0x2D ∧ c ≠ 0x2E)
    (hletter : Strtod.toLower c ≠ 0x69 ∧ Strtod.toLower c ≠ 0x6E ∧ Strtod.toLower c ≠ 0x30)
    (t : Bytes) : strtod (blanks w ++ c :: t) = none := by
  have hdrop : (blanks w ++ c :: t).dropWhile Strtod.isSpace = c :: t := by
    rw [List.dropWhile_append_of_pos, List.dropWhile_cons_of_neg (by simp [hspace])]
    intro x hx
    rcases mem_blanks hx with rfl | rfl | rfl | rfl <;> decide
  have hsign : Strtod.takeSign (c :: t) = (false, c :: t) := by
    unfold Strtod.takeSign
    split
    · rename_i heq
      exact absurd (List.cons.inj heq).1 hother.1
    · rename_i heq
      exact absurd (List.cons.inj heq).1 hother.2.1
    · rfl
  have hnumber : Strtod.takeNumber isDigit 10 10 0x65 (c :: t) = none := by
    unfold Strtod.takeNumber
    rw [List.takeWhile_cons_of_neg (by simp [hdigit]), List.dropWhile_cons_of_neg (by simp [hdigit])]
    simp only
    split
    · rename_i heq
      exact absurd (List.cons.inj heq).1 hother.2.2
    · simp
  have hinf := takeWord_none hletter.1 [0x6E, 0x66] t
  have hnan := takeWord_none hletter.2.1 [0x61, 0x6E] t
  have hhex := takeWord_none hletter.2.2 [0x78] t
  unfold strtod
  simp only [hdrop, hsign, Strtod.takeMagnitude, show utf8 "inf" = [0x69, 0x6E, 0x66] from rfl,
    show utf8 "nan" = [0x6E, 0x61, 0x6E] from rfl, show utf8 "0x" = [0x30, 0x78] from rfl, hinf, hnan,
    hhex, Option.isSome_none, Bool.false_eq_true, if_false, hnumber, Option.map_none]

end Lib.Json
