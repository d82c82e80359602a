import FaceTracking.Lib.Json
import FaceTracking.Lib.Strtod
import FaceTracking.Lib.Utf8

/-!
# JSON texts

The concrete syntax of RFC 8259 as far as arrays of flat objects go: every
choice a writer has (white space, escapes, the spelling of a number, the order
of the members) is a field of the syntax tree, `text` is what is written and
`decode` and `value` are what it means. A text is one of JSON when it is the
`text` of some tree.
-/

namespace Lib.Json

open Strtod (isDigit isXDigit digitVal digitsVal)

/-! ## White space -/

inductive Blank where
  | space
  | tab
  | lineFeed
  | carriageReturn
deriving DecidableEq, Repr

def Blank.byte : Blank → UInt8
  | .space => 0x20
  | .tab => 0x09
  | .lineFeed => 0x0A
  | .carriageReturn => 0x0D

def blanks (w : List Blank) : Bytes := w.map Blank.byte

/-! ## Strings -/

/-- A character that may stand for itself between quotes. -/
structure Unescaped where
  char : Char
  printable : 0x20 ≤ char.toNat
  ne_quotation : char ≠ '"'
  ne_solidus : char ≠ '\\'
deriving DecidableEq

inductive Escape where
  | quotation
  | reverseSolidus
  | solidus
  | backspace
  | formFeed
  | lineFeed
  | carriageReturn
  | tab
deriving DecidableEq, Repr

/-- The letter behind the backslash. -/
def Escape.letter : Escape → UInt8
  | .quotation => 0x22
  | .reverseSolidus => 0x5C
  | .solidus => 0x2F
  | .backspace => 0x62
  | .formFeed => 0x66
  | .lineFeed => 0x6E
  | .carriageReturn => 0x72
  | .tab => 0x74

def Escape.char : Escape → Char
  | .quotation => '"'
  | .reverseSolidus => '\\'
  | .solidus => '/'
  | .backspace => '\x08'
  | .formFeed => '\x0C'
  | .lineFeed => '\n'
  | .carriageReturn => '\r'
  | .tab => '\t'

/-- A hexadecimal digit, in either case. -/
abbrev HexDigit := { b : UInt8 // isXDigit b = true }

inductive Piece where
  | raw (c : Unescaped)
  | esc (e : Escape)
  /-- A UTF-16 code unit behind `\u`. -/
  | unit (a b c d : HexDigit)
deriving DecidableEq

def Piece.text : Piece → Bytes
  | .raw c => String.utf8EncodeChar c.char
  | .esc e => [0x5C, e.letter]
  | .unit a b c d => [0x5C, 0x75, a, b, c, d]

/-- A string as it is spelled. -/
abbrev StringText := List Piece

namespace StringText

/-- What stands between the quotes. -/
def body (s : StringText) : Bytes := s.flatMap Piece.text

def text (s : StringText) : Bytes := 0x22 :: s.body ++ [0x22]

def codeUnit (a b c d : HexDigit) : Nat := digitsVal 16 [a, b, c, d]

/-- The characters a string stands for; `none` if a surrogate is on its own, so
that there is no Unicode string. -/
def decodeChars : List Piece → Option (List Char)
  | [] => some []
  | .raw c :: s => (decodeChars s).map (c.char :: ·)
  | .esc e :: s => (decodeChars s).map (e.char :: ·)
  | .unit a b c d :: s =>
    let hi := codeUnit a b c d
    if hi < 0xD800 ∨ 0xDFFF < hi then (decodeChars s).map (Char.ofNat hi :: ·)
    else
      match s with
      | .unit a' b' c' d' :: s =>
        let lo := codeUnit a' b' c' d'
        if hi < 0xDC00 ∧ 0xDC00 ≤ lo ∧ lo ≤ 0xDFFF then
          (decodeChars s).map
            (Char.ofNat (0x10000 + (hi - 0xD800) * 0x400 + (lo - 0xDC00)) :: ·)
        else none
      | _ => none

def decode (s : StringText) : Option String := (decodeChars s).map String.ofList

end StringText

/-! ## Numbers -/

/-- At least one digit. -/
structure Digits where
  digits : Bytes
  ne_nil : digits ≠ []
  all : ∀ c ∈ digits, isDigit c = true
deriving DecidableEq

structure Exponent where
  upper : Bool
  /-- The sign, if one is written; `true` for a minus. -/
  sign : Option Bool
  digits : Digits
deriving DecidableEq

structure NumberText where
  minus : Bool
  int : Digits
  /-- No zero in front of other digits. -/
  int_zero : int.digits.head? = some 0x30 → int.digits = [0x30]
  frac : Option Digits
  exp : Option Exponent
deriving DecidableEq

namespace Exponent

def signText (e : Exponent) : Bytes :=
  match e.sign with
  | none => []
  | some false => [0x2B]
  | some true => [0x2D]

def text (e : Exponent) : Bytes :=
  (if e.upper then 0x45 else 0x65) :: (e.signText ++ e.digits.digits)

def value (e : Exponent) : Int :=
  if e.sign = some true then - (digitsVal 10 e.digits.digits : Int)
  else digitsVal 10 e.digits.digits

end Exponent

namespace NumberText

def fracDigits (n : NumberText) : Bytes := (n.frac.map Digits.digits).getD []

def expText (n : NumberText) : Bytes := (n.exp.map Exponent.text).getD []

def expValue (n : NumberText) : Int := (n.exp.map Exponent.value).getD 0

/-- The number without its sign. -/
def magnitudeText (n : NumberText) : Bytes :=
  n.int.digits ++ ((if n.frac.isSome then [0x2E] else []) ++ (n.fracDigits ++ n.expText))

def text (n : NumberText) : Bytes := (if n.minus then [0x2D] else []) ++ n.magnitudeText

def magnitude (n : NumberText) : ℚ :=
  (digitsVal 10 n.int.digits + digitsVal 10 n.fracDigits / 10 ^ n.fracDigits.length) *
    10 ^ n.expValue

def value (n : NumberText) : ℚ := if n.minus then - n.magnitude else n.magnitude

end NumberText

/-! ## Values, members, objects and arrays -/

inductive ValueText where
  | str (s : StringText)
  | num (n : NumberText)
  | bool (b : Bool)
deriving DecidableEq

def ValueText.text : ValueText → Bytes
  | .str s => s.text
  | .num n => n.text
  | .bool true => utf8 "true"
  | .bool false => utf8 "false"

/-- What a value means. -/
inductive Datum where
  | str (s : Option String)
  | num (q : ℚ)
  | bool (b : Bool)
deriving DecidableEq

namespace Datum

def string? : Datum → Option String
  | str s => s
  | _ => none

def number? : Datum → Option ℚ
  | num q => some q
  | _ => none

def bool? : Datum → Option Bool
  | bool b => some b
  | _ => none

end Datum

def ValueText.value : ValueText → Datum
  | .str s => .str s.decode
  | .num n => .num n.value
  | .bool b => .bool b

structure Member where
  before : List Blank
  key : StringText
  beforeColon : List Blank
  afterColon : List Blank
  value : ValueText
  after : List Blank
deriving DecidableEq

def Member.text (m : Member) : Bytes :=
  blanks m.before ++ (m.key.text ++ (blanks m.beforeColon ++ 0x3A :: (blanks m.afterColon ++
    (m.value.text ++ blanks m.after))))

/-- Texts separated by commas. -/
def commaSeparated : List Bytes → Bytes
  | [] => []
  | [t] => t
  | t :: ts => t ++ 0x2C :: commaSeparated ts

/-- An object whose values are strings, numbers and booleans. -/
structure ObjectText where
  before : List Blank
  members : List Member
  inside : List Blank
  after : List Blank
deriving DecidableEq

namespace ObjectText

def text (o : ObjectText) : Bytes :=
  blanks o.before ++ 0x7B :: (commaSeparated (o.members.map Member.text) ++
    (blanks o.inside ++ 0x7D :: blanks o.after))

/-- What the object means: its members by name. -/
def decode (o : ObjectText) : List (Option String × Datum) :=
  o.members.map fun m => (m.key.decode, m.value.value)

end ObjectText

/-- No two members of the same name. -/
def UniqueKeys (o : List (Option String × Datum)) : Prop := (o.filterMap Prod.fst).Nodup

instance (o : List (Option String × Datum)) : Decidable (UniqueKeys o) :=
  inferInstanceAs (Decidable (List.Nodup _))

/-- The value of a member. -/
def get? (o : List (Option String × Datum)) (k : String) : Option Datum :=
  (o.find? fun m => m.1 = some k).map Prod.snd

/-- If names are unique, the member found for a name is the one with it. -/
theorem get?_eq_some_iff {o : List (Option String × Datum)} (h : UniqueKeys o) {k : String}
    {d : Datum} : get? o k = some d ↔ (some k, d) ∈ o := by
  induction o with
  | nil => simp [get?]
  | cons m o ih =>
    obtain ⟨name, v⟩ := m
    have htail : UniqueKeys o := by
      unfold UniqueKeys at h ⊢
      cases name with
      | none => simpa using h
      | some k' => exact (List.nodup_cons.mp h).2
    by_cases hname : name = some k
    · subst hname
      have hnot : ∀ d', (some k, d') ∉ o := by
        intro d' hmem
        have hhead : k ∉ o.filterMap Prod.fst := (List.nodup_cons.mp h).1
        exact hhead (List.mem_filterMap.mpr ⟨_, hmem, rfl⟩)
      have hget : get? ((some k, v) :: o) k = some v := by simp [get?]
      rw [hget, List.mem_cons]
      constructor
      · rintro ⟨⟩
        exact .inl rfl
      · rintro (heq | hmem)
        · cases heq
          rfl
        · exact absurd hmem (hnot d)
    · have hget : get? ((name, v) :: o) k = get? o k := by simp [get?, hname]
      rw [hget, ih htail, List.mem_cons]
      constructor
      · exact .inr
      · rintro (heq | hmem)
        · cases heq
          exact absurd rfl hname
        · exact hmem

/-- The order of the members does not matter. -/
theorem get?_perm {o o' : List (Option String × Datum)} (h : UniqueKeys o) (hperm : o.Perm o')
    (k : String) : get? o k = get? o' k := by
  have h' : UniqueKeys o' := (hperm.filterMap Prod.fst).nodup_iff.mp h
  ext d
  rw [get?_eq_some_iff h, get?_eq_some_iff h', hperm.mem_iff]

/-- An array of such objects. -/
structure ArrayText where
  before : List Blank
  elements : List ObjectText
  inside : List Blank
  after : List Blank
deriving DecidableEq

namespace ArrayText

def text (a : ArrayText) : Bytes :=
  blanks a.before ++ 0x5B :: (commaSeparated (a.elements.map ObjectText.text) ++
    (blanks a.inside ++ 0x5D :: blanks a.after))

def decode (a : ArrayText) : List (List (Option String × Datum)) :=
  a.elements.map ObjectText.decode

end ArrayText

/-! ## Which bytes a text is made of -/

theorem mem_blanks {w : List Blank} {x : UInt8} (h : x ∈ blanks w) :
    x = 0x20 ∨ x = 0x09 ∨ x = 0x0A ∨ x = 0x0D := by
  obtain ⟨b, -, rfl⟩ := List.mem_map.mp h
  cases b with
  | space => exact .inl rfl
  | tab => exact .inr (.inl rfl)
  | lineFeed => exact .inr (.inr (.inl rfl))
  | carriageReturn => exact .inr (.inr (.inr rfl))

/-- Only an escaped quotation mark puts one into the text of a string. -/
theorem Piece.quotation_not_mem {p : Piece} (h : p ≠ .esc .quotation) : 0x22 ∉ p.text := by
  cases p with
  | raw c => exact fun hq => (not_mem_utf8EncodeChar c.ne_quotation c.ne_solidus _ hq).1 rfl
  | esc e => cases e <;> first | exact absurd rfl h | decide
  | unit a b c d =>
    have hdigit : ∀ x : HexDigit, (0x22 : UInt8) ≠ x := by
      rintro ⟨x, hx⟩ rfl
      revert hx
      decide
    simp [Piece.text, hdigit]

/-- No piece's text begins with another one's. -/
theorem Piece.text_append_inj {p q : Piece} {s t : Bytes} (h : p.text ++ s = q.text ++ t) :
    p = q ∧ s = t := by
  have hraw : ∀ (c : Unescaped) (s t : Bytes), String.utf8EncodeChar c.char ++ s ≠ 0x5C :: t := by
    intro c s t heq
    have hne := not_mem_utf8EncodeChar c.ne_quotation c.ne_solidus
    cases hbytes : String.utf8EncodeChar c.char with
    | nil => exact absurd hbytes (by simp)
    | cons b bs =>
      rw [hbytes] at heq hne
      exact (hne b List.mem_cons_self).2 (List.cons.inj heq).1
  have hunit : ∀ e : Escape, e.letter ≠ 0x75 := by
    intro e
    cases e <;> decide
  have hletter : ∀ e e' : Escape, e.letter = e'.letter → e = e' := by
    intro e e'
    cases e <;> cases e' <;> decide
  cases p with
  | raw c =>
    cases q with
    | raw d =>
      obtain ⟨hchar, htail⟩ := utf8EncodeChar_append_inj h
      cases c
      cases d
      cases hchar
      exact ⟨rfl, htail⟩
    | esc e => exact absurd h (hraw c s _)
    | unit => exact absurd h (hraw c s _)
  | esc e =>
    cases q with
    | raw d => exact absurd h.symm (hraw d t _)
    | esc e' =>
      obtain ⟨hhead, htail⟩ := List.cons.inj (List.cons.inj h).2
      exact ⟨congrArg _ (hletter e e' hhead), htail⟩
    | unit => exact absurd (List.cons.inj (List.cons.inj h).2).1 (hunit e)
  | unit a b c d =>
    cases q with
    | raw d => exact absurd h.symm (hraw d t _)
    | esc e => exact absurd (List.cons.inj (List.cons.inj h).2).1.symm (hunit e)
    | unit a' b' c' d' =>
      simp only [Piece.text, List.cons_append, List.nil_append, List.cons.injEq, true_and] at h
      obtain ⟨ha, hb, hc, hd, htail⟩ := h
      rw [Subtype.ext ha, Subtype.ext hb, Subtype.ext hc, Subtype.ext hd]
      exact ⟨rfl, htail⟩

theorem Piece.text_ne_nil (p : Piece) : p.text ≠ [] := by
  cases p with
  | raw c => simp [Piece.text]
  | esc e => exact List.cons_ne_nil _ _
  | unit a b c d => exact List.cons_ne_nil _ _

/-- **A text spells one string**: what stands between the quotes determines its
pieces. -/
theorem StringText.body_injective : Function.Injective StringText.body := by
  intro s
  induction s with
  | nil =>
    intro s' h
    cases s' with
    | nil => rfl
    | cons q s' => exact absurd (List.append_eq_nil_iff.mp h.symm).1 q.text_ne_nil
  | cons p s ih =>
    intro s' h
    cases s' with
    | nil => exact absurd (List.append_eq_nil_iff.mp h).1 p.text_ne_nil
    | cons q s' =>
      obtain ⟨hpiece, htail⟩ := Piece.text_append_inj h
      rw [hpiece, ih htail]

/-- Letters of ASCII and all characters beyond it. -/
def Letters (k : String) : Prop := ∀ c ∈ k.toList, c.isAlpha = true ∨ 0x80 ≤ c.toNat

-- character by character of the string, not of the type
instance (k : String) : Decidable (Letters k) :=
  List.decidableBAll (p := fun c : Char => c.isAlpha = true ∨ 0x80 ≤ c.toNat) k.toList

theorem Letters.not_mem {k : String} (hk : Letters k) {b : UInt8} (hb : b.toNat < 0x80)
    (hletter : (Char.ofNat b.toNat).isAlpha = false) : b ∉ utf8 k := by
  intro hmem
  obtain ⟨c, hc, hbc⟩ := List.mem_flatMap.mp hmem
  have hcb := eq_of_mem_utf8EncodeChar hbc hb
  rcases hk c hc with halpha | hbeyond
  · rw [← hcb, Char.ofNat_toNat, halpha] at hletter
    cases hletter
  · omega

/-- A colon in the text of a string is one of its characters. -/
theorem colon_not_mem_body {s : StringText} {cs : List Char}
    (h : StringText.decodeChars s = some cs) (hcolon : ':' ∉ cs) : 0x3A ∉ s.body := by
  have hunit : ∀ a b c d : HexDigit, (0x3A : UInt8) ∉ (Piece.unit a b c d).text := by
    have hdigit : ∀ x : HexDigit, (0x3A : UInt8) ≠ x := by
      rintro ⟨x, hx⟩ rfl
      revert hx
      decide
    intro a b c d
    simp [Piece.text, hdigit]
  unfold StringText.body
  fun_induction StringText.decodeChars s generalizing cs with
  | case1 => exact List.not_mem_nil
  | case2 c s ih =>
    obtain ⟨cs, hcs, rfl⟩ := Option.map_eq_some_iff.mp h
    rw [List.flatMap_cons, List.mem_append, not_or]
    refine ⟨fun hmem => hcolon ?_, ih hcs fun hmem => hcolon (List.mem_cons_of_mem _ hmem)⟩
    have heq := eq_of_mem_utf8EncodeChar hmem (by decide)
    rw [Char.ext (UInt32.toNat_inj.mp (show c.char.val.toNat = ':'.val.toNat from heq))]
    exact List.mem_cons_self
  | case3 e s ih =>
    obtain ⟨cs, hcs, rfl⟩ := Option.map_eq_some_iff.mp h
    rw [List.flatMap_cons, List.mem_append, not_or]
    exact ⟨by cases e <;> decide, ih hcs fun hmem => hcolon (List.mem_cons_of_mem _ hmem)⟩
  | case4 a b c d s hi hscalar =>
    rename_i ih
    obtain ⟨cs, hcs, rfl⟩ := Option.map_eq_some_iff.mp h
    rw [List.flatMap_cons, List.mem_append, not_or]
    exact ⟨hunit a b c d, ih hcs fun hmem => hcolon (List.mem_cons_of_mem _ hmem)⟩
  | case5 a b c d hi hscalar a' b' c' d' s lo hpair =>
    rename_i ih
    obtain ⟨cs, hcs, rfl⟩ := Option.map_eq_some_iff.mp h
    rw [List.flatMap_cons, List.flatMap_cons, List.mem_append, List.mem_append, not_or, not_or]
    exact ⟨hunit a b c d, hunit a' b' c' d',
      ih hcs fun hmem => hcolon (List.mem_cons_of_mem _ hmem)⟩
  | case6 => cases h
  | case7 => cases h

/-- A number is printed in digits, signs, dots and exponent marks. -/
theorem mem_numberText {n : NumberText} {x : UInt8} (h : x ∈ n.text) :
    isDigit x = true ∨ x ∈ ([0x2D, 0x2B, 0x2E, 0x45, 0x65] : Bytes) := by
  unfold NumberText.text NumberText.magnitudeText NumberText.fracDigits NumberText.expText at h
  simp only [List.mem_append] at h
  rcases h with h | h | h | h | h
  · cases hminus : n.minus <;> simp_all
  · exact .inl (n.int.all x h)
  · cases hfrac : n.frac <;> simp_all
  · cases hfrac : n.frac with
    | none => simp [hfrac] at h
    | some f =>
      rw [hfrac] at h
      exact .inl (f.all x h)
  · cases hexp : n.exp with
    | none => simp [hexp] at h
    | some e =>
      rw [hexp] at h
      simp only [Option.map_some, Option.getD_some, Exponent.text, List.mem_cons,
        List.mem_append] at h
      rcases h with rfl | h | h
      · cases e.upper <;> simp
      · unfold Exponent.signText at h
        rcases hsign : e.sign with _ | _ | _ <;> simp_all
      · exact .inl (e.digits.all x h)

/-! ## Texts are UTF-8 -/

theorem isUtf8_blanks (w : List Blank) : IsUtf8 (blanks w) := by
  refine .ascii fun x hx => ?_
  rcases mem_blanks hx with rfl | rfl | rfl | rfl <;> decide

theorem isDigit_lt {x : UInt8} (h : isDigit x = true) : x < 0x80 := by
  have h' : 0x30 ≤ x ∧ x ≤ 0x39 := by simpa [isDigit] using h
  exact UInt8.lt_of_le_of_lt h'.2 (by decide)

theorem isXDigit_lt {x : UInt8} (h : isXDigit x = true) : x < 0x80 := by
  have h' : (isDigit x = true ∨ 0x41 ≤ x ∧ x ≤ 0x46) ∨ 0x61 ≤ x ∧ x ≤ 0x66 := by
    simpa [isXDigit] using h
  rcases h' with (hdigit | ⟨-, hle⟩) | ⟨-, hle⟩
  · exact isDigit_lt hdigit
  · exact UInt8.lt_of_le_of_lt hle (by decide)
  · exact UInt8.lt_of_le_of_lt hle (by decide)

theorem Piece.isUtf8 (p : Piece) : IsUtf8 p.text := by
  cases p with
  | raw c => exact .char c.char
  | esc e => exact .cons (by decide) (.byte (by cases e <;> decide))
  | unit a b c d =>
    refine .ascii ?_
    simp only [Piece.text, List.forall_mem_cons]
    exact ⟨by decide, by decide, isXDigit_lt a.2, isXDigit_lt b.2, isXDigit_lt c.2,
      isXDigit_lt d.2, nofun⟩

theorem StringText.isUtf8 (s : StringText) : IsUtf8 s.text :=
  .cons (by decide) (.append (.flatMap fun p _ => p.isUtf8) (.byte (by decide)))

theorem ValueText.isUtf8 (v : ValueText) : IsUtf8 v.text := by
  cases v with
  | str s => exact s.isUtf8
  | num n =>
    refine .ascii fun x hx => ?_
    rcases mem_numberText hx with hdigit | hsign
    · exact isDigit_lt hdigit
    · fin_cases hsign <;> decide
  | bool b =>
    cases b with
    | true => exact ⟨"true", rfl⟩
    | false => exact ⟨"false", rfl⟩

theorem Member.isUtf8 (m : Member) : IsUtf8 m.text :=
  (isUtf8_blanks _).append (m.key.isUtf8.append ((isUtf8_blanks _).append
    (.cons (by decide) ((isUtf8_blanks _).append (m.value.isUtf8.append (isUtf8_blanks _))))))

theorem isUtf8_commaSeparated {ts : List Bytes} (h : ∀ t ∈ ts, IsUtf8 t) :
    IsUtf8 (commaSeparated ts) := by
  induction ts with
  | nil => exact .nil
  | cons t ts ih =>
    cases ts with
    | nil => exact h t List.mem_cons_self
    | cons t' ts =>
      exact (h t List.mem_cons_self).append
        (.cons (by decide) (ih fun x hx => h x (List.mem_cons_of_mem t hx)))

theorem ObjectText.isUtf8 (o : ObjectText) : IsUtf8 o.text := by
  have hmembers : IsUtf8 (commaSeparated (o.members.map Member.text)) := by
    refine isUtf8_commaSeparated fun t ht => ?_
    obtain ⟨m, -, rfl⟩ := List.mem_map.mp ht
    exact m.isUtf8
  exact (isUtf8_blanks _).append (.cons (by decide)
    (hmembers.append ((isUtf8_blanks _).append (.cons (by decide) (isUtf8_blanks _)))))

theorem ArrayText.isUtf8 (a : ArrayText) : IsUtf8 a.text := by
  have helements : IsUtf8 (commaSeparated (a.elements.map ObjectText.text)) := by
    refine isUtf8_commaSeparated fun t ht => ?_
    obtain ⟨o, -, rfl⟩ := List.mem_map.mp ht
    exact o.isUtf8
  exact (isUtf8_blanks _).append (.cons (by decide)
    (helements.append ((isUtf8_blanks _).append (.cons (by decide) (isUtf8_blanks _)))))

end Lib.Json
