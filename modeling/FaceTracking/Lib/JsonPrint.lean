import FaceTracking.Lib.JsonNumber

/-!
# Printing flat objects

How a compact writer spells strings and flat objects, as texts of `JsonText`:
what it writes means what it was given (`decode_quotation`, `decode_printed`).
-/

namespace Lib.Json

open Strtod (isXDigit)

/-! ## Strings -/

/-- A digit of a control character's code. -/
def hexByte (n : Nat) : UInt8 := if n < 10 then UInt8.ofNat (0x30 + n) else UInt8.ofNat (0x57 + n)

theorem isXDigit_hexByte (n : Nat) : isXDigit (hexByte (n % 16)) = true := by
  have hall : ∀ d < 16, isXDigit (hexByte d) = true := by decide
  exact hall _ (Nat.mod_lt n (by decide))

def hexOf (n : Nat) : HexDigit := ⟨hexByte (n % 16), isXDigit_hexByte n⟩

/-- The piece a character is printed as. -/
def quotePiece (c : Char) : Piece :=
  if hq : c = '"' then .esc .quotation
  else if hs : c = '\\' then .esc .reverseSolidus
  else if c = '\x08' then .esc .backspace
  else if c = '\x0C' then .esc .formFeed
  else if c = '\n' then .esc .lineFeed
  else if c = '\r' then .esc .carriageReturn
  else if c = '\t' then .esc .tab
  else if h : 0x20 ≤ c.toNat then .raw ⟨c, h, hq, hs⟩
  else .unit (hexOf 0) (hexOf 0) (hexOf (c.toNat / 16)) (hexOf (c.toNat % 16))

/-- A printed string. -/
def quotation (u : String) : StringText := u.toList.map quotePiece

theorem quotePiece_raw {c : Char} (h : 0x20 ≤ c.toNat) (hq : c ≠ '"') (hs : c ≠ '\\') :
    quotePiece c = .raw ⟨c, h, hq, hs⟩ := by
  have hne : ∀ d : Char, d.toNat < 0x20 → c ≠ d := by
    rintro d hd rfl
    omega
  unfold quotePiece
  rw [dif_neg hq, dif_neg hs, if_neg (hne _ (by decide)), if_neg (hne _ (by decide)),
    if_neg (hne _ (by decide)), if_neg (hne _ (by decide)), if_neg (hne _ (by decide)), dif_pos h]

/-- A character is a control character, one with an escape, or written as it is. -/
theorem char_cases (c : Char) :
    (∃ n < 0x20, c = Char.ofNat n) ∨ c = '"' ∨ c = '\\' ∨
      0x20 ≤ c.toNat ∧ c ≠ '"' ∧ c ≠ '\\' := by
  by_cases h : c.toNat < 0x20
  · exact .inl ⟨c.toNat, h, (Char.ofNat_toNat c).symm⟩
  by_cases hq : c = '"'
  · exact .inr (.inl hq)
  by_cases hs : c = '\\'
  · exact .inr (.inr (.inl hs))
  · exact .inr (.inr (.inr ⟨by omega, hq, hs⟩))

theorem quotePiece_text (c : Char) :
    (quotePiece c).text = (quoteChar c).flatMap String.utf8EncodeChar := by
  rcases char_cases c with ⟨n, hn, rfl⟩ | rfl | rfl | ⟨h, hq, hs⟩
  · have hall : ∀ n < 0x20, (quotePiece (Char.ofNat n)).text =
        (quoteChar (Char.ofNat n)).flatMap String.utf8EncodeChar := by
      decide +kernel
    exact hall n hn
  · rfl
  · rfl
  · rw [quotePiece_raw h hq hs, quoteChar_plain h hq hs, List.flatMap_singleton]
    rfl

/-- The pieces are the text that is printed. -/
theorem quotation_body (u : String) : (quotation u).body = quoteBody u := by
  unfold quotation StringText.body quoteBody
  induction u.toList with
  | nil => rfl
  | cons c cs ih =>
    rw [List.map_cons, List.flatMap_cons, ih, quotePiece_text, List.flatMap_cons,
      List.flatMap_append]

theorem quotation_text (u : String) : (quotation u).text = quote u := by
  unfold StringText.text quote
  rw [quotation_body]

/-- Printing makes a string at most six times as long, quotes apart. -/
theorem length_quotation (u : String) :
    (quotation u).text.length ≤ 6 * (utf8 u).length + 2 := by
  have hpiece : ∀ c : Char, (quotePiece c).text.length ≤ 6 * (String.utf8EncodeChar c).length := by
    intro c
    rcases char_cases c with ⟨n, hn, rfl⟩ | rfl | rfl | ⟨h, hq, hs⟩
    · have hall : ∀ n < 0x20, (quotePiece (Char.ofNat n)).text.length ≤
          6 * (String.utf8EncodeChar (Char.ofNat n)).length := by
        decide +kernel
      exact hall n hn
    · decide
    · decide
    · rw [quotePiece_raw h hq hs]
      show (String.utf8EncodeChar c).length ≤ _
      omega
  have hbody : (quotation u).body.length ≤ 6 * (utf8 u).length := by
    unfold quotation StringText.body utf8
    induction u.toList with
    | nil => exact Nat.zero_le _
    | cons c cs ih =>
      have hc := hpiece c
      rw [List.map_cons, List.flatMap_cons, List.flatMap_cons, List.length_append,
        List.length_append]
      omega
  unfold StringText.text
  rw [List.length_append, List.length_cons, List.length_singleton]
  omega

/-- The code of the character, or of the code unit, that a piece stands for. -/
def Piece.code : Piece → Nat
  | .raw c => c.char.toNat
  | .esc e => e.char.toNat
  | .unit a b c d => StringText.codeUnit a b c d

/-- A piece with a code below the surrogates is a character. -/
theorem decodeChars_piece {p : Piece} (hp : p.code < 0xD800) (s : StringText) :
    StringText.decodeChars (p :: s) =
      (StringText.decodeChars s).map (Char.ofNat p.code :: ·) := by
  cases p with
  | raw c =>
    show _ = (StringText.decodeChars s).map (Char.ofNat c.char.toNat :: ·)
    rw [Char.ofNat_toNat]
    rfl
  | esc e =>
    show _ = (StringText.decodeChars s).map (Char.ofNat e.char.toNat :: ·)
    rw [Char.ofNat_toNat]
    rfl
  | unit a b c d =>
    have hlow : StringText.codeUnit a b c d < 0xD800 := hp
    rw [StringText.decodeChars.eq_def]
    simp only
    rw [if_pos (.inl hlow)]
    rfl

theorem decodeChars_quotePiece (c : Char) (s : StringText) :
    StringText.decodeChars (quotePiece c :: s) = (StringText.decodeChars s).map (c :: ·) := by
  rcases char_cases c with ⟨n, hn, rfl⟩ | rfl | rfl | ⟨h, hq, hs⟩
  · have hall : ∀ n < 0x20, (quotePiece (Char.ofNat n)).code = n := by decide +kernel
    have hcode := hall n hn
    rw [decodeChars_piece (by omega), hcode]
  · rfl
  · rfl
  · rw [quotePiece_raw h hq hs]
    rfl

/-- **Strings.** Every string is printed as a text that means it. -/
theorem decode_quotation (u : String) : (quotation u).decode = some u := by
  have hchars : ∀ cs : List Char, StringText.decodeChars (cs.map quotePiece) = some cs := by
    intro cs
    induction cs with
    | nil => rfl
    | cons c cs ih =>
      rw [List.map_cons, decodeChars_quotePiece, ih]
      rfl
  unfold StringText.decode quotation
  rw [hchars]
  exact congrArg some (String.ofList_toList)

/-! ## Objects -/

/-- A member value; a number is given as it is printed. -/
inductive Scalar where
  | str (u : String)
  | num (n : NumberText)
  | bool (b : Bool)

def Scalar.printed : Scalar → ValueText
  | .str u => .str (quotation u)
  | .num n => .num n
  | .bool b => .bool b

/-- What a value means. -/
def Scalar.datum : Scalar → Datum
  | .str u => .str (some u)
  | .num n => .num n.value
  | .bool b => .bool b

def printedMember (m : String × Scalar) : Member := ⟨[], quotation m.1, [], [], m.2.printed, []⟩

/-- A flat object in compact form. -/
def printed (o : List (String × Scalar)) : ObjectText := ⟨[], o.map printedMember, [], []⟩

theorem Scalar.printed_value (v : Scalar) : v.printed.value = v.datum := by
  cases v with
  | str u => exact congrArg Datum.str (decode_quotation u)
  | num n => rfl
  | bool b => rfl

/-- **Objects.** The printed text means the object. -/
theorem decode_printed (o : List (String × Scalar)) :
    (printed o).decode = o.map fun m => (some m.1, m.2.datum) := by
  unfold ObjectText.decode printed
  rw [List.map_map]
  refine List.map_congr_left fun m _ => ?_
  show ((quotation m.1).decode, m.2.printed.value) = _
  rw [decode_quotation, Scalar.printed_value]

theorem printedMember_text (m : String × Scalar) :
    (printedMember m).text = quote m.1 ++ 0x3A :: m.2.printed.text := by
  show [] ++ ((quotation m.1).text ++ ([] ++ 0x3A :: ([] ++ (m.2.printed.text ++ [])))) = _
  rw [quotation_text]
  simp

def Value.scalar : Value → Scalar
  | .str u => .str u
  | .num n => .num (.ofNat n)
  | .bool b => .bool b

theorem Value.scalar_text (v : Value) : v.scalar.printed.text = printValue v := by
  cases v with
  | str u => exact quotation_text u
  | num n => exact NumberText.ofNat_text n
  | bool b => cases b <;> rfl

/-- `stringify` prints the same text. -/
theorem printed_text (o : List (String × Value)) :
    (printed (o.map fun m => (m.1, m.2.scalar))).text = stringify o := by
  have hmembers : commaSeparated (((o.map fun m => (m.1, m.2.scalar)).map printedMember).map
      Member.text) = printMembers o := by
    induction o with
    | nil => rfl
    | cons m o ih =>
      cases o with
      | nil =>
        show (printedMember (m.1, m.2.scalar)).text = quote m.1 ++ 0x3A :: printValue m.2
        rw [printedMember_text, Value.scalar_text]
      | cons m' o =>
        show (printedMember (m.1, m.2.scalar)).text ++ 0x2C :: _ =
          quote m.1 ++ 0x3A :: printValue m.2 ++ 0x2C :: printMembers (m' :: o)
        rw [printedMember_text, Value.scalar_text, ← ih]
  rw [stringify, ← hmembers]
  simp [ObjectText.text, printed, blanks]

end Lib.Json
