import FaceTracking.Lib.Bytes

/-!
# Compact JSON text

How `JSON.stringify` and a compact JSON document writer print flat objects:
members in order, no white space, strings quoted with the double quote, the
backslash and the control characters escaped and every other character written
as UTF-8.
-/

namespace Lib.Json

/-- A member value of a flat object. -/
inductive Value where
  | str (s : String)
  | num (n : Nat)
  | bool (b : Bool)
deriving DecidableEq, Repr

def hexDigit (n : Nat) : Char := if n < 10 then Char.ofNat (0x30 + n) else Char.ofNat (0x57 + n)

/-- The characters a string character is printed as. -/
def quoteChar (c : Char) : List Char :=
  if c = '"' then ['\\', '"']
  else if c = '\\' then ['\\', '\\']
  else if c = '\x08' then ['\\', 'b']
  else if c = '\x0C' then ['\\', 'f']
  else if c = '\n' then ['\\', 'n']
  else if c = '\r' then ['\\', 'r']
  else if c = '\t' then ['\\', 't']
  else if c.toNat < 0x20 then
    ['\\', 'u', '0', '0', hexDigit (c.toNat / 16), hexDigit (c.toNat % 16)]
  else [c]

/-- The text between the quotes of a printed string. -/
def quoteBody (s : String) : Bytes := (s.toList.flatMap quoteChar).flatMap String.utf8EncodeChar

def quote (s : String) : Bytes := 0x22 :: quoteBody s ++ [0x22]

def printValue : Value → Bytes
  | .str s => quote s
  | .num n => utf8 (toString n)
  | .bool b => if b then utf8 "true" else utf8 "false"

/-- Members separated by commas. -/
def printMembers : List (String × Value) → Bytes
  | [] => []
  | [(k, v)] => quote k ++ 0x3A :: printValue v
  | (k, v) :: ms => quote k ++ 0x3A :: printValue v ++ 0x2C :: printMembers ms

/-- A flat object in compact form. -/
def stringify (o : List (String × Value)) : Bytes := 0x7B :: printMembers o ++ [0x7D]

/-- Insertion into an object that keeps its members sorted by key; a key that
is present gets the new value. -/
def insertSorted (k : String) (v : Value) : List (String × Value) → List (String × Value)
  | [] => [(k, v)]
  | (k', v') :: o =>
    if k = k' then (k, v) :: o
    else if k < k' then (k, v) :: (k', v') :: o
    else (k', v') :: insertSorted k v o

/-! ## Bytes of a printed string -/

/-- A byte below 0x80 in the encoding of a character is that character. -/
theorem eq_of_mem_utf8EncodeChar {c : Char} {b : UInt8} (hb : b ∈ String.utf8EncodeChar c)
    (hlt : b.toNat < 0x80) : c.toNat = b.toNat := by
  have hc : c.val.toNat < 0x110000 := by
    rcases c.valid with h | h <;> omega
  unfold String.utf8EncodeChar at hb
  simp only at hb
  split at hb
  · rename_i h
    have hb' : b = UInt8.ofNat c.val.toNat := by simpa using hb
    rw [hb', UInt8.toNat_ofNat', Nat.mod_eq_of_lt (by omega)]
    rfl
  -- every byte of a longer encoding has its top bit set
  all_goals
    exfalso
    repeat' split at hb
    all_goals
      simp only [List.mem_cons, List.not_mem_nil, or_false] at hb
      rcases hb with rfl | rfl | rfl | rfl <;>
        simp only [UInt8.toNat_ofNat'] at hlt <;> omega

/-- The only characters whose encoding contains a quote or a backslash are
these two themselves. -/
theorem not_mem_utf8EncodeChar {c : Char} (hq : c ≠ '"') (hs : c ≠ '\\') :
    ∀ b ∈ String.utf8EncodeChar c, b ≠ 0x22 ∧ b ≠ 0x5C := by
  intro b hb
  refine ⟨?_, ?_⟩
  · rintro rfl
    have h := eq_of_mem_utf8EncodeChar hb (by decide)
    exact hq (Char.ext (UInt32.toNat_inj.mp h))
  · rintro rfl
    have h := eq_of_mem_utf8EncodeChar hb (by decide)
    exact hs (Char.ext (UInt32.toNat_inj.mp h))

/-- A character from U+0020 on other than the quote and the backslash is
printed as itself. -/
theorem quoteChar_plain {c : Char} (hc : 0x20 ≤ c.toNat) (hq : c ≠ '"') (hs : c ≠ '\\') :
    quoteChar c = [c] := by
  have hne : ∀ d : Char, d.toNat < 0x20 → c ≠ d := by
    rintro d hd rfl
    omega
  rw [quoteChar, if_neg hq, if_neg hs, if_neg (hne _ (by decide)), if_neg (hne _ (by decide)),
    if_neg (hne _ (by decide)), if_neg (hne _ (by decide)), if_neg (hne _ (by decide)),
    if_neg (by omega)]

end Lib.Json
