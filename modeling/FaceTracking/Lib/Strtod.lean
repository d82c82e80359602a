import FaceTracking.Lib.ExtRat

/-!
# The C library's `strtod`

The subject sequence of `strtod` in the "C" locale, with everything the
standard admits: leading white space, a sign, decimal and hexadecimal
floating-point text, `INF` and `INFINITY`, `NAN` with or without a
parenthesised character sequence, letters in either case. The value is the
exact rational the text denotes.
-/

namespace Lib

namespace Strtod

def isSpace (c : UInt8) : Bool := c == 0x20 || (0x09 ≤ c && c ≤ 0x0D)

def isDigit (c : UInt8) : Bool := 0x30 ≤ c && c ≤ 0x39

def isXDigit (c : UInt8) : Bool :=
  isDigit c || (0x41 ≤ c && c ≤ 0x46) || (0x61 ≤ c && c ≤ 0x66)

def toLower (c : UInt8) : UInt8 := if 0x41 ≤ c && c ≤ 0x5A then c + 0x20 else c

def digitVal (c : UInt8) : Nat :=
  if isDigit c then c.toNat - 0x30 else (toLower c).toNat - 0x61 + 10

/-- The number written by digits in a base. -/
def digitsVal (base : Nat) (ds : Bytes) : Nat :=
  ds.foldl (fun v c => v * base + digitVal c) 0

/-- Strip a sign; `true` for a minus. -/
def takeSign : Bytes → Bool × Bytes
  | 0x2B :: t => (false, t)
  | 0x2D :: t => (true, t)
  | t => (false, t)

/-- Strip a word, ignoring case. -/
def takeWord (w : Bytes) (t : Bytes) : Option Bytes :=
  if (t.take w.length).map toLower = w then some (t.drop w.length) else none

/-- The exponent behind the letter `e`, or zero if no digits follow it. -/
def takeExp (e : UInt8) : Bytes → Int
  | [] => 0
  | c :: t =>
    if toLower c = e then
      let (minus, t) := takeSign t
      let ds := t.takeWhile isDigit
      if minus then - (digitsVal 10 ds : Int) else digitsVal 10 ds
    else 0

/-- Digits with an optional point and an optional exponent: at least one digit
before or after the point. `expBase` is what the exponent is a power of. -/
def takeNumber (dig : UInt8 → Bool) (base expBase : Nat) (e : UInt8) (t : Bytes) : Option ℚ :=
  let ip := t.takeWhile dig
  let t := t.dropWhile dig
  let (fp, t) :=
    match t with
    | 0x2E :: t => (t.takeWhile dig, t.dropWhile dig)
    | t => ([], t)
  if ip = [] ∧ fp = [] then none
  else some ((digitsVal base (ip ++ fp) : ℚ) / (base : ℚ) ^ fp.length *
    (expBase : ℚ) ^ takeExp e t)

/-- The unsigned subject sequence: an infinity, NaN, a hexadecimal number when
digits follow `0x`, or a decimal number. -/
def takeMagnitude (t : Bytes) : Option ExtRat :=
  if (takeWord (utf8 "inf") t).isSome then some .posInf
  else if (takeWord (utf8 "nan") t).isSome then some .nan
  else
    match takeWord (utf8 "0x") t with
    | some t' =>
      match takeNumber isXDigit 16 2 0x70 t' with
      | some q => some (.fin q)
      | none => (takeNumber isDigit 10 10 0x65 t).map .fin
    | none => (takeNumber isDigit 10 10 0x65 t).map .fin

end Strtod

open Strtod in
/-- `strtod`: the value of the longest subject sequence at the front of the
text, `none` when there is none (`endptr == nptr`). -/
def strtod (t : Bytes) : Option ExtRat :=
  let (minus, t) := takeSign (t.dropWhile isSpace)
  (takeMagnitude t).map (fun v => if minus then v.neg else v)

example : strtod (utf8 " -12.5e1,") = some (.fin (-125)) := by decide +kernel

end Lib
