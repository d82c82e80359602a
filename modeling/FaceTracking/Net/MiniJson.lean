import FaceTracking.Lib.Strtod

/-!
# MiniJson

The terminal's JSON helpers: a value is looked up by searching for the quoted
key as a substring and skipping to the next colon; there is no parse of the
whole object. The getters return `none` where the source returns `false` and
leaves its output argument untouched.
-/

namespace FaceTracking.Mjson

open Lib

/-- Escape a string for inclusion inside JSON double quotes. -/
def escape (s : Bytes) : Bytes :=
  s.flatMap fun c =>
    if c = 0x22 then [0x5C, 0x22]
    else if c = 0x5C then [0x5C, 0x5C]
    else if c = 0x0A then [0x5C, 0x6E]
    else if c = 0x0D then [0x5C, 0x72]
    else if c = 0x09 then [0x5C, 0x74]
    else if c < 0x20 then [0x20]
    else [c]

/-- The position just after `"key"` and its colon, blanks skipped. -/
def valuePos (j key : Bytes) : Option Nat :=
  let needle := [0x22] ++ key ++ [0x22]
  match find? needle j with
  | none => none
  | some k =>
    match (j.drop (k + needle.length)).findIdx? (· == 0x3A) with
    | none => none
    | some i =>
      let c := k + needle.length + i + 1
      some (c + ((j.drop c).takeWhile (fun x => x == 0x20 || x == 0x09)).length)

def getNumber (j key : Bytes) : Option ExtRat :=
  match valuePos j key with
  | none => none
  | some p => strtod (j.drop p)

def getBool (j key : Bytes) : Option Bool :=
  match valuePos j key with
  | none => none
  | some p =>
    if (j.drop p).take 4 = utf8 "true" then some true
    else if (j.drop p).take 5 = utf8 "false" then some false
    else none

/-- The character a backslash escape stands for. -/
def unescapeChar (n : UInt8) : UInt8 :=
  if n = 0x6E then 0x0A else if n = 0x72 then 0x0D else if n = 0x74 then 0x09 else n

/-- The loop of `getString` behind the opening quote: `none` if the text ends
before a closing quote. -/
def unescape : Bytes → Option Bytes
  | [] => none
  | c :: t =>
    if c = 0x22 then some []
    else if c = 0x5C then
      match t with
      | n :: t => (unescape t).map (unescapeChar n :: ·)
      -- a backslash that ends the text is taken literally, and the text is unterminated
      | [] => none
    else (unescape t).map (c :: ·)

@[simp] theorem unescape_quote (t : Bytes) : unescape (0x22 :: t) = some [] := by
  rw [unescape.eq_def]
  rfl

@[simp] theorem unescape_escaped (n : UInt8) (t : Bytes) :
    unescape (0x5C :: n :: t) = (unescape t).map (unescapeChar n :: ·) := by
  rw [unescape.eq_def]
  rfl

theorem unescape_cons {c : UInt8} (hq : c ≠ 0x22) (hs : c ≠ 0x5C) (t : Bytes) :
    unescape (c :: t) = (unescape t).map (c :: ·) := by
  rw [unescape.eq_def]
  simp [hq, hs]

def getString (j key : Bytes) : Option Bytes :=
  match valuePos j key with
  | none => none
  | some p =>
    match j.drop p with
    | 0x22 :: t => unescape t
    | _ => none

/-! ## The output argument

The loop of `getString` as it is written, with what it has read so far and the
text it stops at: it copies a backslash that ends the text before it finds the
text unterminated. -/

/-- From the text at `p` and the string read so far to the text the loop stops
at and the string read by then. -/
def scanString : Bytes → Bytes → Bytes × Bytes
  | [], s => ([], s)
  | c :: t, s =>
    if c = 0x22 then (c :: t, s)
    else if c = 0x5C then
      match t with
      | n :: t => scanString t (s ++ [unescapeChar n])
      | [] => ([], s ++ [c])
    else scanString t (s ++ [c])

/-- `getString` with its output argument: the result, and what the argument
holds afterwards. -/
def getStringInto (j key out : Bytes) : Bool × Bytes :=
  match valuePos j key with
  | none => (false, out)
  | some p =>
    match j.drop p with
    | 0x22 :: t =>
      let r := scanString t []
      if r.1.isEmpty then (false, out) else (true, r.2)
    | _ => (false, out)

/-- The loop with an accumulator is the one without. -/
theorem scanString_eq (t s : Bytes) :
    (if (scanString t s).1.isEmpty then none else some (scanString t s).2) =
      (unescape t).map (s ++ ·) := by
  fun_induction scanString t s with
  | case1 s => rfl
  | case2 t s => simp
  | case3 s n t _ ih =>
    rw [ih, unescape_escaped, Option.map_map]
    congr 1
    funext u
    simp
  | case4 s => rfl
  | case5 s c t hq hs ih =>
    rw [ih, unescape_cons hq hs, Option.map_map]
    congr 1
    funext u
    simp

/-- The output argument is the string where there is one, else it is left as it is. -/
theorem getStringInto_eq (j key out : Bytes) :
    getStringInto j key out =
      match getString j key with
      | none => (false, out)
      | some s => (true, s) := by
  unfold getStringInto getString
  cases valuePos j key with
  | none => rfl
  | some p =>
    simp only
    split
    · rename_i t _
      have h := scanString_eq t []
      simp only [List.nil_append, Option.map_id_fun', id_eq] at h
      rw [← h]
      cases (scanString t []).1.isEmpty <;> rfl
    · rfl

/-! ## Looking up a key behind a known text -/

/-- A key found in the text before its colon is found there whatever follows. -/
theorem valuePos_eq {pre key post : Bytes} {k : Nat}
    (hfind : find? ([0x22] ++ key ++ [0x22]) pre = some k)
    (hend : k + key.length + 2 = pre.length)
    (hpost : post.head? ≠ some 0x20 ∧ post.head? ≠ some 0x09) :
    valuePos (pre ++ 0x3A :: post) key = some (pre.length + 1) := by
  have hk : k + ([0x22] ++ key ++ [0x22] : Bytes).length = pre.length := by
    simp only [List.length_append, List.length_cons, List.length_nil]
    omega
  have hdrop : (pre ++ 0x3A :: post).drop (pre.length + 1) = post := by
    rw [← List.drop_drop, List.drop_left, List.drop_one, List.tail_cons]
  have hblank : post.takeWhile (fun x => x == 0x20 || x == 0x09) = [] := by
    cases post with
    | nil => rfl
    | cons x t =>
      simp only [List.head?_cons, ne_eq, Option.some.injEq] at hpost
      simp [hpost.1, hpost.2]
  simp only [valuePos, find?_append hfind, hk, List.drop_left]
  simp [List.findIdx?_cons, hdrop, hblank]

/-- Reading back a string whose key sits at the end of the text before it. -/
theorem getString_eq {pre key post : Bytes} {k : Nat}
    (hfind : find? ([0x22] ++ key ++ [0x22]) pre = some k)
    (hend : k + key.length + 2 = pre.length) :
    getString (pre ++ 0x3A :: 0x22 :: post) key = unescape post := by
  have hp : valuePos (pre ++ 0x3A :: 0x22 :: post) key = some (pre.length + 1) :=
    valuePos_eq hfind hend (by simp)
  have hdrop : (pre ++ 0x3A :: 0x22 :: post).drop (pre.length + 1) = 0x22 :: post := by
    rw [← List.drop_drop, List.drop_left, List.drop_one, List.tail_cons]
  simp only [getString, hp, hdrop]

end FaceTracking.Mjson
