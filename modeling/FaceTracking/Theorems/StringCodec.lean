import FaceTracking.Net.MiniJsonText

/-!
# The string codec of MiniJson

`escape` writes the inside of a JSON string and `getString` reads it back. The
loop of `getString` undoes one byte's escape at a time, whatever follows
(`unescape_escape`). What `escape` writes is made of plain bytes and of escapes
of two characters (`inside_escape`), so every JSON reader finds one string in
it, the text with its other control characters blanked. And the loop finds an
end just if there is a closing quote (`unescape_isSome_iff`), which is stated
for the text itself: `Inside` divides it from the left, without reading it.
-/

namespace FaceTracking.Mjson

open Lib Lib.Json

/-! ## What stands between quotes -/

/-- Bytes other than a quote and a backslash that meet `plain`, and backslashes
each with a byte behind it that meets `esc`. -/
inductive Inside (plain esc : UInt8 → Prop) : Bytes → Prop
  | nil : Inside plain esc []
  | plain {c : UInt8} {t : Bytes} (hq : c ≠ 0x22) (hs : c ≠ 0x5C) (hc : plain c)
      (ht : Inside plain esc t) : Inside plain esc (c :: t)
  | escape {n : UInt8} {t : Bytes} (hn : esc n) (ht : Inside plain esc t) :
      Inside plain esc (0x5C :: n :: t)

/-- The text behind an opening quote has a closing one. -/
def Closed (t : Bytes) : Prop :=
  ∃ b r, Inside (fun _ => True) (fun _ => True) b ∧ t = b ++ 0x22 :: r

/-- A byte that JSON allows in a string as it is. -/
def Printable (c : UInt8) : Prop := 0x20 ≤ c

/-- The second character of an escape of two characters. -/
def EscapeLetter (n : UInt8) : Prop := ∃ e : Escape, e.letter = n

theorem EscapeLetter.printable {n : UInt8} (h : EscapeLetter n) : Printable n := by
  obtain ⟨e, rfl⟩ := h
  unfold Printable
  cases e <;> decide

theorem Inside.forall_printable {b : Bytes} (h : Inside Printable EscapeLetter b) :
    ∀ c ∈ b, 0x20 ≤ c := by
  induction h with
  | nil => exact nofun
  | plain hq hs hc ht ih => exact List.forall_mem_cons.mpr ⟨hc, ih⟩
  | escape hn ht ih =>
    exact List.forall_mem_cons.mpr ⟨by decide, List.forall_mem_cons.mpr ⟨hn.printable, ih⟩⟩

/-! ## Reading back -/

/-- Control characters with an escape of their own. -/
def Escapable (c : UInt8) : Prop := c < 0x20 → c = 0x0A ∨ c = 0x0D ∨ c = 0x09

instance : DecidablePred Escapable := fun c =>
  inferInstanceAs (Decidable (c < 0x20 → c = 0x0A ∨ c = 0x0D ∨ c = 0x09))

theorem escape_cons (c : UInt8) (s : Bytes) : escape (c :: s) = escape [c] ++ escape s :=
  escape_append [c] s

/-- One byte's escape is undone whatever follows. -/
theorem unescape_escape_byte {c : UInt8} (hc : Escapable c) (r : Bytes) :
    unescape (escape [c] ++ r) = (unescape r).map (c :: ·) := by
  unfold escape
  rw [List.flatMap_singleton]
  split_ifs with hq hs hn hr ht hlow
  · rw [hq]
    exact unescape_escaped 0x22 r
  · rw [hs]
    exact unescape_escaped 0x5C r
  · rw [hn]
    exact unescape_escaped 0x6E r
  · rw [hr]
    exact unescape_escaped 0x72 r
  · rw [ht]
    exact unescape_escaped 0x74 r
  · rcases hc hlow with h | h | h
    · exact absurd h hn
    · exact absurd h hr
    · exact absurd h ht
  · exact unescape_cons hq hs r

/-- What `escape` wrote is read back, up to the closing quote. -/
theorem unescape_escape {s : Bytes} (hs : ∀ c ∈ s, Escapable c) (t : Bytes) :
    unescape (escape s ++ 0x22 :: t) = some s := by
  induction s with
  | nil => exact unescape_quote t
  | cons c s ih =>
    rw [escape_cons, List.append_assoc, unescape_escape_byte (hs c List.mem_cons_self),
      ih fun x hx => hs x (List.mem_cons_of_mem c hx)]
    rfl

/-- A message with one member in front of anything. -/
def member (k s t : Bytes) : Bytes :=
  utf8 "\x7B\"" ++ k ++ utf8 "\":\"" ++ escape s ++ utf8 "\"" ++ t

theorem getString_member {s : Bytes} (hs : ∀ c ∈ s, Escapable c) (k t : Bytes) :
    getString (member k s t) k = some s := by
  have hshape : member k s t =
      (0x7B :: quoted 0x22 k) ++ 0x3A :: 0x22 :: (escape s ++ 0x22 :: t) := by
    have hopen : utf8 "\x7B\"" = [0x7B, 0x22] := by decide
    have hcolon : utf8 "\":\"" = [0x22, 0x3A, 0x22] := by decide
    have hclose : utf8 "\"" = [0x22] := by decide
    simp [member, quoted, hopen, hcolon, hclose]
  -- the brace is passed, and the key stands right behind it
  have hfind : find? ([0x22] ++ k ++ [0x22]) (0x7B :: quoted 0x22 k) = some 1 := by
    have hbrace : ¬ [0x22] ++ k ++ [0x22] <+: 0x7B :: quoted 0x22 k := by
      intro h
      exact absurd (List.cons_prefix_cons.mp h).1 (by decide)
    have hkey : [0x22] ++ k ++ [0x22] <+: quoted 0x22 k := by simp [quoted]
    rw [find?, if_neg hbrace]
    unfold quoted at hkey ⊢
    rw [find?, if_pos hkey]
    rfl
  rw [hshape, getString_eq hfind (by simp; omega), unescape_escape hs]

/-! ## What `escape` writes -/

/-- `escape` writes plain printable bytes and escapes of two characters, nothing
else. -/
theorem inside_escape (s : Bytes) : Inside Printable EscapeLetter (escape s) := by
  induction s with
  | nil => exact .nil
  | cons c s ih =>
    rw [escape_cons]
    unfold escape at ih ⊢
    rw [List.flatMap_singleton]
    split_ifs with hq hs hn hr ht hlow
    · exact .escape ⟨.quotation, rfl⟩ ih
    · exact .escape ⟨.reverseSolidus, rfl⟩ ih
    · exact .escape ⟨.lineFeed, rfl⟩ ih
    · exact .escape ⟨.carriageReturn, rfl⟩ ih
    · exact .escape ⟨.tab, rfl⟩ ih
    · exact .plain (by decide) (by decide) (by unfold Printable; decide) ih
    · exact .plain hq hs (UInt8.not_lt.mp hlow) ih

/-- Control bytes other than LF, CR and TAB replaced by a space. -/
def blanked (s : Bytes) : Bytes :=
  s.map fun c => if c < 0x20 ∧ c ≠ 0x0A ∧ c ≠ 0x0D ∧ c ≠ 0x09 then 0x20 else c

theorem blanked_utf8EncodeChar (c : Char) :
    blanked (String.utf8EncodeChar c) = String.utf8EncodeChar (shownChar c) := by
  by_cases hcontrol : c.toNat < 0x20
  · have hall : ∀ n < 0x20, blanked (String.utf8EncodeChar (Char.ofNat n)) =
        String.utf8EncodeChar (shownChar (Char.ofNat n)) := by
      decide +kernel
    have h := hall c.toNat hcontrol
    rwa [Char.ofNat_toNat] at h
  · -- no byte of another character is a control byte
    have hkeep : ∀ b ∈ String.utf8EncodeChar c,
        (if b < 0x20 ∧ b ≠ 0x0A ∧ b ≠ 0x0D ∧ b ≠ 0x09 then 0x20 else b) = b := by
      intro b hb
      refine if_neg fun h => hcontrol ?_
      have hlt : b.toNat < 0x20 := UInt8.lt_iff_toNat_lt.mp h.1
      have heq := eq_of_mem_utf8EncodeChar hb (by omega)
      omega
    have hshown : shownChar c = c := if_neg fun h => hcontrol h.1
    unfold blanked
    rw [hshown, List.map_congr_left (g := id) hkeep, List.map_id]

theorem blanked_utf8 (u : String) : blanked (utf8 u) = utf8 (shown u) := by
  unfold shown utf8 blanked
  rw [String.toList_ofList, List.map_flatMap, List.flatMap_map]
  congr 1
  funext c
  exact blanked_utf8EncodeChar c

/-- **A reader of JSON**, in whichever way it divides what `escape` wrote,
finds the text with its other control characters blanked. -/
theorem decode_of_body_escape {u : String} {text : StringText} (h : text.body = escape (utf8 u)) :
    text.decode = some (shown u) := by
  have htext : text = spelled u := StringText.body_injective (h.trans (escape_utf8 u))
  rw [htext, decode_spelled]

/-! ## The closing quote -/

theorem Closed.quote (r : Bytes) : Closed (0x22 :: r) := ⟨[], r, .nil, rfl⟩

theorem not_closed_nil : ¬ Closed [] := by
  rintro ⟨b, r, -, h⟩
  exact absurd h (by simp)

theorem closed_escaped_iff (n : UInt8) (t : Bytes) : Closed (0x5C :: n :: t) ↔ Closed t := by
  constructor
  · rintro ⟨b, r, hb, heq⟩
    cases hb with
    | nil => exact absurd (List.cons.inj heq).1 (by decide)
    | plain hq hs hc ht => exact absurd (List.cons.inj heq).1.symm hs
    | escape hn ht => exact ⟨_, r, ht, (List.cons.inj (List.cons.inj heq).2).2⟩
  · rintro ⟨b, r, hb, rfl⟩
    exact ⟨0x5C :: n :: b, r, .escape trivial hb, rfl⟩

theorem not_closed_backslash : ¬ Closed [0x5C] := by
  rintro ⟨b, r, hb, heq⟩
  cases hb with
  | nil => exact absurd (List.cons.inj heq).1 (by decide)
  | plain hq hs hc ht => exact absurd (List.cons.inj heq).1.symm hs
  | escape hn ht => exact absurd (List.cons.inj heq).2 (by simp)

theorem closed_cons_iff {c : UInt8} (hq : c ≠ 0x22) (hs : c ≠ 0x5C) (t : Bytes) :
    Closed (c :: t) ↔ Closed t := by
  constructor
  · rintro ⟨b, r, hb, heq⟩
    cases hb with
    | nil => exact absurd (List.cons.inj heq).1 hq
    | plain hq' hs' hc ht => exact ⟨_, r, ht, (List.cons.inj heq).2⟩
    | escape hn ht => exact absurd (List.cons.inj heq).1 hs
  · rintro ⟨b, r, hb, rfl⟩
    exact ⟨c :: b, r, .plain hq hs trivial hb, rfl⟩

/-- **The end of a string**: the loop finds it just if there is one. -/
theorem unescape_isSome_iff (t : Bytes) : (unescape t).isSome = true ↔ Closed t := by
  fun_induction unescape t with
  | case1 => simp [not_closed_nil]
  | case2 t => simp [Closed.quote]
  | case3 n t _ ih => rw [closed_escaped_iff, ← ih, Option.isSome_map]
  | case4 => simp [not_closed_backslash]
  | case5 c t hq hs ih => rw [closed_cons_iff hq hs, ← ih, Option.isSome_map]

/-- A value without a closing quote is no string. -/
theorem getStringInto_of_not_closed {j key : Bytes} {p : Nat} {t : Bytes} (out : Bytes)
    (hp : valuePos j key = some p) (hopen : j.drop p = 0x22 :: t) (ht : ¬ Closed t) :
    getStringInto j key out = (false, out) := by
  have hnone : unescape t = none := by
    rw [← unescape_isSome_iff] at ht
    simpa using ht
  have hget : getString j key = none := by
    unfold getString
    rw [hp]
    simp only [hopen, hnone]
  rw [getStringInto_eq, hget]

/-! ## Main result -/

/-- **The string codec.** A string whose control characters have escapes of
their own is read back exactly, under any key and in front of anything. What
`escape` writes for any byte string is printable bytes and escapes of two
characters; for a text in UTF-8 it is the inside of a JSON string, and every
way to read it as one gives the text with the other control characters
blanked. And a value without a closing quote is refused, with the output left
as it was. -/
theorem string_codec :
    (∀ s k t out : Bytes, (∀ c ∈ s, Escapable c) →
      getStringInto (member k s t) k out = (true, s)) ∧
    (∀ s : Bytes, (∀ c ∈ escape s, 0x20 ≤ c) ∧ Inside Printable EscapeLetter (escape s) ∧
      ∀ u, utf8 u = s → (∃ text : StringText, text.body = escape s) ∧
        ∀ text : StringText, text.body = escape s →
          ∃ v, text.decode = some v ∧ utf8 v = blanked s) ∧
    ∀ (j key out : Bytes) (p : Nat) (t : Bytes), valuePos j key = some p →
      j.drop p = 0x22 :: t → ¬ Closed t → getStringInto j key out = (false, out) := by
  refine ⟨?_, ?_, ?_⟩
  · intro s k t out hs
    rw [getStringInto_eq, getString_member hs]
  · intro s
    refine ⟨(inside_escape s).forall_printable, inside_escape s, ?_⟩
    rintro u rfl
    refine ⟨⟨spelled u, (escape_utf8 u).symm⟩, ?_⟩
    intro text htext
    exact ⟨shown u, decode_of_body_escape htext, (blanked_utf8 u).symm⟩
  · intro j key out p t hp hopen ht
    exact getStringInto_of_not_closed out hp hopen ht

/-- Backslashes, a quote and a line feed in front of a second member of that
name, and a text whose only further quote is escaped. -/
theorem string_codec_backslashes :
    getStringInto (member (utf8 "name") [0x5C, 0x5C, 0x22, 0x0A] (utf8 ",\"name\":\"x\"\x7D"))
        (utf8 "name") [] = (true, [0x5C, 0x5C, 0x22, 0x0A]) ∧
      getStringInto (utf8 "\x7B\"name\":\"x\\\\\\\"") (utf8 "name") [0x79] = (false, [0x79]) := by
  refine ⟨string_codec.1 _ _ _ _ (by decide +kernel), ?_⟩
  refine string_codec.2.2 _ _ _ 8 [0x78, 0x5C, 0x5C, 0x5C, 0x22] (by decide +kernel)
    (by decide +kernel) ?_
  rw [← unescape_isSome_iff]
  decide +kernel

end FaceTracking.Mjson
