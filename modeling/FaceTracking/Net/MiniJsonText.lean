import FaceTracking.Lib.JsonNumber
import FaceTracking.Lib.Quoted
import FaceTracking.Net.MiniJson

/-!
# MiniJson on JSON texts

What the helpers of `MiniJson` make of text that follows the grammar. A lookup
is a search for the quoted key, a search for a colon and a reader that looks at
what stands there (`valueAt`): the search goes through a string of the text in
one step (`behind?_string`), and each reader recognises the values of its own
kind.
-/

namespace FaceTracking.Mjson

open Lib Lib.Json

/-! ## The lookup as a search for text -/

/-- The text behind the next colon, spaces and tabs skipped. -/
def afterColon (j : Bytes) : Option Bytes :=
  match j.dropWhile (· != 0x3A) with
  | [] => none
  | _ :: t => some (t.dropWhile fun x => x == 0x20 || x == 0x09)

/-- The text a getter looks at. -/
def valueAt (j key : Bytes) : Option Bytes := (behind? (quoted 0x22 key) j).bind afterColon

/-- What `getString` makes of the text it looks at. -/
def readString : Bytes → Option Bytes
  | 0x22 :: t => unescape t
  | _ => none

def readBool (t : Bytes) : Option Bool :=
  if t.take 4 = utf8 "true" then some true
  else if t.take 5 = utf8 "false" then some false
  else none

theorem drop_takeWhile_length {α : Type} (p : α → Bool) (l : List α) :
    l.drop (l.takeWhile p).length = l.dropWhile p :=
  calc l.drop (l.takeWhile p).length
      = (l.takeWhile p ++ l.dropWhile p).drop (l.takeWhile p).length := by
        rw [List.takeWhile_append_dropWhile]
    _ = l.dropWhile p := List.drop_left

theorem afterColon_eq (r : Bytes) :
    afterColon r = (r.findIdx? (· == 0x3A)).map fun i =>
      (r.drop (i + 1)).dropWhile fun x => x == 0x20 || x == 0x09 := by
  induction r with
  | nil => rfl
  | cons x r ih =>
    unfold afterColon at ih ⊢
    by_cases hx : x = 0x3A
    · subst hx
      rfl
    · rw [List.dropWhile_cons_of_pos (by simpa using hx), ih, List.findIdx?_cons,
        if_neg (by simpa using hx), Option.map_map]
      rfl

theorem valuePos_map_drop (j key : Bytes) : (valuePos j key).map j.drop = valueAt j key := by
  unfold valuePos valueAt behind?
  have hneedle : ([0x22] ++ key ++ [0x22] : Bytes) = quoted 0x22 key := by simp [quoted]
  simp only [hneedle]
  cases find? (quoted 0x22 key) j with
  | none => rfl
  | some k =>
    simp only [Option.map_some, Option.bind_some, afterColon_eq]
    cases (j.drop (k + (quoted 0x22 key).length)).findIdx? (· == 0x3A) with
    | none => rfl
    | some i =>
      simp only [Option.map_some, List.drop_drop]
      rw [← drop_takeWhile_length, List.drop_drop]
      rfl

theorem getNumber_eq_bind (j key : Bytes) : getNumber j key = (valueAt j key).bind strtod := by
  rw [← valuePos_map_drop]
  unfold getNumber
  cases valuePos j key <;> rfl

theorem getBool_eq_bind (j key : Bytes) : getBool j key = (valueAt j key).bind readBool := by
  rw [← valuePos_map_drop]
  unfold getBool
  cases valuePos j key <;> rfl

theorem getString_eq_bind (j key : Bytes) : getString j key = (valueAt j key).bind readString := by
  rw [← valuePos_map_drop]
  unfold getString
  cases valuePos j key <;> rfl

/-! ## Strings -/

/-- The text of a string ends the way the quoted key ends: it is the key, or has
it behind an escaped quotation mark. -/
def Spells (key : Bytes) (s : StringText) : Prop := s.body = key ∨ 0x22 :: key <:+ s.body

instance (key : Bytes) (s : StringText) : Decidable (Spells key s) :=
  inferInstanceAs (Decidable (_ ∨ _))

/-- With plain text `a` in front of its pieces, a string stops the search if it
ends in the key. -/
theorem behind?_pieces {key : Bytes} (hq : 0x22 ∉ key) (hs : 0x5C ∉ key) (s : StringText)
    {a : Bytes} (ha : 0x22 ∉ a) (r : Bytes) :
    behind? (quoted 0x22 key) (0x22 :: (a ++ (s.body ++ 0x22 :: r))) =
      if a ++ s.body = key ∨ 0x22 :: key <:+ a ++ s.body then some r
      else behind? (quoted 0x22 key) (0x22 :: r) := by
  induction s generalizing a with
  | nil =>
    have hsuffix : ¬ 0x22 :: key <:+ a := fun h => ha (h.mem List.mem_cons_self)
    simp only [StringText.body, List.flatMap_nil, List.append_nil, List.nil_append]
    by_cases hak : a = key
    · rw [if_pos (.inl hak), hak, behind?_quoted]
    · rw [if_neg (not_or.mpr ⟨hak, hsuffix⟩), behind?_other ha hq hak]
  | cons p s ih =>
    have hbody : StringText.body (p :: s) = p.text ++ StringText.body s := rfl
    by_cases hp : p = .esc .quotation
    · subst hp
      -- the segment in front of the escaped mark ends in a backslash, the key does not
      have hseg : (0x22 : UInt8) ∉ a ++ [0x5C] := by simpa using ha
      have hne : a ++ [0x5C] ≠ key := fun h => hs (h ▸ List.mem_append_right a List.mem_cons_self)
      have hwhole : a ++ StringText.body (.esc .quotation :: s) =
          (a ++ [0x5C]) ++ 0x22 :: StringText.body s := by
        rw [hbody]
        simp [Piece.text, Escape.letter]
      have hspell : (a ++ StringText.body (.esc .quotation :: s) = key ∨
          0x22 :: key <:+ a ++ StringText.body (.esc .quotation :: s)) ↔
          (StringText.body s = key ∨ 0x22 :: key <:+ StringText.body s) := by
        rw [hwhole]
        constructor
        · rintro (h | h)
          · exact absurd (h ▸ List.mem_append_right _ List.mem_cons_self) hq
          · rcases List.suffix_or_suffix_of_suffix h (List.suffix_append (a ++ [0x5C]) _) with h' | h'
            · rcases List.suffix_cons_iff.mp h' with h' | h'
              · exact .inl (List.cons.inj h').2.symm
              · exact .inr h'
            · rcases List.suffix_cons_iff.mp h' with h' | h'
              · exact .inl (List.cons.inj h').2
              · exact absurd (h'.mem List.mem_cons_self) hq
        · rintro (h | h)
          · exact .inr (h ▸ List.suffix_append _ _)
          · exact .inr (h.trans ((List.suffix_cons _ _).trans (List.suffix_append _ _)))
      have hstep := behind?_other hseg hq hne (StringText.body s ++ 0x22 :: r)
      have hrest := ih (a := []) List.not_mem_nil
      simp only [List.nil_append] at hrest
      rw [hrest] at hstep
      simp only [hspell]
      rw [← hstep, hbody]
      simp [Piece.text, Escape.letter]
    · have hplain : (0x22 : UInt8) ∉ a ++ p.text := by
        rw [List.mem_append, not_or]
        exact ⟨ha, Piece.quotation_not_mem hp⟩
      have hrest := ih hplain
      rw [hbody]
      simpa only [List.append_assoc] using hrest

/-- The search stops at a string that spells the key and passes any other. -/
theorem behind?_string {key : Bytes} (hq : 0x22 ∉ key) (hs : 0x5C ∉ key) (s : StringText)
    (r : Bytes) :
    behind? (quoted 0x22 key) (s.text ++ r) =
      if Spells key s then some r else behind? (quoted 0x22 key) (0x22 :: r) := by
  have htext : s.text ++ r = 0x22 :: (s.body ++ 0x22 :: r) := by simp [StringText.text]
  rw [htext]
  exact behind?_pieces hq hs s (a := []) List.not_mem_nil r

/-- Pieces that `getString` reads as they are meant. -/
def Readable : Piece → Prop
  | .raw _ => True
  | .esc e => e ≠ .backspace ∧ e ≠ .formFeed
  | .unit _ _ _ _ => False

instance : DecidablePred Readable
  | .raw _ => inferInstanceAs (Decidable True)
  | .esc _ => inferInstanceAs (Decidable (_ ∧ _))
  | .unit _ _ _ _ => inferInstanceAs (Decidable False)

/-- Bytes other than a quote and a backslash are copied. -/
theorem unescape_copies {b : Bytes} (h : ∀ x ∈ b, x ≠ 0x22 ∧ x ≠ 0x5C) (r : Bytes) :
    unescape (b ++ r) = (unescape r).map (b ++ ·) := by
  induction b with
  | nil => simp
  | cons x b ih =>
    obtain ⟨hq, hs⟩ := h x List.mem_cons_self
    rw [List.cons_append, unescape_cons hq hs, ih fun y hy => h y (List.mem_cons_of_mem x hy),
      Option.map_map]
    rfl

/-- A readable piece is read as the character it means. -/
theorem unescape_piece {p : Piece} (hp : Readable p) (r : Bytes) :
    ∃ c, (∀ s, StringText.decodeChars (p :: s) = (StringText.decodeChars s).map (c :: ·)) ∧
      unescape (p.text ++ r) = (unescape r).map (String.utf8EncodeChar c ++ ·) := by
  cases p with
  | raw c =>
    refine ⟨c.char, fun s => rfl, ?_⟩
    exact unescape_copies (not_mem_utf8EncodeChar c.ne_quotation c.ne_solidus) r
  | esc e =>
    refine ⟨e.char, fun s => rfl, ?_⟩
    cases e with
    | backspace => exact absurd rfl hp.1
    | formFeed => exact absurd rfl hp.2
    | _ => exact unescape_escaped _ r
  | unit a b c d => exact hp.elim

/-- **Reading a string**: a string of readable pieces is read as what it means. -/
theorem unescape_body {s : StringText} (hs : ∀ p ∈ s, Readable p) (r : Bytes) :
    ∃ u, s.decode = some u ∧ unescape (s.body ++ 0x22 :: r) = some (utf8 u) := by
  have hchars : ∃ cs, StringText.decodeChars s = some cs ∧
      unescape (s.body ++ 0x22 :: r) = some (cs.flatMap String.utf8EncodeChar) := by
    induction s with
    | nil => exact ⟨[], rfl, unescape_quote r⟩
    | cons p s ih =>
      obtain ⟨cs, hdecode, hread⟩ := ih fun p' hp' => hs p' (List.mem_cons_of_mem p hp')
      obtain ⟨c, hc, hstep⟩ :=
        unescape_piece (hs p List.mem_cons_self) (StringText.body s ++ 0x22 :: r)
      refine ⟨c :: cs, ?_, ?_⟩
      · rw [hc, hdecode]
        rfl
      · rw [show StringText.body (p :: s) = p.text ++ StringText.body s from rfl, List.append_assoc,
          hstep, hread]
        rfl
  obtain ⟨cs, hdecode, hread⟩ := hchars
  refine ⟨String.ofList cs, ?_, ?_⟩
  · unfold StringText.decode
    rw [hdecode]
    rfl
  · rw [hread]
    simp [utf8]

/-! ## Strings that MiniJson writes -/

/-- How `escape` spells a character. -/
def escapePiece (c : Char) : Piece :=
  if hq : c = '"' then .esc .quotation
  else if hs : c = '\\' then .esc .reverseSolidus
  else if c = '\n' then .esc .lineFeed
  else if c = '\r' then .esc .carriageReturn
  else if c = '\t' then .esc .tab
  else if h : 0x20 ≤ c.toNat then .raw ⟨c, h, hq, hs⟩
  else .raw ⟨' ', by decide, by decide, by decide⟩

def spelled (u : String) : StringText := u.toList.map escapePiece

theorem escape_append (b b' : Bytes) : escape (b ++ b') = escape b ++ escape b' :=
  List.flatMap_append

/-- A control character is one byte, and a blank unless it has an escape of its own. -/
theorem escape_control {c : Char} (hc : c.toNat < 0x20) :
    escape (String.utf8EncodeChar c) = (escapePiece c).text := by
  have hall : ∀ n < 0x20, escape (String.utf8EncodeChar (Char.ofNat n)) =
      (escapePiece (Char.ofNat n)).text := by
    decide +kernel
  have h := hall c.toNat hc
  rwa [Char.ofNat_toNat] at h

theorem escape_utf8EncodeChar (c : Char) :
    escape (String.utf8EncodeChar c) = (escapePiece c).text := by
  by_cases hcontrol : c.toNat < 0x20
  · exact escape_control hcontrol
  by_cases hq : c = '"'
  · subst hq
    decide
  by_cases hs : c = '\\'
  · subst hs
    decide
  · have hpiece : (escapePiece c).text = String.utf8EncodeChar c := by
      have hne : ∀ d : Char, d.toNat < 0x20 → c ≠ d := by
        rintro d hd rfl
        exact hcontrol hd
      unfold escapePiece
      rw [dif_neg hq, dif_neg hs, if_neg (hne _ (by decide)), if_neg (hne _ (by decide)),
        if_neg (hne _ (by decide)), dif_pos (by omega)]
      rfl
    -- no byte of such a character needs an escape
    have hcopy : ∀ b ∈ String.utf8EncodeChar c, b ≠ 0x22 ∧ b ≠ 0x5C ∧ ¬ b < 0x20 := by
      intro b hb
      obtain ⟨hbq, hbs⟩ := not_mem_utf8EncodeChar hq hs b hb
      refine ⟨hbq, hbs, fun hlt => ?_⟩
      have hlt' : b.toNat < 0x20 := UInt8.lt_iff_toNat_lt.mp hlt
      have heq := eq_of_mem_utf8EncodeChar hb (by omega)
      omega
    rw [hpiece]
    generalize String.utf8EncodeChar c = bs at hcopy
    induction bs with
    | nil => rfl
    | cons b bs ih =>
      obtain ⟨hbq, hbs, hlow⟩ := hcopy b List.mem_cons_self
      have hnot : ∀ d : UInt8, d < 0x20 → b ≠ d := by
        rintro d hd rfl
        exact hlow hd
      have hone : escape [b] = [b] := by
        unfold escape
        rw [List.flatMap_singleton, if_neg hbq, if_neg hbs, if_neg (hnot _ (by decide)),
          if_neg (hnot _ (by decide)), if_neg (hnot _ (by decide)), if_neg hlow]
      rw [← List.singleton_append, escape_append, hone,
        ih fun x hx => hcopy x (List.mem_cons_of_mem b hx)]

/-- **What `escape` writes** for a text in UTF-8 is the body of a JSON string. -/
theorem escape_utf8 (u : String) : escape (utf8 u) = (spelled u).body := by
  unfold spelled StringText.body utf8
  induction u.toList with
  | nil => rfl
  | cons c cs ih =>
    rw [List.flatMap_cons, escape_append, ih, escape_utf8EncodeChar]
    rfl

/-- What an RFC 8259 reader sees of a character: a control character without an
escape of its own becomes a space. -/
def shownChar (c : Char) : Char :=
  if c.toNat < 0x20 ∧ c ≠ '\n' ∧ c ≠ '\r' ∧ c ≠ '\t' then ' ' else c

def shown (u : String) : String := String.ofList (u.toList.map shownChar)

theorem decodeChars_escapePiece (c : Char) (s : StringText) :
    StringText.decodeChars (escapePiece c :: s) =
      (StringText.decodeChars s).map (shownChar c :: ·) := by
  have hplain : ∀ d : Char, ¬ (d.toNat < 0x20 ∧ d ≠ '\n' ∧ d ≠ '\r' ∧ d ≠ '\t') →
      shownChar d = d := fun d hd => if_neg hd
  unfold escapePiece
  split
  · rename_i h
    rw [h]
    rfl
  · split
    · rename_i h
      rw [h]
      rfl
    · split
      · rename_i h
        rw [h]
        rfl
      · split
        · rename_i h
          rw [h]
          rfl
        · split
          · rename_i h
            rw [h]
            rfl
          · rename_i hn hr ht
            split
            · rw [hplain c (by omega)]
              rfl
            · rename_i hlow
              rw [show shownChar c = ' ' from if_pos ⟨by omega, hn, hr, ht⟩]
              rfl

theorem decode_spelled (u : String) : (spelled u).decode = some (shown u) := by
  have hchars : ∀ cs : List Char,
      StringText.decodeChars (cs.map escapePiece) = some (cs.map shownChar) := by
    intro cs
    induction cs with
    | nil => rfl
    | cons c cs ih =>
      rw [List.map_cons, decodeChars_escapePiece, ih]
      rfl
  unfold StringText.decode spelled shown
  rw [hchars]
  rfl

/-- A text without control characters is shown as it is. -/
theorem shown_eq {u : String} (hu : ∀ c ∈ u.toList, 0x20 ≤ c.toNat) : shown u = u := by
  have hmap : u.toList.map shownChar = u.toList := by
    rw [List.map_congr_left (g := id) fun c hc => ?_, List.map_id]
    exact if_neg fun h => absurd h.1 (Nat.not_lt.mpr (hu c hc))
  unfold shown
  rw [hmap, String.ofList_toList]

/-- A member without white space. -/
def compactMember (k : String) (v : ValueText) : Member := ⟨[], spelled k, [], [], v, []⟩

def compact (ms : List (String × ValueText)) : ObjectText :=
  ⟨[], ms.map fun m => compactMember m.1 m.2, [], []⟩

/-! ## The text behind a colon -/

theorem afterColon_append {a : Bytes} (ha : 0x3A ∉ a) (t : Bytes) :
    afterColon (a ++ 0x3A :: t) = some (t.dropWhile fun x => x == 0x20 || x == 0x09) := by
  unfold afterColon
  rw [List.dropWhile_append_of_pos]
  · rfl
  · intro x hx
    simp only [bne_iff_ne, ne_eq]
    rintro rfl
    exact ha hx

theorem afterColon_none {a : Bytes} (ha : 0x3A ∉ a) : afterColon a = none := by
  have hdrop : a.dropWhile (· != 0x3A) = [] := by
    rw [List.dropWhile_eq_nil_iff]
    intro x hx
    simp only [bne_iff_ne, ne_eq]
    rintro rfl
    exact ha hx
  unfold afterColon
  rw [hdrop]

/-- White space without line breaks. -/
def Inline (w : List Blank) : Prop := ∀ b ∈ w, b = .space ∨ b = .tab

instance (w : List Blank) : Decidable (Inline w) :=
  inferInstanceAs (Decidable (∀ b ∈ w, b = Blank.space ∨ b = Blank.tab))

/-- Skipping spaces and tabs leaves of white space nothing, or what begins with
a line break. -/
theorem dropWhile_blanks (w : List Blank) {c : UInt8} (hc : c ≠ 0x20 ∧ c ≠ 0x09) (t : Bytes) :
    ∃ w', (blanks w ++ c :: t).dropWhile (fun x => x == 0x20 || x == 0x09) = blanks w' ++ c :: t ∧
      (Inline w → w' = []) ∧ ∀ b ∈ w'.head?, b = .lineFeed ∨ b = .carriageReturn := by
  induction w with
  | nil =>
    refine ⟨[], ?_, fun _ => rfl, nofun⟩
    exact List.dropWhile_cons_of_neg (by simp [hc.1, hc.2])
  | cons b w ih =>
    have hstop : b = .lineFeed ∨ b = .carriageReturn → ∃ w', (blanks (b :: w) ++ c :: t).dropWhile
        (fun x => x == 0x20 || x == 0x09) = blanks w' ++ c :: t ∧ (Inline (b :: w) → w' = []) ∧
        ∀ b ∈ w'.head?, b = .lineFeed ∨ b = .carriageReturn := by
      intro hb
      refine ⟨b :: w, ?_, ?_, ?_⟩
      · rcases hb with rfl | rfl <;> rfl
      · intro hinline
        rcases hb with rfl | rfl <;> exact absurd (hinline _ List.mem_cons_self) (by decide)
      · intro b' hb'
        cases hb'
        exact hb
    obtain ⟨w', hdrop, hinline, hhead⟩ := ih
    have hpass : b = .space ∨ b = .tab → ∃ w', (blanks (b :: w) ++ c :: t).dropWhile
        (fun x => x == 0x20 || x == 0x09) = blanks w' ++ c :: t ∧ (Inline (b :: w) → w' = []) ∧
        ∀ b ∈ w'.head?, b = .lineFeed ∨ b = .carriageReturn := by
      intro hb
      refine ⟨w', ?_, fun h => hinline fun x hx => h x (List.mem_cons_of_mem b hx), hhead⟩
      rw [← hdrop]
      rcases hb with rfl | rfl <;> rfl
    cases b with
    | space => exact hpass (.inl rfl)
    | tab => exact hpass (.inr rfl)
    | lineFeed => exact hstop (.inl rfl)
    | carriageReturn => exact hstop (.inr rfl)

/-! ## The readers -/

theorem readString_none {c : UInt8} (hc : c ≠ 0x22) (t : Bytes) : readString (c :: t) = none := by
  unfold readString
  split
  · rename_i heq
    exact absurd (List.cons.inj heq).1 hc
  · rfl

theorem readBool_none {c : UInt8} (hc : c ≠ 0x74 ∧ c ≠ 0x66) (t : Bytes) :
    readBool (c :: t) = none := by
  unfold readBool
  rw [if_neg, if_neg]
  · exact fun h => hc.2 (List.cons.inj h).1
  · exact fun h => hc.1 (List.cons.inj h).1

/-- The first byte of a value tells its kind. -/
theorem exists_cons_text (v : ValueText) : ∃ c t, v.text = c :: t ∧
    match v with
    | .str _ => c = 0x22
    | .num _ => c = 0x2D ∨ Strtod.isDigit c = true
    | .bool b => c = if b then 0x74 else 0x66 := by
  cases v with
  | str s => exact ⟨0x22, s.body ++ [0x22], rfl, rfl⟩
  | num n =>
    obtain ⟨c, t, hct, hc⟩ := n.int.exists_cons
    cases hminus : n.minus with
    | true =>
      exact ⟨0x2D, n.magnitudeText, by simp [ValueText.text, NumberText.text, hminus], .inl rfl⟩
    | false =>
      refine ⟨c, t ++ ((if n.frac.isSome then [0x2E] else []) ++ (n.fracDigits ++ n.expText)), ?_,
        .inr hc⟩
      simp [ValueText.text, NumberText.text, hminus, NumberText.magnitudeText, hct]
  | bool b =>
    cases b with
    | true => exact ⟨0x74, utf8 "rue", rfl, rfl⟩
    | false => exact ⟨0x66, utf8 "alse", rfl, rfl⟩

/-- A value that its reader understands, behind white space. -/
def Legible : ValueText → List Blank → Prop
  | .str s, w => (∀ p ∈ s, Readable p) ∧ Inline w
  | .num _, _ => True
  | .bool _, w => Inline w

instance : ∀ v w, Decidable (Legible v w)
  | .str _, _ => inferInstanceAs (Decidable (_ ∧ _))
  | .num _, _ => inferInstanceAs (Decidable True)
  | .bool _, w => inferInstanceAs (Decidable (Inline w))

/-- What the three readers make of a text. -/
structure Reads (t : Option Bytes) (v : Option Datum) : Prop where
  string : t.bind readString = (v.bind Datum.string?).map utf8
  number : t.bind strtod = (v.bind Datum.number?).map ExtRat.fin
  bool : t.bind readBool = v.bind Datum.bool?

theorem reads_none : Reads none none := ⟨rfl, rfl, rfl⟩

/-- Text that begins like a string, `true` or `false` begins no number. -/
theorem strtod_letter {c : UInt8} (hc : c = 0x22 ∨ c = 0x74 ∨ c = 0x66) (t : Bytes) :
    strtod (c :: t) = none := by
  rcases hc with rfl | rfl | rfl <;>
    exact strtod_none [] (by decide) (by decide) (by decide) (by decide) t

/-- A line break stops the readers of strings and booleans. -/
theorem readers_blank (w : List Blank) (hw : ∀ b ∈ w.head?, b = .lineFeed ∨ b = .carriageReturn)
    {t : Bytes} (hs : w = [] → readString t = none) (hb : w = [] → readBool t = none) :
    readString (blanks w ++ t) = none ∧ readBool (blanks w ++ t) = none := by
  cases w with
  | nil => exact ⟨hs rfl, hb rfl⟩
  | cons b w =>
    have hbyte : b.byte ≠ 0x22 ∧ b.byte ≠ 0x74 ∧ b.byte ≠ 0x66 := by
      rcases hw b rfl with rfl | rfl <;> decide
    exact ⟨readString_none hbyte.1 _, readBool_none ⟨hbyte.2.1, hbyte.2.2⟩ _⟩

/-- **The readers.** Each understands a legible value of its own kind and takes
no other for one. -/
theorem reads_value {v : ValueText} {w : List Blank} (hv : Legible v w) {r : Bytes}
    (hr : NumberEnds r) :
    Reads (some ((blanks w ++ (v.text ++ r)).dropWhile fun x => x == 0x20 || x == 0x09))
      (some v.value) := by
  cases v with
  | str s =>
    obtain ⟨w', hdrop, hinline, -⟩ :=
      dropWhile_blanks w (c := 0x22) (by decide) (s.body ++ 0x22 :: r)
    have htext : (ValueText.str s).text ++ r = 0x22 :: (s.body ++ 0x22 :: r) := by
      simp [ValueText.text, StringText.text]
    obtain ⟨u, hdecode, hread⟩ := unescape_body hv.1 r
    rw [htext, hdrop, hinline hv.2]
    have hstring : readString (0x22 :: (s.body ++ 0x22 :: r)) = s.decode.map utf8 := by
      rw [hdecode]
      exact hread
    have hnumber : strtod (0x22 :: (s.body ++ 0x22 :: r)) = none := strtod_letter (.inl rfl) _
    have hbool : readBool (0x22 :: (s.body ++ 0x22 :: r)) = none := readBool_none (by decide) _
    exact ⟨hstring, hnumber, hbool⟩
  | num n =>
    obtain ⟨c, t, hct, hc⟩ := exists_cons_text (.num n)
    have hne : c ≠ 0x20 ∧ c ≠ 0x09 ∧ c ≠ 0x22 ∧ c ≠ 0x74 ∧ c ≠ 0x66 := by
      rcases hc with rfl | hdigit
      · decide
      · obtain ⟨hlo, hhi⟩ := isDigit_toNat hdigit
        refine ⟨?_, ?_, ?_, ?_, ?_⟩ <;> rintro rfl <;> revert hlo hhi <;> decide
    obtain ⟨hspace, htab, hquote, ht, hf⟩ := hne
    obtain ⟨w', hdrop, -, hbreak⟩ := dropWhile_blanks w ⟨hspace, htab⟩ (t ++ r)
    have hnumber : strtod (blanks w' ++ ((ValueText.num n).text ++ r)) = some (.fin n.value) :=
      strtod_number w' n hr
    obtain ⟨hstring, hbool⟩ := readers_blank w' hbreak (t := c :: (t ++ r))
      (fun _ => readString_none hquote _) (fun _ => readBool_none ⟨ht, hf⟩ _)
    rw [hct, List.cons_append] at hnumber
    rw [hct, List.cons_append, hdrop]
    exact ⟨hstring, hnumber, hbool⟩
  | bool b =>
    cases b with
    | true =>
      obtain ⟨w', hdrop, hinline, -⟩ := dropWhile_blanks w (c := 0x74) (by decide) (utf8 "rue" ++ r)
      have htext : (ValueText.bool true).text ++ r = 0x74 :: (utf8 "rue" ++ r) := rfl
      rw [htext, hdrop, hinline hv]
      have hstring : readString (0x74 :: (utf8 "rue" ++ r)) = none := readString_none (by decide) _
      have hnumber : strtod (0x74 :: (utf8 "rue" ++ r)) = none := strtod_letter (.inr (.inl rfl)) _
      exact ⟨hstring, hnumber, rfl⟩
    | false =>
      obtain ⟨w', hdrop, hinline, -⟩ := dropWhile_blanks w (c := 0x66) (by decide) (utf8 "alse" ++ r)
      have htext : (ValueText.bool false).text ++ r = 0x66 :: (utf8 "alse" ++ r) := rfl
      rw [htext, hdrop, hinline hv]
      have hstring : readString (0x66 :: (utf8 "alse" ++ r)) = none := readString_none (by decide) _
      have hnumber : strtod (0x66 :: (utf8 "alse" ++ r)) = none := strtod_letter (.inr (.inr rfl)) _
      exact ⟨hstring, hnumber, rfl⟩

end FaceTracking.Mjson
