import FaceTracking.Lib.Lines
import FaceTracking.Net.WebSocketConn

/-!
# Header lookup

`headerValue` finds what reading the header block line by line finds, for every
block but one kind (`header_lookup`): position 0 also stands for a match at the
start of the block, so a block that begins with a blank line and the header has
its value read two bytes early.
-/

namespace FaceTracking.WebSocketConn

open Lib

variable {block block' name line : Bytes}

/-! ## Reading line by line -/

def colon : UInt8 := 0x3A

def lines (block : Bytes) : List Bytes := cut crlf block

/-- The part of a line before its first colon. -/
def fieldName (line : Bytes) : Bytes := line.takeWhile (· ≠ colon)

/-- The part of a line behind its first colon. -/
def fieldValue (line : Bytes) : Bytes := (line.dropWhile (· ≠ colon)).drop 1

/-- A line that gives `name` a value. -/
def Gives (name line : Bytes) : Prop :=
  colon ∈ line ∧ (fieldName line).map toLower = name.map toLower

instance (name line : Bytes) : Decidable (Gives name line) := inferInstanceAs (Decidable (_ ∧ _))

/-- The first line that does. -/
def fieldLine (block name : Bytes) : Option Bytes := (lines block).find? fun l => Gives name l

/-- The value of a header, read line by line. -/
def lookup (block name : Bytes) : Bytes :=
  ((fieldLine block name).map fun line => trim isBlank (fieldValue line)).getD []

/-- Two lines that are the same, or headers of one other name. -/
def SameBut (name l l' : Bytes) : Prop :=
  l = l' ∨
    colon ∈ l ∧ colon ∈ l' ∧ fieldName l = fieldName l' ∧
      (fieldName l).map toLower ≠ name.map toLower

/-- What a lookup promises of a block. -/
structure LookedUp (block name : Bytes) : Prop where
  value : headerValue block name = lookup block name
  /-- Nothing is returned just if no line gives the header a value, or the value is blank. -/
  empty : headerValue block name = [] ↔
    ∀ line, fieldLine block name = some line → ∀ c ∈ fieldValue line, isBlank c
  /-- The values of other headers do not matter. -/
  others : ∀ block', List.Forall₂ (SameBut name) (lines block) (lines block') →
    headerValue block' name = headerValue block name

/-- What a line that gives `name` a value begins with, in lower case. -/
def label (name : Bytes) : Bytes := name.map toLower ++ [colon]

/-- The kind of block that goes wrong. -/
def BlankThenHeader (block name : Bytes) : Prop := crlf ++ label name <+: block.map toLower

instance (block name : Bytes) : Decidable (BlankThenHeader block name) :=
  inferInstanceAs (Decidable (_ <+: _))

/-- A header's name cannot end the line or the name. -/
structure IsName (name : Bytes) : Prop where
  cr : 0x0D ∉ name
  lf : 0x0A ∉ name
  colon : colon ∉ name

/-! ## Lower case -/

theorem toLower_eq_iff {x d : UInt8} (hd : d < 0x41) : toLower x = d ↔ x = d := by
  unfold toLower
  split
  · rename_i h
    simp only [Bool.and_eq_true, decide_eq_true_eq, UInt8.le_iff_toNat_le] at h
    have hsum : (x + 0x20).toNat = x.toNat + 0x20 := by
      rw [UInt8.toNat_add]
      exact Nat.mod_eq_of_lt (by have := h.2; simp at this ⊢; omega)
    have hlt : d.toNat < 0x41 := hd
    have hge : 0x41 ≤ x.toNat := h.1
    rw [← UInt8.toNat_inj, ← UInt8.toNat_inj, hsum]
    omega
  · rfl

theorem toLower_crlf (x : UInt8) : ∀ d ∈ crlf, toLower x = d ↔ x = d := by
  have hcrlf : ∀ d ∈ crlf, d < 0x41 := by decide +kernel
  exact fun d hd => toLower_eq_iff (hcrlf d hd)

theorem mem_map_toLower {d : UInt8} (hd : d < 0x41) (l : Bytes) : d ∈ l.map toLower ↔ d ∈ l := by
  simp [toLower_eq_iff hd]

/-! ## Lines that give a value -/

theorem crlf_eq : crlf = [0x0D, 0x0A] := by decide +kernel

theorem borderless_crlf : Borderless [(0x0D : UInt8), 0x0A] := by
  intro i hpos hlt
  obtain rfl : i = 1 := by
    simp only [List.length_cons, List.length_nil] at hlt
    omega
  decide

/-! ## Reading a value -/

/-- What `headerValue` returns once it has a position. -/
def valueAt (block : Bytes) (pos : Nat) : Bytes :=
  let stop := pos + (find? crlf (block.drop pos)).getD (block.length - pos)
  match (block.drop pos).findIdx? (fun c => !isBlank c) with
  | none => []
  | some a =>
    if pos + a ≥ stop then [] else ((block.take stop).rdropWhile isBlank).drop (pos + a)

/-- A text is split at its first symbol that is no blank. -/
theorem split_at_text {t : Bytes} {a : Nat} (h : t.findIdx? (fun c => !isBlank c) = some a) :
    ∃ w x y, t = w ++ x :: y ∧ w.length = a ∧ (∀ c ∈ w, isBlank c) ∧ isBlank x = false := by
  obtain ⟨hlt, hx, hbefore⟩ := List.findIdx?_eq_some_iff_getElem.mp h
  refine ⟨t.take a, t[a], t.drop (a + 1), ?_, by simpa using hlt.le, ?_, by simpa using hx⟩
  · rw [← List.drop_eq_getElem_cons, List.take_append_drop]
  · intro c hc
    obtain ⟨j, hj, rfl⟩ := List.mem_take_iff_getElem.mp hc
    simpa using hbefore j (by omega)

/-- It is the rest of the line, trimmed. -/
theorem valueAt_eq {pos : Nat} (h : pos ≤ block.length) :
    valueAt block pos = trim isBlank (firstLine crlf (block.drop pos)) := by
  have hlen : (block.take pos).length = pos := List.length_take_of_le h
  unfold valueAt firstLine
  rw [← List.length_drop]
  simp only [List.take_add]
  generalize block.drop pos = t
  generalize (find? crlf t).getD t.length = s
  cases ha : t.findIdx? (fun c => !isBlank c) with
  | none =>
    have hblank := List.findIdx?_eq_none_iff.mp ha
    rw [eq_comm, trim_eq_nil_iff]
    intro x hx
    simpa using hblank x (List.mem_of_mem_take hx)
  | some a =>
    obtain ⟨w, x, y, rfl, rfl, hw, hx⟩ := split_at_text ha
    simp only
    split
    · -- the first symbol that is no blank is behind the end of the line
      rw [eq_comm, trim_eq_nil_iff, List.take_append_of_le_length (by omega)]
      exact fun c hc => hw c (List.mem_of_mem_take hc)
    · obtain ⟨d, rfl⟩ : ∃ d, s = w.length + (d + 1) := ⟨s - w.length - 1, by omega⟩
      have hmem : ∃ c ∈ x :: y.take d, isBlank c = false := ⟨x, List.mem_cons_self, hx⟩
      have hskip : (w ++ x :: y.take d).dropWhile isBlank = x :: y.take d := by
        rw [List.dropWhile_append_of_pos hw, List.dropWhile_cons_of_neg (by simp [hx])]
      rw [List.take_length_add_append, List.take_succ_cons, ← List.append_assoc,
        rdropWhile_append hmem, ← hlen, ← List.length_append, hlen, List.drop_left, trim, hskip]

theorem split_at_colon {u v : Bytes} (hu : colon ∉ u) :
    fieldName (u ++ colon :: v) = u ∧ fieldValue (u ++ colon :: v) = v := by
  have hall : ∀ x ∈ u, decide (x ≠ colon) = true := by
    intro x hx
    simp only [ne_eq, decide_not, Bool.not_eq_eq_eq_not, Bool.not_true, decide_eq_false_iff_not]
    rintro rfl
    exact hu hx
  constructor
  · rw [fieldName, List.takeWhile_append_of_pos hall, List.takeWhile_cons_of_neg (by simp),
      List.append_nil]
  · rw [fieldValue, List.dropWhile_append_of_pos hall, List.dropWhile_cons_of_neg (by simp)]
    rfl

/-- The value of such a line follows the name and the colon. -/
theorem fieldValue_eq (h : Gives name line) : fieldValue line = line.drop (name.length + 1) := by
  obtain ⟨hmem, heq⟩ := h
  obtain ⟨u, v, rfl, hu⟩ := List.eq_append_cons_of_mem hmem
  rw [(split_at_colon hu).1] at heq
  have hlen := congrArg List.length heq
  simp only [List.length_map] at hlen
  rw [(split_at_colon hu).2, ← hlen, ← List.drop_drop, List.drop_left]
  rfl

section Name

variable (hname : IsName name)
include hname

/-- A line gives `name` a value just if it begins with the name and a colon. -/
theorem gives_iff : Gives name line ↔ label name <+: line.map toLower := by
  have hcolon : toLower colon = colon := by decide
  constructor
  · rintro ⟨hmem, heq⟩
    obtain ⟨u, v, rfl, hu⟩ := List.eq_append_cons_of_mem hmem
    rw [(split_at_colon hu).1] at heq
    exact ⟨v.map toLower, by simp [label, heq, hcolon]⟩
  · rintro ⟨r, hr⟩
    rw [label, List.append_assoc] at hr
    obtain ⟨u, w, rfl, hu, hw⟩ := List.map_eq_append_iff.mp hr.symm
    obtain ⟨x, v, rfl, hx, -⟩ := List.map_eq_cons_iff.mp hw
    obtain rfl : x = colon := (toLower_eq_iff (by decide)).mp hx
    have hfree : colon ∉ u := by
      rw [← mem_map_toLower (by decide), hu, mem_map_toLower (by decide)]
      exact hname.colon
    refine ⟨by simp, ?_⟩
    rw [(split_at_colon hfree).1, hu]

theorem cr_not_mem_label : (0x0D : UInt8) ∉ label name := by
  unfold label
  rw [List.mem_append, mem_map_toLower (by decide)]
  rintro (h | h)
  · exact hname.cr h
  · revert h
    decide

/-- The position at which `headerValue` takes the header's line to start. -/
def foundAt (block name : Bytes) : Option Nat :=
  (if label name <+: block.map toLower then some 0
    else find? (crlf ++ label name) (block.map toLower)).map fun pos =>
      if pos ≠ 0 then pos + 2 else pos

omit hname in
theorem headerValue_eq :
    headerValue block name =
      ((foundAt block name).map fun p => valueAt block (p + (name.length + 1))).getD [] := by
  have hprefix : (block.map toLower).take ((name.map toLower).length + 1) =
      name.map toLower ++ [0x3A] ↔ label name <+: block.map toLower := by
    rw [List.prefix_iff_eq_take, eq_comm]
    simp [label, colon]
  have hfound :
      (if (block.map toLower).take ((name.map toLower).length + 1) = name.map toLower ++ [0x3A]
        then some 0 else find? (crlf ++ name.map toLower ++ [0x3A]) (block.map toLower)) =
      if label name <+: block.map toLower then some 0
        else find? (crlf ++ label name) (block.map toLower) := by
    rw [if_congr hprefix rfl rfl, List.append_assoc]
    rfl
  unfold headerValue foundAt
  simp only [hfound]
  generalize (if label name <+: block.map toLower then some 0
    else find? (crlf ++ label name) (block.map toLower)) = pos
  cases pos with
  | none => rfl
  | some pos =>
    simp only [List.length_map]
    rfl

omit hname in
/-- The start of a block is a line start, and so is what follows a separator; 0 can be both. -/
theorem foundAt_eq (h : ¬ BlankThenHeader block name) :
    foundAt block name = lineStart crlf (label name) (block.map toLower) := by
  unfold foundAt lineStart
  split
  · rfl
  · cases hk : find? (crlf ++ label name) (block.map toLower) with
    | none => rfl
    | some k =>
      have hpos : k ≠ 0 := by
        rintro rfl
        exact h (find?_spec hk).1
      simp [hpos, crlf_eq]

theorem foundAt_blank (h : BlankThenHeader block name) :
    foundAt block name = some 0 ∧
      lineStart crlf (label name) (block.map toLower) = some 2 := by
  have hne : crlf ++ label name ≠ [] := by simp [crlf_eq]
  have hzero : find? (crlf ++ label name) (block.map toLower) = some 0 :=
    find?_eq_some hne h nofun
  have hstart : ¬ label name <+: block.map toLower := by
    intro hp
    have hcr : [(0x0D : UInt8)] <+: block.map toLower :=
      List.IsPrefix.trans ⟨0x0A :: label name, by simp [crlf_eq]⟩ h
    have hlen : 1 ≤ (label name).length := by simp [label]
    exact cr_not_mem_label hname
      ((List.prefix_of_prefix_length_le hcr hp hlen).subset (List.mem_singleton_self _))
  rw [foundAt, lineStart, if_neg hstart, if_neg hstart, hzero]
  exact ⟨rfl, by simp [crlf_eq]⟩

/-- A block that goes wrong has the colon, behind a symbol that is no carriage
return, before the value. -/
theorem blank_split (h : BlankThenHeader block name) :
    ∃ w z v, block = w ++ ([z, colon] ++ v) ∧ w.length = name.length + 1 ∧
      (0x0D : UInt8) ∉ [z, colon] := by
  obtain ⟨r, hr⟩ := h
  obtain ⟨a, v, rfl, ha, -⟩ := List.map_eq_append_iff.mp hr.symm
  -- `a` is a carriage return, `u` a line feed and the name, and the colon
  obtain ⟨x, b, rfl, -, hb⟩ := List.map_eq_cons_iff.mp (ha.trans (by rw [crlf_eq]; rfl))
  obtain ⟨u, c, rfl, hu, hc⟩ := List.map_eq_append_iff.mp
    (hb.trans (show _ = (0x0A :: name.map toLower) ++ [colon] by simp [label]))
  obtain ⟨y, rfl, hy⟩ := List.map_eq_singleton_iff.mp hc
  obtain rfl : y = colon := (toLower_eq_iff (by decide)).mp hy
  have hlen : u.length = name.length + 1 := by simpa using congrArg List.length hu
  have hfree : (0x0D : UInt8) ∉ u := by
    rw [← mem_map_toLower (by decide), hu, List.mem_cons, mem_map_toLower (by decide)]
    rintro (h | h)
    · revert h
      decide
    · exact hname.cr h
  have hne : u ≠ [] := List.ne_nil_of_length_pos (by omega)
  obtain ⟨w, z, rfl⟩ : ∃ w z, u = w ++ [z] :=
    ⟨u.dropLast, u.getLast hne, (List.dropLast_append_getLast hne).symm⟩
  refine ⟨x :: w, z, v, by simp, by simpa using hlen, ?_⟩
  simp only [List.mem_append, List.mem_singleton, not_or] at hfree
  simp only [List.mem_cons, List.not_mem_nil, or_false, not_or]
  exact ⟨hfree.2, by decide⟩

/-- The value read two bytes early has one more colon. -/
theorem valueAt_early (h : BlankThenHeader block name) :
    valueAt block (name.length + 1) ≠ valueAt block (2 + (name.length + 1)) := by
  obtain ⟨w, z, v, rfl, hw, hpair⟩ := blank_split hname h
  have hearly : (w ++ ([z, colon] ++ v)).drop (name.length + 1) = [z, colon] ++ v := by
    rw [← hw, List.drop_left]
  have hlater : (w ++ ([z, colon] ++ v)).drop (2 + (name.length + 1)) = v := by
    rw [Nat.add_comm, ← List.drop_drop, hearly]
    rfl
  have hle : 2 + (name.length + 1) ≤ (w ++ ([z, colon] ++ v)).length := by
    rw [List.length_append, hw]
    simp
    omega
  rw [valueAt_eq (by omega), valueAt_eq hle, hearly, hlater, crlf_eq, firstLine_append hpair]
  intro heq
  have hcount := congrArg (List.count colon) heq
  rw [count_trim (by decide), count_trim (by decide), List.count_append] at hcount
  have hone : 0 < [z, colon].count colon := List.count_pos_iff.mpr (by simp)
  omega

/-- The search of the whole block finds the first line that gives `name` a value. -/
theorem fieldLine_eq :
    fieldLine block name =
      (lineStart crlf (label name) (block.map toLower)).map fun p =>
        firstLine crlf (block.drop p) := by
  have hlines := cut_find? borderless_crlf (cr_not_mem_label hname)
    (fun x => crlf_eq ▸ toLower_crlf x) block
  rw [← crlf_eq] at hlines
  rw [fieldLine, lines, ← hlines]
  congr 1
  funext l
  exact decide_eq_decide.mpr (gives_iff hname)

/-- Reading line by line finds the value behind the first line that begins with
the label. -/
theorem lookup_eq :
    lookup block name =
      ((lineStart crlf (label name) (block.map toLower)).map fun p =>
        valueAt block (p + (name.length + 1))).getD [] := by
  unfold lookup
  rw [fieldLine_eq hname]
  cases hp : lineStart crlf (label name) (block.map toLower) with
  | none => rfl
  | some p =>
    simp only [Option.map_some, Option.getD_some]
    have hgives : Gives name (firstLine crlf (block.drop p)) := by
      have hline : fieldLine block name = some (firstLine crlf (block.drop p)) := by
        rw [fieldLine_eq hname, hp]
        rfl
      simpa using List.find?_some hline
    -- the name and the colon are in the line, so the value's line is the rest of it
    obtain ⟨r, hr⟩ := lineStart_spec hp
    rw [← List.map_drop] at hr
    obtain ⟨u, v, huv, hu, -⟩ := List.map_eq_append_iff.mp hr.symm
    have hlen : u.length = name.length + 1 := by
      simpa [label] using congrArg List.length hu
    have hfree : (0x0D : UInt8) ∉ u := by
      rw [← mem_map_toLower (by decide), hu]
      exact cr_not_mem_label hname
    have hdrop : block.drop (p + (name.length + 1)) = v := by
      rw [← List.drop_drop, huv, ← hlen, List.drop_left]
    have hle : p + (name.length + 1) ≤ block.length := by
      have := congrArg List.length huv
      rw [List.length_drop, List.length_append] at this
      omega
    rw [valueAt_eq hle, hdrop, fieldValue_eq hgives, huv, crlf_eq, firstLine_append hfree, ← hlen,
      List.drop_left]

/-- The value is the one read line by line just if the block does not begin that way. -/
theorem headerValue_eq_lookup_iff :
    headerValue block name = lookup block name ↔ ¬ BlankThenHeader block name := by
  rw [headerValue_eq, lookup_eq hname]
  constructor
  · intro heq h
    obtain ⟨hfound, hstart⟩ := foundAt_blank hname h
    rw [hfound, hstart] at heq
    simp only [Option.map_some, Option.getD_some, Nat.zero_add] at heq
    exact valueAt_early hname h heq
  · intro h
    rw [foundAt_eq h]

/-! ## What the value depends on -/

/-- The block goes wrong just if an empty first line is followed by the header.
-/
theorem blankThenHeader_iff :
    BlankThenHeader block name ↔ ∃ l ls, lines block = [] :: l :: ls ∧ Gives name l := by
  have hsep : crlf ≠ [] := by simp [crlf_eq]
  constructor
  · intro h
    have hat : crlf <+: block := by
      rw [← prefix_map toLower_crlf]
      exact (List.prefix_append _ _).trans h
    have hzero : find? crlf block = some 0 := find?_eq_some hsep hat nofun
    have hline : fieldLine block name = some (firstLine crlf (block.drop 2)) := by
      rw [fieldLine_eq hname, (foundAt_blank hname h).2]
      rfl
    obtain ⟨ls, hls⟩ := cut_head hsep (block.drop 2)
    refine ⟨_, ls, ?_, by simpa using List.find?_some hline⟩
    rw [lines, cut_some hsep hzero, ← hls, crlf_eq]
    rfl
  · rintro ⟨l, ls, hlines, hgives⟩
    rw [lines] at hlines
    cases hk : find? crlf block with
    | none =>
      rw [cut_none hsep hk] at hlines
      cases hlines
    | some k =>
      rw [cut_some hsep hk] at hlines
      obtain ⟨hnil, htail⟩ := List.cons.inj hlines
      have hle := find?_le_length hk
      obtain rfl : k = 0 := by
        have := congrArg List.length hnil
        rw [List.length_take, List.length_nil] at this
        omega
      obtain ⟨ls', hls'⟩ := cut_head hsep (block.drop (0 + crlf.length))
      obtain ⟨rfl, -⟩ := List.cons.inj (htail.symm.trans hls')
      obtain ⟨⟨r, rfl⟩, -⟩ := find?_spec hk
      rw [Nat.zero_add, List.drop_left] at hgives
      rw [BlankThenHeader, List.map_append, (by decide +kernel : crlf.map toLower = crlf),
        List.prefix_append_right_inj]
      have hfirst : firstLine crlf r <+: r := List.take_prefix _ _
      exact ((gives_iff hname).mp hgives).trans (hfirst.map toLower)

omit hname in
/-- Lines that differ in other headers' values only: the same line gives the value. -/
theorem find?_sameBut {ls ls' : List Bytes} (h : List.Forall₂ (SameBut name) ls ls') :
    (ls.find? fun l => Gives name l) = ls'.find? fun l => Gives name l := by
  induction h with
  | nil => rfl
  | cons hl _ ih =>
    rcases hl with rfl | ⟨-, -, heq, hother⟩
    · rw [List.find?_cons, List.find?_cons, ih]
    · rw [List.find?_cons_of_neg (by simpa using fun h => hother h.2),
        List.find?_cons_of_neg (by simpa using fun h => hother (heq ▸ h.2)), ih]

theorem blankThenHeader_of_sameBut (h : List.Forall₂ (SameBut name) (lines block) (lines block'))
    (hblank : BlankThenHeader block' name) : BlankThenHeader block name := by
  obtain ⟨l', ls', hlines', hgives⟩ := (blankThenHeader_iff hname).mp hblank
  rw [hlines'] at h
  generalize hlines : lines block = ls at h
  cases h with
  | cons hfirst hrest =>
    cases hrest with
    | cons hsecond _ =>
      refine (blankThenHeader_iff hname).mpr ?_
      rcases hfirst with rfl | ⟨-, hmem, -⟩
      · rcases hsecond with rfl | ⟨-, -, heq, hother⟩
        · exact ⟨_, _, hlines, hgives⟩
        · exact absurd (heq ▸ hgives.2) hother
      · cases hmem

omit hname in
theorem lookup_eq_nil_iff :
    lookup block name = [] ↔
      ∀ line, fieldLine block name = some line → ∀ c ∈ fieldValue line, isBlank c := by
  unfold lookup
  cases fieldLine block name with
  | none => simp
  | some line => simp [trim_eq_nil_iff]

/-- **Header lookup.** For a name without carriage return, line feed or colon, a lookup keeps
what it promises just if the block does not begin with a blank line and the header itself. -/
theorem header_lookup : LookedUp block name ↔ ¬ BlankThenHeader block name := by
  refine ⟨fun h => (headerValue_eq_lookup_iff hname).mp h.value, fun h => ?_⟩
  have hvalue := (headerValue_eq_lookup_iff hname).mpr h
  refine ⟨hvalue, ?_, fun block' hsame => ?_⟩
  · rw [hvalue]
    exact lookup_eq_nil_iff
  · have h' := mt (blankThenHeader_of_sameBut hname hsame) h
    rw [hvalue, (headerValue_eq_lookup_iff hname).mpr h', lookup, lookup, fieldLine, fieldLine,
      find?_sameBut hsame]

end Name

theorem header_lookup_key :
    LookedUp (utf8 "GET / HTTP/1.1\r\nX: Host: b\r\nhOST: \ta c \r\n") (utf8 "Host") :=
  (header_lookup ⟨by decide +kernel, by decide +kernel, by decide +kernel⟩).mpr (by decide +kernel)

/-- The key of a request that begins with a blank line is read from the header's name on. -/
theorem header_read_early :
    ¬ LookedUp (utf8 "\r\nSec-WebSocket-Key: abc\r\n") (utf8 "Sec-WebSocket-Key") ∧
      requestKey (utf8 "\r\nSec-WebSocket-Key: abc\r\n\r\n") = utf8 "y: abc" := by
  refine ⟨fun h => ?_, by decide +kernel⟩
  have hvalue := h.value
  revert hvalue
  decide +kernel

end FaceTracking.WebSocketConn
