import FaceTracking.Lib.Bytes

/-!
# Incremental decoding

A `Decoder` looks for one item at the front of a buffer and answers that there
is one, that more symbols are needed, or that no continuation can be an item.
Its fields carry the facts every buffered reader relies on: an item takes at
least one symbol and at most the buffer, it is decided by the symbols it takes,
and a rejection is not changed by symbols that arrive later.

`Decoder.scan` takes items off the front until the decoder stops or an item
satisfies the stop test. `scan_append` is the main result: scanning two pieces
one after the other, the remainder of the first put in front of the second, is
scanning their concatenation. `scanChunks_eq` extends it to any list of pieces,
so what a buffered reader hands out does not depend on how its input was cut.
-/

namespace Lib

/-- What the front of a buffer holds. -/
inductive Step (α : Type) where
  /-- One item, occupying the first `n` symbols. -/
  | item (a : α) (n : Nat)
  /-- Too short to tell. -/
  | more
  /-- Not the beginning of any item. -/
  | bad
deriving DecidableEq

/-- A decoder whose answers, once given, are not changed by further input. -/
structure Decoder (β α : Type) where
  step : List β → Step α
  step_nil : step [] = .more
  item_pos : ∀ {b a n}, step b = .item a n → 0 < n
  item_le : ∀ {b a n}, step b = .item a n → n ≤ b.length
  /-- An item is decided by the symbols it takes. -/
  item_local : ∀ {b a n}, step b = .item a n → ∀ b', b'.take n = b.take n → step b' = .item a n
  bad_append : ∀ {b}, step b = .bad → ∀ c, step (b ++ c) = .bad

/-- Why a scan ended. -/
inductive Ending where
  /-- The decoder asked for more input. -/
  | starved
  /-- The decoder rejected the buffer. -/
  | broken
  /-- The last item satisfied the stop test. -/
  | halted
deriving DecidableEq, Repr

/-- Result of a scan: the items taken, the symbols left, and why it ended. -/
@[ext] structure Scan (β α : Type) where
  items : List α
  rest : List β
  ending : Ending
deriving DecidableEq

namespace Scan

variable {β α : Type}

/-- Items found in front of what a scan of the rest finds. -/
def prepend (as : List α) (s : Scan β α) : Scan β α :=
  ⟨as ++ s.items, s.rest, s.ending⟩

@[simp] theorem prepend_items (as : List α) (s : Scan β α) :
    (s.prepend as).items = as ++ s.items := rfl

@[simp] theorem prepend_rest (as : List α) (s : Scan β α) : (s.prepend as).rest = s.rest := rfl

@[simp] theorem prepend_ending (as : List α) (s : Scan β α) :
    (s.prepend as).ending = s.ending := rfl

@[simp] theorem prepend_nil (s : Scan β α) : s.prepend [] = s := rfl

theorem prepend_prepend (as bs : List α) (s : Scan β α) :
    (s.prepend bs).prepend as = s.prepend (as ++ bs) := by
  simp [prepend]

end Scan

namespace Decoder

variable {β α : Type} (D : Decoder β α) (stop : α → Bool)

theorem item_append {b : List β} {a : α} {n : Nat} (h : D.step b = .item a n) (c : List β) :
    D.step (b ++ c) = .item a n :=
  D.item_local h _ (List.take_append_of_le_length (D.item_le h))

/-- `scan` with an explicit bound on the number of items. -/
def scanFuel : Nat → List β → Scan β α
  | 0, b => ⟨[], b, .starved⟩
  | f + 1, b =>
    match D.step b with
    | .more => ⟨[], b, .starved⟩
    | .bad => ⟨[], b, .broken⟩
    | .item a n =>
      if stop a then ⟨[a], b.drop n, .halted⟩
      else
        let r := scanFuel f (b.drop n)
        ⟨a :: r.items, r.rest, r.ending⟩

/-- Take items off the front of a buffer for as long as the decoder finds one
and none satisfies the stop test. -/
def scan (b : List β) : Scan β α := D.scanFuel stop (b.length + 1) b

/-- Bounds past the buffer's length do not matter. -/
theorem scanFuel_eq {f g : Nat} {b : List β} (hf : b.length < f) (hg : b.length < g) :
    D.scanFuel stop f b = D.scanFuel stop g b := by
  induction f generalizing g b with
  | zero => omega
  | succ f ih =>
    obtain ⟨g, rfl⟩ : ∃ g', g = g' + 1 := ⟨g - 1, by omega⟩
    simp only [scanFuel]
    cases hs : D.step b with
    | more => rfl
    | bad => rfl
    | item a n =>
      have hp := D.item_pos hs
      have hl := D.item_le hs
      have hd : (b.drop n).length < f := by rw [List.length_drop]; omega
      have hd' : (b.drop n).length < g := by rw [List.length_drop]; omega
      simp only [ih hd hd']

theorem scan_more {b : List β} (h : D.step b = .more) : D.scan stop b = ⟨[], b, .starved⟩ := by
  simp [scan, scanFuel, h]

theorem scan_bad {b : List β} (h : D.step b = .bad) : D.scan stop b = ⟨[], b, .broken⟩ := by
  simp [scan, scanFuel, h]

theorem scan_stop {b : List β} {a : α} {n : Nat} (h : D.step b = .item a n) (hs : stop a = true) :
    D.scan stop b = ⟨[a], b.drop n, .halted⟩ := by
  simp [scan, scanFuel, h, hs]

theorem scan_item {b : List β} {a : α} {n : Nat} (h : D.step b = .item a n)
    (hs : stop a = false) :
    D.scan stop b = (D.scan stop (b.drop n)).prepend [a] := by
  have hp := D.item_pos h
  have hl := D.item_le h
  have hd : (b.drop n).length < b.length := by rw [List.length_drop]; omega
  rw [scan, scanFuel, h]
  simp only [hs, Bool.false_eq_true, if_false]
  rw [D.scanFuel_eq stop hd (Nat.lt_succ_self _)]
  rfl

/-- A property of buffers holds if it holds in each case of the decoder's
answer. -/
theorem scan_induction {P : List β → Prop}
    (more : ∀ b, D.step b = .more → P b)
    (bad : ∀ b, D.step b = .bad → P b)
    (halt : ∀ b a n, D.step b = .item a n → stop a = true → P b)
    (item : ∀ b a n, D.step b = .item a n → stop a = false → P (b.drop n) → P b)
    (b : List β) : P b := by
  induction hlen : b.length using Nat.strong_induction_on generalizing b with
  | _ k ih =>
    cases hs : D.step b with
    | more => exact more b hs
    | bad => exact bad b hs
    | item a n =>
      have hp := D.item_pos hs
      have hl := D.item_le hs
      cases ha : stop a with
      | true => exact halt b a n hs ha
      | false =>
        exact item b a n hs ha (ih (b.drop n).length (by rw [List.length_drop]; omega) _ rfl)

/-- An item of a scan is an answer of the decoder. -/
theorem exists_step_of_mem (b : List β) {a : α} (h : a ∈ (D.scan stop b).items) :
    ∃ b' n, D.step b' = .item a n := by
  induction b using D.scan_induction stop with
  | more b hs => rw [D.scan_more stop hs] at h; cases h
  | bad b hs => rw [D.scan_bad stop hs] at h; cases h
  | halt b x n hs hx =>
    rw [D.scan_stop stop hs hx] at h
    exact ⟨b, n, List.mem_singleton.mp h ▸ hs⟩
  | item b x n hs hx ih =>
    rw [D.scan_item stop hs hx] at h
    rcases List.mem_cons.mp h with rfl | h
    · exact ⟨b, n, hs⟩
    · exact ih h

/-- A starved scan leaves a buffer the decoder asks more for. -/
theorem step_rest_of_starved (b : List β) (h : (D.scan stop b).ending = .starved) :
    D.step (D.scan stop b).rest = .more := by
  induction b using D.scan_induction stop with
  | more b hs => rwa [D.scan_more stop hs]
  | bad b hs => rw [D.scan_bad stop hs] at h; cases h
  | halt b a n hs ha => rw [D.scan_stop stop hs ha] at h; cases h
  | item b a n hs ha ih =>
    rw [D.scan_item stop hs ha] at h ⊢
    exact ih h

/-- Only the last item can satisfy the stop test, and it does when the scan halted. -/
theorem items_of_scan (b : List β) :
    ∃ as, (∀ a ∈ as, stop a = false) ∧
      ((D.scan stop b).items = as ∧ (D.scan stop b).ending ≠ .halted ∨
        ∃ a, stop a = true ∧ (D.scan stop b).items = as ++ [a] ∧
          (D.scan stop b).ending = .halted) := by
  induction b using D.scan_induction stop with
  | more b hs => exact ⟨[], by simp, .inl (by simp [D.scan_more stop hs])⟩
  | bad b hs => exact ⟨[], by simp, .inl (by simp [D.scan_bad stop hs])⟩
  | halt b a n hs ha => exact ⟨[], by simp, .inr ⟨a, ha, by simp [D.scan_stop stop hs ha]⟩⟩
  | item b a n hs ha ih =>
    obtain ⟨as, has, hcase⟩ := ih
    refine ⟨a :: as, ?_, ?_⟩
    · intro x hx
      cases hx with
      | head => exact ha
      | tail _ hx => exact has x hx
    · rw [D.scan_item stop hs ha]
      rcases hcase with ⟨hi, he⟩ | ⟨z, hz, hi, he⟩
      · exact .inl (by simp [hi, he])
      · exact .inr ⟨z, hz, by simp [hi, he]⟩

/-- Nothing is lost: what is left is a suffix of the buffer. -/
theorem rest_suffix (b : List β) : (D.scan stop b).rest <:+ b := by
  induction b using D.scan_induction stop with
  | more b hs => rw [D.scan_more stop hs]
  | bad b hs => rw [D.scan_bad stop hs]
  | halt b a n hs ha =>
    rw [D.scan_stop stop hs ha]
    exact List.drop_suffix n b
  | item b a n hs ha ih =>
    rw [D.scan_item stop hs ha]
    exact ih.trans (List.drop_suffix n b)

/-- The symbols a scan took give the same items on their own, with nothing left.
-/
theorem scan_consumed (b : List β) :
    D.scan stop (b.take (b.length - (D.scan stop b).rest.length)) =
      ⟨(D.scan stop b).items, [],
        if (D.scan stop b).ending = .halted then .halted else .starved⟩ := by
  induction b using D.scan_induction stop with
  | more b hs => simp [D.scan_more stop hs, D.scan_more stop D.step_nil]
  | bad b hs => simp [D.scan_bad stop hs, D.scan_more stop D.step_nil]
  | halt b a n hs ha =>
    have hle := D.item_le hs
    have hm : b.length - (b.drop n).length = n := by rw [List.length_drop]; omega
    have hs' : D.step (b.take n) = .item a n := D.item_local hs _ (by rw [List.take_take]; simp)
    rw [D.scan_stop stop hs ha, hm, D.scan_stop stop hs' ha]
    simp
  | item b a n hs ha ih =>
    have hle := D.item_le hs
    have hr : (D.scan stop (b.drop n)).rest.length ≤ b.length - n := by
      have h := (D.rest_suffix stop (b.drop n)).length_le
      rwa [List.length_drop] at h
    -- the taken symbols are the item's own followed by those taken behind it
    generalize hm : b.length - (D.scan stop (b.drop n)).rest.length = m
    have hs' : D.step (b.take m) = .item a n :=
      D.item_local hs _ (by rw [List.take_take, Nat.min_eq_left (by omega)])
    have hd : (b.take m).drop n =
        (b.drop n).take ((b.drop n).length - (D.scan stop (b.drop n)).rest.length) := by
      rw [List.drop_take, List.length_drop]
      congr 1
      omega
    rw [D.scan_item stop hs ha]
    simp only [Scan.prepend_rest, Scan.prepend_items, Scan.prepend_ending, hm]
    rw [D.scan_item stop hs' ha, hd, ih]
    rfl

/-- Scanning what a starved scan left, with more input behind it, continues the
scan as if the input had come in one piece. -/
theorem scan_append (b c : List β) (h : (D.scan stop b).ending = .starved) :
    D.scan stop (b ++ c) =
      (D.scan stop ((D.scan stop b).rest ++ c)).prepend (D.scan stop b).items := by
  induction b using D.scan_induction stop with
  | more b hs => rw [D.scan_more stop hs]; rfl
  | bad b hs => rw [D.scan_bad stop hs] at h; cases h
  | halt b a n hs ha => rw [D.scan_stop stop hs ha] at h; cases h
  | item b a n hs ha ih =>
    rw [D.scan_item stop hs ha] at h
    rw [D.scan_item stop (D.item_append hs c) ha, D.scan_item stop hs ha,
      List.drop_append_of_le_length (D.item_le hs), ih h, Scan.prepend_prepend]
    rfl

/-- A scan that ended for another reason is not changed by more input. -/
theorem scan_append_of_ended (b c : List β) (h : (D.scan stop b).ending ≠ .starved) :
    D.scan stop (b ++ c) =
      ⟨(D.scan stop b).items, (D.scan stop b).rest ++ c, (D.scan stop b).ending⟩ := by
  induction b using D.scan_induction stop with
  | more b hs => rw [D.scan_more stop hs] at h; exact absurd rfl h
  | bad b hs => rw [D.scan_bad stop (D.bad_append hs c), D.scan_bad stop hs]
  | halt b a n hs ha =>
    rw [D.scan_stop stop (D.item_append hs c) ha, D.scan_stop stop hs ha,
      List.drop_append_of_le_length (D.item_le hs)]
  | item b a n hs ha ih =>
    rw [D.scan_item stop hs ha] at h
    rw [D.scan_item stop (D.item_append hs c) ha, D.scan_item stop hs ha,
      List.drop_append_of_le_length (D.item_le hs), ih h]
    rfl

/-- Scanning a sequence of well-formed items recovers them and goes on with
what follows. -/
theorem scan_encode (enc : α → List β) (as : List α)
    (henc : ∀ a ∈ as, ∀ c, D.step (enc a ++ c) = .item a (enc a).length)
    (hstop : ∀ a ∈ as, stop a = false) (r : List β) :
    D.scan stop (as.flatMap enc ++ r) = (D.scan stop r).prepend as := by
  induction as with
  | nil => rfl
  | cons a as ih =>
    have hs := henc a List.mem_cons_self (as.flatMap enc ++ r)
    rw [List.flatMap_cons, List.append_assoc, D.scan_item stop hs (hstop a List.mem_cons_self),
      List.drop_left, ih (fun x hx => henc x (List.mem_cons_of_mem a hx))
        (fun x hx => hstop x (List.mem_cons_of_mem a hx)), Scan.prepend_prepend]
    rfl

/-! ## Input in pieces -/

/-- A buffered reader: each piece is put behind what the previous scan left;
once a scan ends for another reason than starvation, later pieces are not
looked at. -/
def scanChunks : List β → List (List β) → Scan β α
  | buf, [] => ⟨[], buf, .starved⟩
  | buf, c :: cs =>
    match (D.scan stop (buf ++ c)).ending with
    | .starved =>
      (scanChunks (D.scan stop (buf ++ c)).rest cs).prepend (D.scan stop (buf ++ c)).items
    | e => ⟨(D.scan stop (buf ++ c)).items, (D.scan stop (buf ++ c)).rest ++ cs.flatten, e⟩

/-- **Chunk independence.** A buffered reader that starts with nothing to hand
out finds in any pieces what one scan finds in their concatenation. -/
theorem scanChunks_eq (cs : List (List β)) (buf : List β) (h : D.step buf = .more) :
    D.scanChunks stop buf cs = D.scan stop (buf ++ cs.flatten) := by
  induction cs generalizing buf with
  | nil => simp [scanChunks, D.scan_more stop h]
  | cons c cs ih =>
    rw [List.flatten_cons, ← List.append_assoc, scanChunks]
    cases he : (D.scan stop (buf ++ c)).ending with
    | starved =>
      rw [D.scan_append stop (buf ++ c) cs.flatten he]
      simp only
      rw [ih _ (D.step_rest_of_starved stop _ he)]
    | broken => rw [D.scan_append_of_ended stop (buf ++ c) cs.flatten (by simp [he]), he]
    | halted => rw [D.scan_append_of_ended stop (buf ++ c) cs.flatten (by simp [he]), he]

end Decoder

end Lib
