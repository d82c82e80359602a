import FaceTracking.Lib.Bytes

/-!
# Lines

A list cut at a separator, and a line trimmed at both ends. `cut_find?` is the
bridge to code that searches a whole text: the first line that begins with a
given text is the one at the text's start, or behind the first separator that is
followed by it. The separator must not overlap itself (`Borderless`).
-/

namespace Lib

variable {α : Type} [DecidableEq α] {sep n l : List α} {k : Nat}

/-! ## First occurrences -/

/-- An occurrence is one, and there is none before it. -/
theorem find?_spec (h : find? n l = some k) :
    n <+: l.drop k ∧ ∀ j < k, ¬ n <+: l.drop j := by
  induction l generalizing k with
  | nil =>
    simp only [find?] at h
    split at h
    · rename_i hn
      cases h
      exact ⟨by simp [hn], fun j hj => absurd hj (Nat.not_lt_zero j)⟩
    · cases h
  | cons x t ih =>
    simp only [find?] at h
    split at h
    · rename_i hp
      cases h
      exact ⟨hp, fun j hj => absurd hj (Nat.not_lt_zero j)⟩
    · rename_i hp
      obtain ⟨i, hi, rfl⟩ := Option.map_eq_some_iff.mp h
      obtain ⟨hat, hbefore⟩ := ih hi
      refine ⟨hat, fun j hj => ?_⟩
      cases j with
      | zero => exact hp
      | succ j => exact hbefore j (by omega)

theorem find?_eq_none (hn : n ≠ []) (h : find? n l = none) (j : Nat) : ¬ n <+: l.drop j := by
  induction l generalizing j with
  | nil => simpa using hn
  | cons x t ih =>
    simp only [find?] at h
    split at h
    · cases h
    · rename_i hp
      cases j with
      | zero => exact hp
      | succ j => exact ih (Option.map_eq_none_iff.mp h) j

/-- The first position at which the needle occurs is found. -/
theorem find?_eq_some (hn : n ≠ []) (hat : n <+: l.drop k) (hbefore : ∀ j < k, ¬ n <+: l.drop j) :
    find? n l = some k := by
  cases h : find? n l with
  | none => exact absurd hat (find?_eq_none hn h k)
  | some i =>
    obtain ⟨hi, hbefore'⟩ := find?_spec h
    have hki : ¬ k < i := fun hlt => hbefore' k hlt hat
    have hik : ¬ i < k := fun hlt => hbefore i hlt hi
    rw [show i = k by omega]

/-- Positions without an occurrence can be passed over. -/
theorem find?_skip (hn : n ≠ []) {m : Nat} (h : ∀ j < m, ¬ n <+: l.drop j) :
    find? n l = (find? n (l.drop m)).map (· + m) := by
  induction m generalizing l with
  | zero => simp
  | succ m ih =>
    cases l with
    | nil => simp [find?, hn]
    | cons x t =>
      have h0 : ¬ n <+: x :: t := h 0 (by omega)
      rw [find?, if_neg h0, ih fun j hj => h (j + 1) (by omega), Option.map_map]
      rfl

omit [DecidableEq α] in
/-- A map that neither makes nor unmakes the needle's symbols keeps its occurrences. -/
theorem prefix_map {f : α → α} (hf : ∀ x, ∀ c ∈ n, f x = c ↔ x = c) :
    n <+: l.map f ↔ n <+: l := by
  induction n generalizing l with
  | nil => simp
  | cons c n ih =>
    cases l with
    | nil => simp
    | cons x l =>
      rw [List.map_cons, List.cons_prefix_cons, List.cons_prefix_cons,
        ih fun x c hc => hf x c (List.mem_cons_of_mem _ hc), eq_comm,
        hf x c List.mem_cons_self, eq_comm]

theorem find?_map {f : α → α} (hf : ∀ x, ∀ c ∈ n, f x = c ↔ x = c) :
    find? n (l.map f) = find? n l := by
  induction l with
  | nil => rfl
  | cons x t ih =>
    rw [List.map_cons, find?, find?, ih, ← List.map_cons]
    simp only [prefix_map hf]

/-- Text without the needle's first symbol is passed over. -/
theorem find?_append_left {c : α} {u : List α} (hu : c ∉ u) (v : List α) :
    find? (c :: n) (u ++ v) = (find? (c :: n) v).map (· + u.length) := by
  induction u with
  | nil => simp
  | cons x u ih =>
    obtain ⟨hx, hu⟩ := not_or.mp (mt List.mem_cons.mpr hu)
    have hp : ¬ c :: n <+: x :: (u ++ v) := fun hp => hx (List.cons_prefix_cons.mp hp).1
    rw [List.cons_append, find?, if_neg hp, ih hu, Option.map_map]
    rfl

/-- No end of the list is also its beginning. -/
def Borderless (sep : List α) : Prop := ∀ i, 0 < i → i < sep.length → ¬ sep.drop i <+: sep

/-- A separator followed by a text: the first one is at the first separator, or behind it. -/
theorem find?_sep_append (hsep : sep ≠ []) (hborder : Borderless sep) {j : Nat}
    (h : find? sep l = some j) (n : List α) :
    find? (sep ++ n) l =
      if n <+: l.drop (j + sep.length) then some j
      else (find? (sep ++ n) (l.drop (j + sep.length))).map (· + (j + sep.length)) := by
  obtain ⟨⟨r, hr⟩, hbefore⟩ := find?_spec h
  have hne : sep ++ n ≠ [] := by simp [hsep]
  have hdrop : l.drop (j + sep.length) = r := by
    rw [← List.drop_drop, ← hr, List.drop_left]
  have hnot {i : Nat} (hi : i < j) : ¬ sep ++ n <+: l.drop i := fun hp =>
    hbefore i hi ((List.prefix_append sep n).trans hp)
  split
  · rename_i hn
    refine find?_eq_some hne ?_ fun i hi => hnot hi
    rw [← hr, List.prefix_append_right_inj]
    rwa [hdrop] at hn
  · rename_i hn
    -- the separator is not followed by the text, and none begins inside it
    have hinside {i : Nat} (hi : i < j + sep.length) : ¬ sep ++ n <+: l.drop i := by
      intro hp
      rcases Nat.lt_trichotomy i j with hlt | rfl | hgt
      · exact hnot hlt hp
      · rw [← hr, List.prefix_append_right_inj, ← hdrop] at hp
        exact hn hp
      · obtain ⟨d, rfl⟩ : ∃ d, i = j + d := ⟨i - j, by omega⟩
        have hsub : sep <+: sep.drop d ++ r := by
          rw [← List.drop_append_of_le_length (by omega), hr, List.drop_drop]
          exact (List.prefix_append sep n).trans hp
        refine hborder d (by omega) (by omega) ?_
        exact List.prefix_of_prefix_length_le (List.prefix_append _ r) hsub
          (by rw [List.length_drop]; omega)
    exact find?_skip hne fun i hi => hinside hi

/-! ## Cutting -/

/-- `cut` with a bound on the number of cuts. -/
def cutFuel (sep : List α) : Nat → List α → List (List α)
  | 0, l => [l]
  | fuel + 1, l =>
    match find? sep l with
    | none => [l]
    | some k => l.take k :: cutFuel sep fuel (l.drop (k + sep.length))

/-- The pieces between the separators. -/
def cut (sep l : List α) : List (List α) := cutFuel sep l.length l

/-- What stands before the first separator. -/
def firstLine (sep l : List α) : List α := l.take ((find? sep l).getD l.length)

theorem cutFuel_eq (hsep : sep ≠ []) {f g : Nat} (hf : l.length ≤ f) (hg : l.length ≤ g) :
    cutFuel sep f l = cutFuel sep g l := by
  have hpos : 0 < sep.length := List.length_pos_iff.mpr hsep
  have hshort {l : List α} {k : Nat} (hk : find? sep l = some k) :
      0 < l.length ∧ (l.drop (k + sep.length)).length < l.length := by
    have := find?_le_length hk
    rw [List.length_drop]
    omega
  have hzero {l : List α} (hl : l.length ≤ 0) (f : Nat) : cutFuel sep f l = [l] := by
    cases f with
    | zero => rfl
    | succ f =>
      rw [cutFuel]
      cases hk : find? sep l with
      | none => rfl
      | some k =>
        have := (hshort hk).1
        omega
  induction f generalizing g l with
  | zero => rw [hzero hf, hzero hf]
  | succ f ih =>
    cases g with
    | zero => rw [hzero hg, hzero hg]
    | succ g =>
      rw [cutFuel, cutFuel]
      cases hk : find? sep l with
      | none => rfl
      | some k =>
        have := (hshort hk).2
        simp only
        rw [ih (l := l.drop (k + sep.length)) (g := g) (by omega) (by omega)]

theorem cut_none (hsep : sep ≠ []) (h : find? sep l = none) : cut sep l = [l] := by
  rw [cut, cutFuel_eq hsep le_rfl (Nat.le_succ _), cutFuel, h]

theorem cut_some (hsep : sep ≠ []) (h : find? sep l = some k) :
    cut sep l = l.take k :: cut sep (l.drop (k + sep.length)) := by
  rw [cut, cutFuel_eq hsep le_rfl (Nat.le_succ _), cutFuel, h]
  simp only
  rw [cut, cutFuel_eq hsep (l := l.drop _) (by rw [List.length_drop]; omega) le_rfl]

/-- A property holds of a text if it passes from what is behind the first
separator to the whole. -/
theorem cut_induction (hsep : sep ≠ []) {P : List α → Prop}
    (last : ∀ l, find? sep l = none → P l)
    (step : ∀ l k, find? sep l = some k → P (l.drop (k + sep.length)) → P l) (l : List α) :
    P l := by
  have hpos : 0 < sep.length := List.length_pos_iff.mpr hsep
  induction hlen : l.length using Nat.strong_induction_on generalizing l with
  | _ m ih =>
    cases hk : find? sep l with
    | none => exact last l hk
    | some k =>
      have := find?_le_length hk
      exact step l k hk (ih _ (by rw [List.length_drop]; omega) _ rfl)

/-- The first piece is the first line. -/
theorem cut_head (hsep : sep ≠ []) (l : List α) :
    ∃ ls, cut sep l = firstLine sep l :: ls := by
  unfold firstLine
  cases h : find? sep l with
  | none => exact ⟨[], by simp [cut_none hsep h]⟩
  | some k => exact ⟨_, cut_some hsep h⟩

/-- Text without the separator's first symbol belongs to the first line. -/
theorem firstLine_append {c : α} {u : List α} (hu : c ∉ u) (v : List α) :
    firstLine (c :: n) (u ++ v) = u ++ firstLine (c :: n) v := by
  unfold firstLine
  rw [find?_append_left hu]
  cases find? (c :: n) v with
  | none => simp
  | some k => simp [Nat.add_comm k, List.take_length_add_append]

/-! ## Searching for a line -/

/-- Where the first line that begins with `key` starts, by a search of the whole text. -/
def lineStart (sep key l : List α) : Option Nat :=
  if key <+: l then some 0 else (find? (sep ++ key) l).map (· + sep.length)

theorem lineStart_spec {key : List α} {p : Nat} (h : lineStart sep key l = some p) :
    key <+: l.drop p := by
  unfold lineStart at h
  split at h
  · obtain rfl := Option.some.inj h
    assumption
  · obtain ⟨k, hk, rfl⟩ := Option.map_eq_some_iff.mp h
    obtain ⟨r, hr⟩ := (find?_spec hk).1
    rw [← List.drop_drop, ← hr, List.append_assoc, List.drop_left]
    exact List.prefix_append _ _

section Search

variable {c : α} {s key : List α} {f : α → α}

theorem find?_append_eq_none (hsep : sep ≠ []) (h : find? sep l = none) (key : List α) :
    find? (sep ++ key) l = none := by
  cases hk : find? (sep ++ key) l with
  | none => rfl
  | some k => exact absurd ((List.prefix_append _ _).trans (find?_spec hk).1) (find?_eq_none hsep h k)

/-- The first line begins with `key` if the text does: `key` does not reach the separator. -/
theorem prefix_take_iff (hkey : c ∉ key) (h : find? (c :: s) l = some k) :
    key <+: l.take k ↔ key <+: l := by
  constructor
  · intro hp
    exact hp.trans (List.take_prefix _ _)
  · intro hp
    obtain ⟨⟨r, hr⟩, -⟩ := find?_spec h
    have hat : l[k]? = some c := by
      rw [← List.head?_drop, ← hr]
      rfl
    have hlen : key.length ≤ k := by
      by_contra hlt
      obtain ⟨r', hr'⟩ := hp
      rw [← hr', List.getElem?_append_left (by omega)] at hat
      exact hkey (List.mem_of_getElem? hat)
    exact List.prefix_take_iff.mpr ⟨hp, hlen⟩

/-- **Line search.** The search finds the first line that begins with `key`, up to a map that
leaves the separator alone. -/
theorem cut_find? (hborder : Borderless (c :: s)) (hkey : c ∉ key)
    (hf : ∀ x, ∀ d ∈ c :: s, f x = d ↔ x = d) (l : List α) :
    ((cut (c :: s) l).find? fun line => decide (key <+: line.map f)) =
      (lineStart (c :: s) key (l.map f)).map fun p => firstLine (c :: s) (l.drop p) := by
  have hsep : c :: s ≠ [] := List.cons_ne_nil _ _
  induction l using cut_induction hsep with
  | last l h =>
    have hmap : find? (c :: s) (l.map f) = none := by rw [find?_map hf, h]
    rw [cut_none hsep h, List.find?_singleton, lineStart, find?_append_eq_none hsep hmap]
    by_cases hp : key <+: l.map f
    · simp [hp, firstLine, h]
    · simp [hp]
  | step l k h ih =>
    have hmap : find? (c :: s) (l.map f) = some k := by rw [find?_map hf, h]
    have hfirst := prefix_take_iff hkey hmap
    rw [← List.map_take] at hfirst
    rw [cut_some hsep h, lineStart]
    by_cases hp : key <+: l.map f
    · rw [List.find?_cons_of_pos (by simpa using hfirst.mpr hp), if_pos hp]
      simp [firstLine, h]
    · rw [List.find?_cons_of_neg (by simpa using mt hfirst.mp hp), if_neg hp, ih,
        find?_sep_append hsep hborder hmap, lineStart, List.map_drop]
      split
      · simp
      · simp only [Option.map_map, List.drop_drop]
        congr 1
        funext p
        simp only [Function.comp_apply]
        congr 2
        omega

end Search

/-! ## Trimming -/

section Trim

omit [DecidableEq α]

variable {p : α → Bool} {u v : List α}

/-- A list without the symbols at its ends that satisfy `p`. -/
def trim (p : α → Bool) (l : List α) : List α := (l.dropWhile p).rdropWhile p

theorem rdropWhile_append (h : ∃ x ∈ v, p x = false) :
    (u ++ v).rdropWhile p = u ++ v.rdropWhile p := by
  unfold List.rdropWhile
  rw [List.reverse_append, List.dropWhile_append]
  have hne : v.reverse.dropWhile p ≠ [] := by
    intro hnil
    obtain ⟨x, hx, hpx⟩ := h
    have := List.dropWhile_eq_nil_iff.mp hnil x (List.mem_reverse.mpr hx)
    simp [hpx] at this
  rw [if_neg (by simpa using hne), List.reverse_append, List.reverse_reverse]

theorem trim_eq_nil_iff : trim p l = [] ↔ ∀ x ∈ l, p x = true := by
  constructor
  · intro h x hx
    by_contra hpx
    have hmem : x ∈ l.dropWhile p := by
      rw [← List.takeWhile_append_dropWhile (p := p) (l := l)] at hx
      rcases List.mem_append.mp hx with hx | hx
      · exact absurd (List.mem_takeWhile_imp hx) hpx
      · exact hx
    exact hpx (List.rdropWhile_eq_nil_iff.mp h x hmem)
  · intro h
    rw [trim, List.dropWhile_eq_nil_iff.mpr h]
    rfl

/-- Trimming takes nothing but what satisfies `p`. -/
theorem count_trim [DecidableEq α] {c : α} (hc : p c = false) : (trim p l).count c = l.count c := by
  have hdrop (l : List α) : (l.dropWhile p).count c = l.count c := by
    have htake : (l.takeWhile p).count c = 0 := by
      refine List.count_eq_zero_of_not_mem fun hmem => ?_
      have := List.mem_takeWhile_imp hmem
      simp [hc] at this
    calc (l.dropWhile p).count c
        = (l.takeWhile p ++ l.dropWhile p).count c := by rw [List.count_append, htake, Nat.zero_add]
      _ = l.count c := by rw [List.takeWhile_append_dropWhile]
  rw [trim, List.rdropWhile, List.count_reverse, hdrop, List.count_reverse, hdrop]

end Trim

end Lib
