import FaceTracking.Lib.Bytes

/-!
# Searching for a quoted word

`behind?` is the text behind the first occurrence of a needle. For a needle
that is a word between two delimiters the search goes from delimiter to
delimiter: it passes everything up to the first one (`behind?_plain`), and a
delimiter whose segment up to the next one is another word, or holds a symbol
the word does not have (`behind?_other`, `behind?_apart`).
-/

namespace Lib

variable {α : Type} [DecidableEq α]

/-- What stands behind the first occurrence of `needle`. -/
def behind? (needle l : List α) : Option (List α) :=
  (find? needle l).map fun i => l.drop (i + needle.length)

/-- A word between two delimiters. -/
def quoted (q : α) (w : List α) : List α := q :: (w ++ [q])

omit [DecidableEq α] in
@[simp] theorem length_quoted (q : α) (w : List α) : (quoted q w).length = w.length + 2 := by
  simp [quoted]

theorem behind?_cons {needle : List α} {x : α} {l : List α} (h : ¬ needle <+: x :: l) :
    behind? needle (x :: l) = behind? needle l := by
  unfold behind?
  rw [find?, if_neg h, Option.map_map]
  congr 1
  funext i
  simp only [Function.comp_apply]
  rw [show i + 1 + needle.length = i + needle.length + 1 by omega, List.drop_succ_cons]

section Quoted

variable {q : α} {w : List α}

theorem behind?_plain {a : List α} (ha : q ∉ a) (l : List α) :
    behind? (quoted q w) (a ++ l) = behind? (quoted q w) l := by
  induction a with
  | nil => rfl
  | cons x a ih =>
    have hx : ¬ quoted q w <+: x :: (a ++ l) := by
      intro h
      have hhead : q = x := (List.cons_prefix_cons.mp h).1
      exact ha (hhead ▸ List.mem_cons_self)
    rw [List.cons_append, behind?_cons hx, ih fun h => ha (List.mem_cons_of_mem x h)]

theorem behind?_quoted (l : List α) : behind? (quoted q w) (q :: (w ++ q :: l)) = some l := by
  have hpre : quoted q w <+: q :: (w ++ q :: l) := ⟨l, by simp [quoted]⟩
  unfold behind?
  rw [find?, if_pos hpre, Option.map_some, Nat.zero_add, length_quoted, List.drop_succ_cons,
    ← List.drop_drop, List.drop_left]
  rfl

omit [DecidableEq α] in
theorem quoted_prefix_iff (l : List α) :
    quoted q w <+: q :: l ↔ w ++ [q] <+: l := by
  unfold quoted
  rw [List.cons_prefix_cons]
  simp

/-- A segment that is another word is passed. -/
theorem behind?_other {s : List α} (hs : q ∉ s) (hw : q ∉ w) (hne : s ≠ w) (l : List α) :
    behind? (quoted q w) (q :: (s ++ q :: l)) = behind? (quoted q w) (q :: l) := by
  have hnot : ¬ quoted q w <+: q :: (s ++ q :: l) := by
    rw [quoted_prefix_iff]
    rintro ⟨t, ht⟩
    rw [List.append_assoc, List.singleton_append] at ht
    -- both sides are cut at their first delimiter
    have hcut : ∀ {a b : List α}, q ∉ a → (a ++ q :: b).takeWhile (· ≠ q) = a := by
      intro a b ha
      rw [List.takeWhile_append_of_pos fun x hx => by
        simp only [ne_eq, decide_eq_true_eq]
        rintro rfl
        exact ha hx]
      simp
    apply hne
    rw [← hcut (b := l) hs, ← ht, hcut hw]
  rw [behind?_cons hnot, behind?_plain hs]

/-- A segment with a symbol that the word does not have is passed. -/
theorem behind?_apart {s : List α} {c : α} (hs : q ∉ s) (hc : c ∈ s) (hcw : c ∉ w) (l : List α) :
    behind? (quoted q w) (q :: (s ++ l)) = behind? (quoted q w) l := by
  have hnot : ¬ quoted q w <+: q :: (s ++ l) := by
    rw [quoted_prefix_iff]
    intro h
    rcases List.prefix_or_prefix_of_prefix h (List.prefix_append s l) with hpre | hpre
    · exact hs (hpre.mem (List.mem_append_right _ List.mem_cons_self))
    · rcases List.mem_append.mp (hpre.mem hc) with hcw' | hcq
      · exact hcw hcw'
      · exact hs (List.mem_singleton.mp hcq ▸ hc)
  rw [behind?_cons hnot, behind?_plain hs]

end Quoted

end Lib
