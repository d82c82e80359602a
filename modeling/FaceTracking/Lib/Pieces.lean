import Mathlib

/-!
# Cutting a list into pieces

A list cut into pieces of `k` symbols, the last of which may be shorter.
`flatten_pieces` says that the pieces, in order, are the list again, and
`mem_of_nodup_of_length` is the counting argument of every reassembly: pieces kept
without repetition, as many as there are, are all of them.
-/

namespace Lib

variable {α : Type*}

/-- Number of pieces of `k` symbols. -/
def pieceCount (k : Nat) (l : List α) : Nat := (l.length + k - 1) / k

def piece (k : Nat) (l : List α) (i : Nat) : List α := (l.drop (i * k)).take k

/-- The first pieces are the front of the list. -/
theorem flatten_pieces_take (k : Nat) (l : List α) (n : Nat) :
    ((List.range n).map (piece k l)).flatten = l.take (n * k) := by
  induction n with
  | zero => simp
  | succ n ih =>
    rw [List.range_succ, List.map_append, List.flatten_append, ih, Nat.add_mul, Nat.one_mul,
      List.take_add]
    simp [piece]

theorem length_le_pieceCount {k : Nat} (hk : 0 < k) (l : List α) :
    l.length ≤ pieceCount k l * k := by
  have h := Nat.div_add_mod (l.length + k - 1) k
  have hlt := Nat.mod_lt (l.length + k - 1) hk
  rw [pieceCount, Nat.mul_comm]
  omega

/-- The pieces, in order, are the list. -/
theorem flatten_pieces {k : Nat} (hk : 0 < k) (l : List α) :
    ((List.range (pieceCount k l)).map (piece k l)).flatten = l := by
  rw [flatten_pieces_take, List.take_of_length_le (length_le_pieceCount hk l)]

theorem pieceCount_pos {k : Nat} (hk : 0 < k) {l : List α} (h : l ≠ []) : 0 < pieceCount k l := by
  have hlen : 0 < l.length := List.length_pos_iff.mpr h
  exact Nat.div_pos (by omega) hk

/-- As many pieces as fit `m` are counted exactly below `m * k` symbols. -/
theorem pieceCount_le_iff {k : Nat} (hk : 0 < k) (l : List α) (m : Nat) :
    pieceCount k l ≤ m ↔ l.length ≤ m * k := by
  rw [pieceCount, Nat.div_le_iff_le_mul_add_pred hk, Nat.mul_comm]
  omega

/-- Distinct indices below `n`, at least `n` of them, are all the indices below `n`. -/
theorem mem_of_nodup_of_length {n : Nat} {is : List Nat} (hnodup : is.Nodup)
    (hlt : ∀ i ∈ is, i < n) (hlen : n ≤ is.length) {i : Nat} (hi : i < n) : i ∈ is := by
  have hsub : is.toFinset ⊆ Finset.range n := by
    intro x hx
    exact Finset.mem_range.mpr (hlt x (List.mem_toFinset.mp hx))
  have hcard : (Finset.range n).card ≤ is.toFinset.card := by
    rw [Finset.card_range, List.toFinset_card_of_nodup hnodup]
    exact hlen
  have heq := Finset.eq_of_subset_of_card_le hsub hcard
  have hmem : i ∈ is.toFinset := by
    rw [heq]
    exact Finset.mem_range.mpr hi
  exact List.mem_toFinset.mp hmem

end Lib
