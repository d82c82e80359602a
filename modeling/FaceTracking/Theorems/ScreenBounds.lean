import FaceTracking.Display.Framebuffer

/-!
# Drawing inside the screen

A frame that is shown has been fitted into the screen (`fit_le`), so the
margins that centre it are not negative and it ends before the screen does
(`margin_le`). No product or sum of the copy loop is then cut off, neither in
`int` nor in a `size_t` of either width, and its rows are those of a picture
put on a raster (`copies_blit`).
-/

namespace FaceTracking

open Lib

namespace Framebuffer

/-- What a driver guarantees: lines hold the screen's pixels, and the memory
holds its lines. -/
structure Geometry (fb : Framebuffer) : Prop where
  line_le : fb.xres.toNat * fb.bpp.toNat / 8 ≤ fb.lineLength.toNat
  mem_le : fb.lineLength.toNat * fb.yres.toNat ≤ fb.memLen

/-- An opened device has the geometry that its driver reported. -/
theorem openDevice_geometry {fb fb' : Framebuffer} {device : Device} {info : ScreenInfo}
    (hinfo : device.info = some info)
    (hline : info.xres.toNat * info.bits_per_pixel.toNat / 8 ≤ info.line_length.toNat)
    (hmem : info.line_length.toNat * info.yres.toNat ≤ info.smem_len.toNat)
    (h : fb.openDevice device = (true, fb')) : fb'.mem = true ∧ fb'.Geometry := by
  unfold openDevice at h
  simp only [hinfo] at h
  split at h
  · cases h
  · split at h
    · cases h
      exact ⟨rfl, hline, hmem⟩
    · cases h

/-! ## Fitting the frame -/

/-- A side that is not enlarged stays an `int`. -/
theorem toInt_ofInt_round {ρ : Rounding} {n : Int32} {sc : ℚ} (hn : 0 ≤ n.toInt) (hsc : 0 ≤ sc)
    (hone : sc ≤ 1) :
    (Int32.ofInt (ρ.round (n.toInt * sc))).toInt = ρ.round (n.toInt * sc) := by
  have hnq : (0 : ℚ) ≤ n.toInt := Int.cast_nonneg hn
  have hlow : 0 ≤ ρ.round (n.toInt * sc) := by
    apply ρ.le_round
    rw [Int.cast_zero]
    exact mul_nonneg hnq hsc
  have hhigh : ρ.round (n.toInt * sc) ≤ n.toInt := by
    apply ρ.round_le
    exact mul_le_of_le_one_right hnq hone
  have hlt := n.toInt_lt
  apply Int32.toInt_ofInt_of_le
  · omega
  · omega

/-- A frame that was shrunk has the rounded sides of its scale. -/
theorem fit_of_exceeds {ρ : Rounding} {fb : Framebuffer} {bgr src : Mat}
    (hbgr : bgr.isEmpty = false) (hex : fb.Exceeds bgr) (h : fit ρ fb bgr = some src) :
    let sc := fitScale fb.xres.toNat fb.yres.toNat bgr.cols.toInt bgr.rows.toInt
    src.cols.toInt = ρ.round (bgr.cols.toInt * sc) ∧
      src.rows.toInt = ρ.round (bgr.rows.toInt * sc) ∧ 0 < src.cols.toInt ∧ 0 < src.rows.toInt := by
  intro sc
  obtain ⟨hcols, hrows⟩ := Mat.pos_of_nonempty hbgr
  have hc : (0 : ℚ) < bgr.cols.toInt := Int.cast_pos.mpr hcols
  have hr : (0 : ℚ) < bgr.rows.toInt := Int.cast_pos.mpr hrows
  have hsc : 0 ≤ sc := fitScale_nonneg hc hr (Nat.cast_nonneg _) (Nat.cast_nonneg _)
  have hone : sc ≤ 1 := by
    apply fitScale_le_one hc hr
    rcases (exceeds_iff fb bgr).mp hex with hx | hy
    · left
      exact_mod_cast hx.le
    · right
      exact_mod_cast hy.le
  unfold fit at h
  rw [if_pos hex] at h
  unfold Mat.resize at h
  extract_lets cols rows at h
  split at h
  · rename_i hpos
    cases h
    exact ⟨toInt_ofInt_round hcols.le hsc hone, toInt_ofInt_round hrows.le hsc hone, hpos⟩
  · cases h

/-- **The fitted frame** is not empty and not larger than the screen. -/
theorem fit_le {ρ : Rounding} {fb : Framebuffer} {bgr src : Mat} (hbgr : bgr.isEmpty = false)
    (h : fit ρ fb bgr = some src) :
    0 < src.cols.toInt ∧ 0 < src.rows.toInt ∧ src.cols.toInt ≤ fb.xres.toNat ∧
      src.rows.toInt ≤ fb.yres.toNat := by
  obtain ⟨hcols, hrows⟩ := Mat.pos_of_nonempty hbgr
  by_cases hex : fb.Exceeds bgr
  · obtain ⟨hc, hr, hcpos, hrpos⟩ := fit_of_exceeds hbgr hex h
    have hle := fitted_le ρ (x := fb.xres.toNat) (y := fb.yres.toNat)
      (Int.cast_pos.mpr hcols) (Int.cast_pos.mpr hrows)
    push_cast at hle
    refine ⟨hcpos, hrpos, ?_, ?_⟩
    · rw [hc]
      exact hle.1
    · rw [hr]
      exact hle.2
  · unfold fit at h
    rw [if_neg hex] at h
    cases h
    rw [exceeds_iff] at hex
    omega

/-- A frame that was shrunk fills the screen on one side. -/
theorem fit_fills {ρ : Rounding} {fb : Framebuffer} {bgr src : Mat} (hbgr : bgr.isEmpty = false)
    (hex : fb.Exceeds bgr) (h : fit ρ fb bgr = some src) :
    src.cols.toInt = fb.xres.toNat ∨ src.rows.toInt = fb.yres.toNat := by
  obtain ⟨hcols, hrows⟩ := Mat.pos_of_nonempty hbgr
  obtain ⟨hc, hr, -⟩ := fit_of_exceeds hbgr hex h
  have hfill := fitted_fills ρ (x := fb.xres.toNat) (y := fb.yres.toNat)
    (Int.cast_pos.mpr hcols) (Int.cast_pos.mpr hrows)
  push_cast at hfill
  rw [hc, hr]
  exact hfill

/-! ## Margins -/

/-- A number in the range of `int` stays what it is. -/
theorem bmod_of_fits {x : Int} (hlow : -2 ^ 31 ≤ x) (hhigh : x < 2 ^ 31) : x.bmod (2 ^ 32) = x := by
  apply Int.bmod_eq_of_le_mul_two
  · push_cast
    omega
  · push_cast
    omega

theorem toInt_toInt32 {u : UInt32} (h : u.toNat < 2 ^ 31) : u.toInt32.toInt = u.toNat := by
  show u.toBitVec.toInt = u.toNat
  rw [BitVec.toInt_eq_toNat_of_lt (by show 2 * u.toNat < 2 ^ 32; omega)]
  rfl

/-- The margin that centres `n` pixels among `u` is half of what is left. -/
theorem toInt_margin {u : UInt32} {n : Int32} (hu : u.toNat < 2 ^ 31) (hn : 0 ≤ n.toInt)
    (hle : n.toInt ≤ u.toNat) : ((u.toInt32 - n) / 2).toInt = (u.toNat - n.toInt) / 2 := by
  have hsub : (u.toInt32 - n).toInt = u.toNat - n.toInt := by
    rw [Int32.toInt_sub, toInt_toInt32 hu]
    apply bmod_of_fits
    · omega
    · omega
  have htwo : (2 : Int32).toInt = 2 := by decide
  rw [Int32.toInt_div, hsub, htwo, Int.tdiv_eq_ediv_of_nonneg (by omega)]
  apply bmod_of_fits
  · omega
  · omega

/-- The margin leaves room for what it centres. -/
theorem margin_le {u : UInt32} {n : Int32} (hu : u.toNat < 2 ^ 31) (hn : 0 ≤ n.toInt)
    (hle : n.toInt ≤ u.toNat) :
    0 ≤ ((u.toInt32 - n) / 2).toInt ∧ ((u.toInt32 - n) / 2).toInt + n.toInt ≤ u.toNat := by
  rw [toInt_margin hu hn hle]
  omega

end Framebuffer

/-! ## Sizes in `size_t` -/

namespace SizeT

theorem le_two_pow_bits (w : SizeT) : 2 ^ 32 ≤ 2 ^ w.bits :=
  Nat.pow_le_pow_right (by decide) w.le_bits

theorem toNat_ofInt32 (w : SizeT) {x : Int32} (h : 0 ≤ x.toInt) :
    (w.ofInt32 x).toNat = x.toInt.toNat := by
  have hlt : x.toInt < ((2 ^ w.bits : ℕ) : ℤ) := by
    have hbits : ((2 ^ 32 : ℕ) : ℤ) ≤ ((2 ^ w.bits : ℕ) : ℤ) :=
      Int.ofNat_le.mpr w.le_two_pow_bits
    have := x.toInt_lt
    omega
  unfold ofInt32
  rw [BitVec.toNat_ofInt, Int.emod_eq_of_lt h hlt]

theorem toNat_ofNat (w : SizeT) {n : ℕ} (h : n < 2 ^ 32) : (BitVec.ofNat w.bits n).toNat = n := by
  rw [BitVec.toNat_ofNat, Nat.mod_eq_of_lt (h.trans_le w.le_two_pow_bits)]

theorem toNat_mul (w : SizeT) {a b : BitVec w.bits} {x y : ℕ} (ha : a.toNat = x)
    (hb : b.toNat = y) (h : x * y < 2 ^ 32) : (a * b).toNat = x * y := by
  rw [BitVec.toNat_mul, ha, hb, Nat.mod_eq_of_lt (h.trans_le w.le_two_pow_bits)]

theorem toNat_add (w : SizeT) {a b : BitVec w.bits} {x y : ℕ} (ha : a.toNat = x)
    (hb : b.toNat = y) (h : x + y < 2 ^ 32) : (a + b).toNat = x + y := by
  rw [BitVec.toNat_add, ha, hb, Nat.mod_eq_of_lt (h.trans_le w.le_two_pow_bits)]

end SizeT

namespace Framebuffer

/-! ## The copy loop -/

/-- A converted frame that fits, on a screen of `n` bytes a pixel. -/
structure Fits (fb : Framebuffer) (conv : Mat) (n : ℕ) : Prop where
  two_le : 2 ≤ n
  le_four : n ≤ 4
  line_le : fb.xres.toNat * n ≤ fb.lineLength.toNat
  mem_le : fb.lineLength.toNat * fb.yres.toNat ≤ fb.memLen
  cols_pos : 0 < conv.cols.toInt
  rows_pos : 0 < conv.rows.toInt
  cols_le : conv.cols.toInt ≤ fb.xres.toNat
  rows_le : conv.rows.toInt ≤ fb.yres.toNat

namespace Fits

variable {fb : Framebuffer} {conv : Mat} {n : ℕ} (h : fb.Fits conv n)
include h

theorem xres_lt : fb.xres.toNat < 2 ^ 31 := by
  have htwo := h.two_le
  have hline : fb.xres.toNat * 2 ≤ fb.lineLength.toNat :=
    (Nat.mul_le_mul_left _ htwo).trans h.line_le
  have hlt : fb.lineLength.toNat < 2 ^ 32 := fb.lineLength.toNat_lt
  omega

theorem yres_lt : fb.yres.toNat < 2 ^ 31 := by
  have hx : 1 ≤ fb.xres.toNat := by
    have := h.cols_pos
    have := h.cols_le
    omega
  -- a line holds at least one pixel of two bytes
  have hline : 2 ≤ fb.lineLength.toNat :=
    calc 2 ≤ fb.xres.toNat * n := Nat.mul_le_mul hx h.two_le
      _ ≤ fb.lineLength.toNat := h.line_le
  have hmem : 2 * fb.yres.toNat ≤ fb.memLen :=
    (Nat.mul_le_mul_right _ hline).trans h.mem_le
  have hlt := fb.memLen_lt
  omega

theorem offx_le (w : SizeT) :
    0 ≤ (blit w fb conv n).offx.toInt ∧
      (blit w fb conv n).offx.toInt + conv.cols.toInt ≤ fb.xres.toNat :=
  margin_le h.xres_lt h.cols_pos.le h.cols_le

theorem offy_le (w : SizeT) :
    0 ≤ (blit w fb conv n).offy.toInt ∧
      (blit w fb conv n).offy.toInt + conv.rows.toInt ≤ fb.yres.toNat :=
  margin_le h.yres_lt h.rows_pos.le h.rows_le

/-- A row of the frame with the margin before it is within the line's pixels. -/
theorem row_bytes_le (w : SizeT) :
    (blit w fb conv n).offx.toInt.toNat * n + conv.cols.toInt.toNat * n ≤ fb.xres.toNat * n := by
  have hoff := h.offx_le w
  have hcols := h.cols_pos
  rw [← Nat.add_mul]
  apply Nat.mul_le_mul_right
  omega

/-- The frame's rows are on lines of the screen. -/
theorem line_lt (w : SizeT) {r : ℕ} (hr : r < conv.rows.toInt.toNat) :
    (blit w fb conv n).offy.toInt.toNat + r < fb.yres.toNat := by
  have hoff := h.offy_le w
  omega

/-- A line of the screen ends within its memory. -/
theorem line_end_le {y : ℕ} (hy : y < fb.yres.toNat) :
    (y + 1) * fb.lineLength.toNat ≤ fb.memLen :=
  calc (y + 1) * fb.lineLength.toNat ≤ fb.yres.toNat * fb.lineLength.toNat :=
        Nat.mul_le_mul_right _ hy
    _ = fb.lineLength.toNat * fb.yres.toNat := Nat.mul_comm _ _
    _ ≤ fb.memLen := h.mem_le

/-- The line that the loop computes for row `r` does not wrap around. -/
theorem toInt_line (w : SizeT) {r : ℕ} (hr : r < conv.rows.toInt.toNat) :
    ((blit w fb conv n).offy + Int32.ofNat r).toInt = (blit w fb conv n).offy.toInt + r := by
  have hoff := h.offy_le w
  have hrows := conv.rows.toInt_lt
  have hyres := h.yres_lt
  rw [Int32.toInt_add, Int32.toInt_ofNat_of_lt (by omega)]
  apply bmod_of_fits
  · omega
  · omega

theorem toNat_pixel (w : SizeT) : (BitVec.ofNat w.bits n).toNat = n :=
  w.toNat_ofNat (h.le_four.trans_lt (by decide))

theorem toNat_rowBytes (w : SizeT) :
    (w.ofInt32 conv.cols * BitVec.ofNat w.bits n).toNat = conv.cols.toInt.toNat * n := by
  have hcols : (w.ofInt32 conv.cols).toNat = conv.cols.toInt.toNat :=
    w.toNat_ofInt32 h.cols_pos.le
  have hlt : conv.cols.toInt.toNat * n < 2 ^ 32 := by
    have hrow := (h.row_bytes_le w).trans h.line_le
    have hstride : fb.lineLength.toNat < 2 ^ 32 := fb.lineLength.toNat_lt
    omega
  exact w.toNat_mul hcols (h.toNat_pixel w) hlt

theorem toNat_dst (w : SizeT) {r : ℕ} (hr : r < conv.rows.toInt.toNat) :
    (w.ofInt32 ((blit w fb conv n).offy + Int32.ofNat r) * w.ofUInt32 fb.lineLength +
      w.ofInt32 (blit w fb conv n).offx * BitVec.ofNat w.bits n).toNat =
      rowStart fb.lineLength.toNat ((blit w fb conv n).offx.toInt.toNat * n)
        ((blit w fb conv n).offy.toInt.toNat + r) := by
  have hlt : rowStart fb.lineLength.toNat ((blit w fb conv n).offx.toInt.toNat * n)
      ((blit w fb conv n).offy.toInt.toNat + r) < 2 ^ 32 := by
    have hend := (row_le ((h.row_bytes_le w).trans h.line_le)).2.trans
      (h.line_end_le (h.line_lt w hr))
    have hmem := fb.memLen_lt
    omega
  have hline : (w.ofInt32 ((blit w fb conv n).offy + Int32.ofNat r)).toNat =
      (blit w fb conv n).offy.toInt.toNat + r := by
    have hoff := (h.offy_le w).1
    rw [w.toNat_ofInt32 (by rw [h.toInt_line w hr]; omega), h.toInt_line w hr]
    omega
  have hstride : (w.ofUInt32 fb.lineLength).toNat = fb.lineLength.toNat :=
    w.toNat_ofNat fb.lineLength.toNat_lt
  have hoff : (w.ofInt32 (blit w fb conv n).offx).toNat = (blit w fb conv n).offx.toInt.toNat :=
    w.toNat_ofInt32 (h.offx_le w).1
  have hstart : (w.ofInt32 ((blit w fb conv n).offy + Int32.ofNat r) *
      w.ofUInt32 fb.lineLength).toNat =
      ((blit w fb conv n).offy.toInt.toNat + r) * fb.lineLength.toNat :=
    w.toNat_mul hline hstride ((Nat.le_add_right _ _).trans_lt hlt)
  have hmargin : (w.ofInt32 (blit w fb conv n).offx * BitVec.ofNat w.bits n).toNat =
      (blit w fb conv n).offx.toInt.toNat * n :=
    w.toNat_mul hoff (h.toNat_pixel w) ((Nat.le_add_left _ _).trans_lt hlt)
  exact w.toNat_add hstart hmargin hlt

/-- **The copies** of a frame are the rows of a picture on a raster. -/
theorem copies_blit (w : SizeT) :
    (blit w fb conv n).copies = (List.range conv.rows.toInt.toNat).map fun r =>
      ⟨rowStart fb.lineLength.toNat ((blit w fb conv n).offx.toInt.toNat * n)
        ((blit w fb conv n).offy.toInt.toNat + r), conv.cols.toInt.toNat * n⟩ := by
  apply List.map_congr_left
  intro r hr
  rw [List.mem_range] at hr
  exact congrArg₂ Copy.mk (h.toNat_dst w hr) (h.toNat_rowBytes w)

/-- Copy `r` goes to line `r` of the frame's place and has the frame's width. -/
theorem getElem?_copies (w : SizeT) {r : ℕ} {c : Copy}
    (hc : (blit w fb conv n).copies[r]? = some c) :
    r < conv.rows.toInt.toNat ∧
      c.dst = rowStart fb.lineLength.toNat ((blit w fb conv n).offx.toInt.toNat * n)
        ((blit w fb conv n).offy.toInt.toNat + r) ∧ c.len = conv.cols.toInt.toNat * n := by
  rw [h.copies_blit w, List.getElem?_map, Option.map_eq_some_iff] at hc
  obtain ⟨r', hr', rfl⟩ := hc
  obtain ⟨hr, rfl⟩ := List.getElem?_eq_some_iff.mp hr'
  rw [List.getElem_range]
  rw [List.length_range] at hr
  exact ⟨hr, rfl, rfl⟩

end Fits

/-- What is shown on a screen with room for its lines fits. -/
theorem Geometry.fits {ρ : Rounding} {fb : Framebuffer} {bgr src : Mat} {n : ℕ}
    (hfb : fb.Geometry) (hbgr : bgr.isEmpty = false) (hsrc : fit ρ fb bgr = some src)
    (hn : fb.pixelBytes = some n) : fb.Fits src n := by
  obtain ⟨hbpp, hbytes⟩ := pixelBytes_cases hn
  obtain ⟨hcols, hrows, hx, hy⟩ := fit_le hbgr hsrc
  have hline := hfb.line_le
  rw [hbpp, Nat.mul_left_comm, Nat.mul_div_cancel_left _ (by decide)] at hline
  exact ⟨by omega, by omega, hline, hfb.mem_le, hcols, hrows, hx, hy⟩

/-! ## Main result -/

/-- **A frame is drawn inside the screen**, whichever way halves are rounded
and however wide `size_t` is. The margins are not negative. Row `r` goes to
line `offy + r`, from the pixel `offx` on, and ends within the line's pixels,
within the line and within the memory; rows do not meet. And a frame that was
too large fills the screen's width or its height. -/
theorem screen_bounds (ρ : Rounding) (w : SizeT) {fb : Framebuffer} {bgr : Mat} {d : Drawing}
    (hfb : fb.Geometry) (h : (showFrame ρ w fb bgr).1 = .drawn d) :
    0 ≤ d.offx.toInt ∧ 0 ≤ d.offy.toInt ∧ fb.bpp.toNat = 8 * d.bytesPerPixel ∧
      d.copies.length = d.conv.rows.toInt.toNat ∧
      (∀ (r : ℕ) (c : Copy), d.copies[r]? = some c →
        let line := d.offy.toInt.toNat + r
        line < fb.yres.toNat ∧
          c.dst = line * fb.lineLength.toNat + d.offx.toInt.toNat * d.bytesPerPixel ∧
          c.len = d.conv.cols.toInt.toNat * d.bytesPerPixel ∧
          c.dst + c.len ≤ line * fb.lineLength.toNat + fb.xres.toNat * d.bytesPerPixel ∧
          c.dst + c.len ≤ (line + 1) * fb.lineLength.toNat ∧ c.dst + c.len ≤ fb.memLen) ∧
      (∀ (r r' : ℕ) (c c' : Copy), r < r' → d.copies[r]? = some c → d.copies[r']? = some c' →
        c.dst + c.len ≤ c'.dst) ∧
      (fb.Exceeds bgr →
        d.conv.cols.toInt = fb.xres.toNat ∨ d.conv.rows.toInt = fb.yres.toNat) := by
  obtain ⟨-, hbgr, src, n, hsrc, hn, rfl⟩ := showFrame_cases h
  have hfits := hfb.fits hbgr hsrc hn
  have hrow := hfits.row_bytes_le w
  refine ⟨(hfits.offx_le w).1, (hfits.offy_le w).1, (pixelBytes_cases hn).1, ?_, ?_, ?_, ?_⟩
  · rw [hfits.copies_blit w, List.length_map, List.length_range]
    rfl
  · intro r c hc line
    obtain ⟨hr, hdst, hlen⟩ := hfits.getElem?_copies w hc
    have hline := hfits.line_lt w hr
    have hend := (row_le (y := line) (hrow.trans hfits.line_le)).2
    refine ⟨hline, hdst, hlen, ?_, ?_, ?_⟩
    · rw [hdst, hlen]
      unfold rowStart
      rw [Nat.add_assoc]
      exact Nat.add_le_add_left hrow _
    · rw [hdst, hlen]
      exact hend
    · rw [hdst, hlen]
      exact hend.trans (hfits.line_end_le hline)
  · intro r r' c c' hlt hc hc'
    obtain ⟨hr, hdst, hlen⟩ := hfits.getElem?_copies w hc
    obtain ⟨hr', hdst', -⟩ := hfits.getElem?_copies w hc'
    rw [hdst, hlen, hdst']
    exact row_end_le (hrow.trans hfits.line_le) (Nat.add_lt_add_left hlt _)
  · intro hex
    exact fit_fills hbgr hex hsrc

/-- A square frame stays within a screen twice as wide as high whose lines have
two spare pixels. -/
theorem screen_bounds_square :
    let fb : Framebuffer := ⟨true, 80, 8, 4, 16, 20, false, by decide⟩
    let bgr : Mat := ⟨7, 7, by decide, by decide⟩
    ∃ d, (showFrame .halfEven .bits32 fb bgr).1 = .drawn d ∧
      d.copies = [⟨4, 8⟩, ⟨24, 8⟩, ⟨44, 8⟩, ⟨64, 8⟩] ∧
      (∀ (r : ℕ) (c : Copy), d.copies[r]? = some c → c.dst + c.len ≤ fb.memLen) ∧
      (d.conv.cols.toInt = fb.xres.toNat ∨ d.conv.rows.toInt = fb.yres.toNat) := by
  intro fb bgr
  have hfb : fb.Geometry := ⟨by decide, by decide⟩
  have hshown : (showFrame .halfEven .bits32 fb bgr).1 =
      .drawn ⟨⟨4, 4, by decide, by decide⟩, 2, 2, 0, [⟨4, 8⟩, ⟨24, 8⟩, ⟨44, 8⟩, ⟨64, 8⟩]⟩ := by
    decide +kernel
  obtain ⟨-, -, -, -, hrows, -, hfills⟩ := screen_bounds .halfEven .bits32 hfb hshown
  refine ⟨_, hshown, rfl, ?_, hfills (by decide)⟩
  intro r c hc
  exact (hrows r c hc).2.2.2.2.2

end Framebuffer

end FaceTracking
