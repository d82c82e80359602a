import FaceTracking.Lib.Raster
import Mathlib.Data.UInt

/-!
# The framebuffer

Direct output to the screen's memory: a frame that is larger than the screen
is shrunk, converted to the device's pixel format and copied row by row to the
middle of the screen. Matrices are represented by their sizes, and a drawing
by the ranges of the memory that its copies write to. The arithmetic is the
source's, in `int` and in `size_t`, which has 32 bits on the board and 64 on a
host; only the scale is a rational number.
-/

namespace FaceTracking

open Lib

/-- A matrix by its size, which is never negative. -/
structure Mat where
  cols : Int32
  rows : Int32
  cols_nonneg : 0 ≤ cols.toInt
  rows_nonneg : 0 ≤ rows.toInt
deriving DecidableEq

namespace Mat

def isEmpty (m : Mat) : Bool := m.cols == 0 || m.rows == 0

/-- `cv::resize` by a scale. It throws if nothing would be left. -/
def resize (ρ : Rounding) (m : Mat) (sc : ℚ) : Option Mat :=
  let cols := Int32.ofInt (ρ.round (m.cols.toInt * sc))
  let rows := Int32.ofInt (ρ.round (m.rows.toInt * sc))
  if h : 0 < cols.toInt ∧ 0 < rows.toInt then some ⟨cols, rows, h.1.le, h.2.le⟩ else none

end Mat

/-! ## `size_t` -/

inductive SizeT where
  | bits32
  | bits64
deriving DecidableEq, Repr

namespace SizeT

def bits : SizeT → Nat
  | bits32 => 32
  | bits64 => 64

theorem le_bits (w : SizeT) : 32 ≤ w.bits := by
  cases w <;> decide

/-- `static_cast<size_t>` of an `int`. -/
def ofInt32 (w : SizeT) (x : Int32) : BitVec w.bits := BitVec.ofInt w.bits x.toInt

def ofUInt32 (w : SizeT) (x : UInt32) : BitVec w.bits := BitVec.ofNat w.bits x.toNat

end SizeT

/-! ## The device -/

/-- What the two `FBIOGET` calls fill in, as far as it is read. -/
structure ScreenInfo where
  xres : UInt32
  yres : UInt32
  bits_per_pixel : UInt32
  line_length : UInt32
  smem_len : UInt32

/-- What the kernel answers while the device is opened. -/
structure Device where
  opens : Bool
  info : Option ScreenInfo
  maps : Bool

structure Framebuffer where
  /-- Is the screen's memory mapped? -/
  mem : Bool
  memLen : Nat
  xres : UInt32
  yres : UInt32
  bpp : UInt32
  lineLength : UInt32
  warnedFmt : Bool
  /-- Only a number of 32 bits is ever assigned to `memLen`. -/
  memLen_lt : memLen < 2 ^ 32

/-- One `memcpy` of a row: where it writes and how much. -/
structure Copy where
  dst : Nat
  len : Nat
deriving DecidableEq, Repr

/-- A frame on the screen. -/
structure Drawing where
  conv : Mat
  bytesPerPixel : Nat
  offx : Int32
  offy : Int32
  copies : List Copy
deriving DecidableEq

inductive Shown where
  /-- Nothing to draw, nothing to draw on, or no format to draw in. -/
  | nothing
  | failed
  | drawn (d : Drawing)
deriving DecidableEq

namespace Framebuffer

def create : Framebuffer := ⟨false, 0, 0, 0, 0, 0, false, by decide⟩

/-- `open`. -/
def openDevice (fb : Framebuffer) (device : Device) : Bool × Framebuffer :=
  if !device.opens then (false, fb)
  else
    match device.info with
    | none => (false, fb)
    | some info =>
      let fb := { fb with
        xres := info.xres
        yres := info.yres
        bpp := info.bits_per_pixel
        lineLength := info.line_length
        memLen := info.smem_len.toNat
        memLen_lt := info.smem_len.toNat_lt }
      if device.maps then (true, { fb with mem := true }) else (false, { fb with mem := false })

/-- `close`. -/
def closeDevice (fb : Framebuffer) : Framebuffer := { fb with mem := false }

/-- Is the frame wider or higher than the screen? -/
def Exceeds (fb : Framebuffer) (m : Mat) : Prop :=
  m.cols.toUInt32 > fb.xres ∨ m.rows.toUInt32 > fb.yres

instance (fb : Framebuffer) (m : Mat) : Decidable (fb.Exceeds m) :=
  inferInstanceAs (Decidable (_ ∨ _))

/-- The frame within the screen, its aspect ratio preserved. -/
def fit (ρ : Rounding) (fb : Framebuffer) (bgr : Mat) : Option Mat :=
  if fb.Exceeds bgr then
    bgr.resize ρ (fitScale fb.xres.toNat fb.yres.toNat bgr.cols.toInt bgr.rows.toInt)
  else some bgr

/-- The device's pixel format. -/
def pixelBytes (fb : Framebuffer) : Option Nat :=
  if fb.bpp = 16 then some 2 else if fb.bpp = 32 then some 4 else none

/-- The copy loop. -/
def blit (w : SizeT) (fb : Framebuffer) (conv : Mat) (bytesPerPixel : Nat) : Drawing :=
  let offx := (fb.xres.toInt32 - conv.cols) / 2
  let offy := (fb.yres.toInt32 - conv.rows) / 2
  let rowBytes := w.ofInt32 conv.cols * BitVec.ofNat w.bits bytesPerPixel
  let copies := (List.range conv.rows.toInt.toNat).map fun r =>
    let dst := w.ofInt32 (offy + Int32.ofNat r) * w.ofUInt32 fb.lineLength +
      w.ofInt32 offx * BitVec.ofNat w.bits bytesPerPixel
    ⟨dst.toNat, rowBytes.toNat⟩
  ⟨conv, bytesPerPixel, offx, offy, copies⟩

/-- `show`. -/
def showFrame (ρ : Rounding) (w : SizeT) (fb : Framebuffer) (bgr : Mat) : Shown × Framebuffer :=
  if !fb.mem || bgr.isEmpty then (.nothing, fb)
  else
    match fit ρ fb bgr with
    | none => (.failed, fb)
    | some src =>
      match fb.pixelBytes with
      | none => (.nothing, { fb with warnedFmt := true })
      | some bytesPerPixel => (.drawn (blit w fb src bytesPerPixel), fb)

/-! ## What it takes to draw -/

theorem showFrame_cases {ρ : Rounding} {w : SizeT} {fb : Framebuffer} {bgr : Mat} {d : Drawing}
    (h : (showFrame ρ w fb bgr).1 = .drawn d) :
    fb.mem = true ∧ bgr.isEmpty = false ∧ ∃ src bytesPerPixel, fit ρ fb bgr = some src ∧
      fb.pixelBytes = some bytesPerPixel ∧ d = blit w fb src bytesPerPixel := by
  unfold showFrame at h
  split at h
  · cases h
  · rename_i hready
    simp only [Bool.or_eq_true, Bool.not_eq_true', not_or, Bool.not_eq_false,
      Bool.not_eq_true] at hready
    refine ⟨hready.1, hready.2, ?_⟩
    split at h
    · cases h
    · rename_i src hsrc
      split at h
      · cases h
      · rename_i bytesPerPixel hbytes
        cases h
        exact ⟨src, bytesPerPixel, hsrc, hbytes, rfl⟩

/-- Nothing is drawn on a closed device. -/
theorem showFrame_closeDevice (ρ : Rounding) (w : SizeT) (fb : Framebuffer) (bgr : Mat) :
    (showFrame ρ w fb.closeDevice bgr).1 = .nothing := rfl

theorem pixelBytes_cases {fb : Framebuffer} {n : Nat} (h : fb.pixelBytes = some n) :
    fb.bpp.toNat = 8 * n ∧ (n = 2 ∨ n = 4) := by
  unfold pixelBytes at h
  split at h
  · rename_i hbpp
    cases h
    rw [hbpp]
    exact ⟨rfl, .inl rfl⟩
  · split at h
    · rename_i hbpp
      cases h
      rw [hbpp]
      exact ⟨rfl, .inr rfl⟩
    · cases h

theorem Mat.pos_of_nonempty {m : Mat} (h : m.isEmpty = false) :
    0 < m.cols.toInt ∧ 0 < m.rows.toInt := by
  have hzero : ∀ x : Int32, (x == 0) = false → x.toInt ≠ 0 := by
    intro x hx h0
    have hne : x ≠ 0 := by simpa using hx
    exact hne (Int32.toInt_inj.mp h0)
  unfold Mat.isEmpty at h
  rw [Bool.or_eq_false_iff] at h
  have := hzero _ h.1
  have := hzero _ h.2
  have := m.cols_nonneg
  have := m.rows_nonneg
  omega

theorem toNat_toUInt32 {x : Int32} (h : 0 ≤ x.toInt) : (x.toUInt32.toNat : Int) = x.toInt := by
  rw [Int32.toNat_toUInt32_of_le (Int32.le_iff_toInt_le.mpr h)]
  exact Int.toNat_of_nonneg h

theorem exceeds_iff (fb : Framebuffer) (m : Mat) :
    fb.Exceeds m ↔ (fb.xres.toNat : Int) < m.cols.toInt ∨ (fb.yres.toNat : Int) < m.rows.toInt := by
  unfold Exceeds
  rw [← toNat_toUInt32 m.cols_nonneg, ← toNat_toUInt32 m.rows_nonneg, gt_iff_lt, gt_iff_lt,
    UInt32.lt_iff_toNat_lt, UInt32.lt_iff_toNat_lt, Int.ofNat_lt, Int.ofNat_lt]

end Framebuffer

end FaceTracking
