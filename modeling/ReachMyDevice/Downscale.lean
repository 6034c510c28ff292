import Mathlib.Algebra.BigOperators.Intervals
import Mathlib.Algebra.BigOperators.Ring.Finset
import ReachMyDevice.Capture
import ReachMyDevice.Lib.Rescale
import ReachMyDevice.Lib.RoundToEven
import ReachMyDevice.Lib.Tally

/-!
# Downscaling a captured screen

The X11 backend averages a frame down to the configured size. Sums and counts are
numbers of 32 bits; `none` is a panic, of an index out of range or of a sum that
overflows.
-/
namespace ReachMyDevice
namespace X11Capture
open Rescale Tally

/-- What an operation on `f64` gives, of its exact result. -/
def f64 (q : ℚ) : ℚ := RoundToEven.round 52 (-1074) q

/-- `f64::round`: half away from zero. -/
def f64Round (q : ℚ) : ℤ := if 0 ≤ q then ⌊q + 1 / 2⌋ else ⌈q - 1 / 2⌉

/-- `as u16` -/
def asU16 (n : ℤ) : UInt16 := UInt16.ofNat (max 0 (min n 65535)).toNat

/-- `((src as f64 * factor).round() as u16).max(1)` -/
def scaled (src : UInt16) (factor : ℚ) : UInt16 :=
  max (asU16 (f64Round (f64 (src.toNat * factor)))) 1

def fitWithin (srcW srcH : UInt16) (capW capH : UInt32) : UInt16 × UInt16 :=
  if capW = 0 ∨ capH = 0 ∨ srcW = 0 ∨ srcH = 0 then (srcW, srcH)
  else
    let factor := min (min (f64 (capW.toNat / srcW.toNat)) (f64 (capH.toNat / srcH.toNat))) 1
    (scaled srcW factor, scaled srcH factor)

/-- `&l[start..stop]` -/
def slice (l : Bytes) (start stop : Nat) : Option Bytes :=
  if start ≤ stop ∧ stop ≤ l.length then some ((l.take stop).drop start) else none

/-- The vectors `acc` and `cnt`. -/
structure Sums where
  acc : List Nat
  cnt : List Nat

namespace Sums

def start (dstW dstH : Nat) : Sums where
  acc := List.replicate (dstW * dstH * 4) 0
  cnt := List.replicate (dstW * dstH) 0

def addPixel (t : Sums) (di : Nat) : Bytes → Option Sums
  | [b, g, r, x] => do
    let a := di * 4
    let acc ← addAll (2 ^ 32) t.acc
      [(a, b.toNat), (a + 1, g.toNat), (a + 2, r.toNat), (a + 3, x.toNat)]
    let cnt ← addAll (2 ^ 32) t.cnt [(di, 1)]
    some { acc, cnt }
  | _ => none

def addRow (srcW dstW dy : Nat) (row : Bytes) (t : Sums) : Option Sums :=
  (List.range srcW).foldlM (fun t sx => do
    let dx := sx * dstW / srcW
    let s ← slice row (sx * 4) (sx * 4 + 4)
    t.addPixel (dy * dstW + dx) s) t

def addRows (src : Bytes) (srcW srcH srcStride dstW dstH : Nat) (t : Sums) : Option Sums :=
  (List.range srcH).foldlM (fun t sy => do
    let dy := sy * dstH / srcH
    let row ← slice src (sy * srcStride) (sy * srcStride + srcW * 4)
    t.addRow srcW dstW dy row) t

/-- The four bytes of a pixel; `as u8` keeps the low ones. -/
def pixel (t : Sums) (i count : Nat) : Option Bytes :=
  [0, 1, 2, 3].mapM fun k => t.acc[i * 4 + k]?.map fun n => UInt8.ofNat (n / max count 1)

def pixels (t : Sums) : Option Bytes :=
  (t.cnt.zipIdx.mapM fun e => t.pixel e.2 e.1).map List.flatten

end Sums

def downscaleBgra (src : Bytes) (srcW srcH srcStride dstW dstH : Nat) : Option Bytes :=
  ((Sums.start dstW dstH).addRows src srcW srcH srcStride dstW dstH).bind Sums.pixels

/-- What the capture loop makes of a reply of the X server. -/
def frame (width height : UInt16) (capW capH : UInt32) (data : Bytes) (ts : Nat) : Option Frame :=
  let h := height.toNat
  let bytesPerRow := if 0 < h then data.length / h else 0
  let (dw, dh) := fitWithin width height capW capH
  if (dw, dh) ≠ (width, height) ∧ width.toNat * 4 ≤ bytesPerRow ∧ bytesPerRow * h ≤ data.length then
    (downscaleBgra data width.toNat h bytesPerRow dw.toNat dh.toNat).map fun scaled =>
      { data := scaled, width := dw.toNat, height := dh.toNat, bytesPerRow := dw.toNat * 4,
        captureTsMicros := ts }
  else
    some { data := data, width := width.toNat, height := h, bytesPerRow := bytesPerRow,
           captureTsMicros := ts }

example : downscaleBgra [1, 2, 3, 4, 5, 6, 7, 9, 0, 0] 2 1 10 1 1 = some [3, 4, 5, 6] := by decide

/-! ## The size -/

theorem f64_nonneg {q : ℚ} (h : 0 ≤ q) : 0 ≤ f64 q := RoundToEven.round_nonneg h

theorem f64_mono {a b : ℚ} (nonneg : 0 ≤ a) (h : a ≤ b) : f64 a ≤ f64 b :=
  RoundToEven.round_mono nonneg h

theorem toNat_asU16 (n : ℤ) : (asU16 n).toNat = (max 0 (min n 65535)).toNat := by
  rw [asU16, UInt16.toNat_ofNat', Nat.mod_eq_of_lt]
  omega

theorem toNat_max (a b : UInt16) : (max a b).toNat = max a.toNat b.toNat := by
  change (if a ≤ b then b else a).toNat = _
  rw [apply_ite UInt16.toNat, max_def]
  simp only [UInt16.le_iff_toNat_le]

theorem toNat_scaled (src : UInt16) (factor : ℚ) :
    (scaled src factor).toNat = max (asU16 (f64Round (f64 (src.toNat * factor)))).toNat 1 := by
  rw [scaled, toNat_max]
  rfl

theorem one_le_scaled (src : UInt16) (factor : ℚ) : 1 ≤ (scaled src factor).toNat := by
  rw [toNat_scaled]
  exact le_max_right _ _

theorem toNat_scaled_le {src : UInt16} {factor : ℚ} {n : ℕ} (nonneg : 0 ≤ factor) (some : 1 ≤ n)
    (below : f64 (src.toNat * factor) < n + 1 / 2) : (scaled src factor).toNat ≤ n := by
  have positive : 0 ≤ f64 (src.toNat * factor) := f64_nonneg (mul_nonneg (Nat.cast_nonneg _) nonneg)
  have rounded : f64Round (f64 (src.toNat * factor)) ≤ n := by
    rw [f64Round, if_pos positive, ← Int.lt_add_one_iff, Int.floor_lt]
    push_cast
    linarith
  rw [toNat_scaled, toNat_asU16]
  omega

/-- No dimension grows. -/
theorem scaled_le_src {src : UInt16} {factor : ℚ} (some : 0 < src.toNat) (nonneg : 0 ≤ factor)
    (shrinks : factor ≤ 1) : (scaled src factor).toNat ≤ src.toNat := by
  refine toNat_scaled_le nonneg some ?_
  have small : (src.toNat : ℚ) * factor ≤ src.toNat :=
    mul_le_of_le_one_right (Nat.cast_nonneg _) shrinks
  have exact_ : f64 src.toNat = src.toNat :=
    RoundToEven.round_natCast (src.toNat_lt.trans (by norm_num)) (by norm_num)
  have below := f64_mono (mul_nonneg (Nat.cast_nonneg _) nonneg) small
  linarith

/-- The rounding errors do not add up to half a pixel. -/
theorem scaled_le_cap {src : UInt16} {cap : ℕ} {factor : ℚ} (capped : 0 < cap) (nonneg : 0 ≤ factor)
    (fits : factor ≤ f64 (cap / src.toNat)) (less : cap < src.toNat) :
    (scaled src factor).toNat ≤ cap := by
  refine toNat_scaled_le nonneg capped ?_
  have positive : (0 : ℚ) < src.toNat := by exact_mod_cast capped.trans less
  have small : (src.toNat : ℚ) < 65536 := by exact_mod_cast src.toNat_lt
  have capSmall : (cap : ℚ) < 65536 := lt_trans (by exact_mod_cast less) small
  have ratio : f64 (cap / src.toNat) ≤ cap / src.toNat + 2 ^ (0 - 2 - 52 : ℤ) := by
    refine RoundToEven.round_le (by positivity) ?_ (by norm_num)
    rw [zpow_zero, div_lt_one positive]
    exact_mod_cast less
  have product : (src.toNat : ℚ) * factor ≤ cap + 1 / 2 ^ 38 := by
    calc (src.toNat : ℚ) * factor
        ≤ src.toNat * (cap / src.toNat + 2 ^ (0 - 2 - 52 : ℤ)) :=
          mul_le_mul_of_nonneg_left (fits.trans ratio) positive.le
      _ = cap + src.toNat * (1 / 2 ^ 54) := by
          rw [mul_add, mul_div_cancel₀ _ positive.ne']
          norm_num
      _ ≤ cap + 1 / 2 ^ 38 := by linarith
  have rounded : f64 (src.toNat * factor) ≤ src.toNat * factor + 2 ^ (17 - 2 - 52 : ℤ) := by
    refine RoundToEven.round_le (mul_nonneg positive.le nonneg) (k := 17) ?_ (by norm_num)
    have bound : (2 : ℚ) ^ (17 : ℤ) = 131072 := by norm_num
    linarith
  have tiny : (2 : ℚ) ^ (17 - 2 - 52 : ℤ) = 1 / 2 ^ 37 := by norm_num
  rw [tiny] at rounded
  have small : (1 : ℚ) / 2 ^ 38 + 1 / 2 ^ 37 < 1 / 2 := by norm_num
  linarith

/-- What is asked of a target: it is no larger than the source, and if that is a size, it is one
that keeps to the cap. A cap with a zero is none. -/
structure Fits (srcW srcH : UInt16) (capW capH : UInt32) (dst : UInt16 × UInt16) : Prop where
  source : dst.1.toNat ≤ srcW.toNat ∧ dst.2.toNat ≤ srcH.toNat
  size : 1 ≤ srcW.toNat → 1 ≤ srcH.toNat → 1 ≤ dst.1.toNat ∧ 1 ≤ dst.2.toNat
  capped : 1 ≤ srcW.toNat → 1 ≤ srcH.toNat → 1 ≤ capW.toNat → 1 ≤ capH.toNat →
    dst.1.toNat ≤ capW.toNat ∧ dst.2.toNat ≤ capH.toNat

theorem scaled_le {src : UInt16} {cap : ℕ} {factor : ℚ} (some : 1 ≤ src.toNat) (capped : 1 ≤ cap)
    (nonneg : 0 ≤ factor) (fits : factor ≤ f64 (cap / src.toNat)) (shrinks : factor ≤ 1) :
    (scaled src factor).toNat ≤ src.toNat ∧ (scaled src factor).toNat ≤ cap := by
  have small := scaled_le_src some nonneg shrinks
  refine ⟨small, ?_⟩
  obtain larger | less := le_or_gt src.toNat cap
  · exact small.trans larger
  · exact scaled_le_cap capped nonneg fits less

theorem toNat_pos {n : UInt16} (h : n ≠ 0) : 1 ≤ n.toNat :=
  Nat.one_le_iff_ne_zero.mpr (h ∘ (UInt16.toNat_inj (b := 0)).mp)

theorem cap_pos {n : UInt32} (h : n ≠ 0) : 1 ≤ n.toNat :=
  Nat.one_le_iff_ne_zero.mpr (h ∘ (UInt32.toNat_inj (b := 0)).mp)

theorem fitWithin_fits (srcW srcH : UInt16) (capW capH : UInt32) :
    Fits srcW srcH capW capH (fitWithin srcW srcH capW capH) := by
  unfold fitWithin
  split
  · rename_i none
    refine ⟨⟨le_rfl, le_rfl⟩, fun wide high => ⟨wide, high⟩, fun wide high across down => ?_⟩
    obtain rfl | rfl | rfl | rfl := none
    · exact absurd across (by decide)
    · exact absurd down (by decide)
    · exact absurd wide (by decide)
    · exact absurd high (by decide)
  · rename_i some
    simp only [not_or] at some
    obtain ⟨across, down, wide, high⟩ := some
    have nonneg : (0 : ℚ) ≤ min (min (f64 (capW.toNat / srcW.toNat))
        (f64 (capH.toNat / srcH.toNat))) 1 :=
      le_min (le_min (f64_nonneg (by positivity)) (f64_nonneg (by positivity))) zero_le_one
    have width := scaled_le (toNat_pos wide) (cap_pos across) nonneg
      ((min_le_left _ _).trans (min_le_left _ _)) (min_le_right _ _)
    have height := scaled_le (toNat_pos high) (cap_pos down) nonneg
      ((min_le_left _ _).trans (min_le_right _ _)) (min_le_right _ _)
    exact ⟨⟨width.1, height.1⟩, fun _ _ => ⟨one_le_scaled _ _, one_le_scaled _ _⟩,
      fun _ _ _ _ => ⟨width.2, height.2⟩⟩

end X11Capture
end ReachMyDevice
