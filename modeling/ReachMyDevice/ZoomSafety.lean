import Mathlib.Tactic.Linarith
import ReachMyDevice.Lib.Pieces
import ReachMyDevice.ZoomCoherence

/-!
# What a zoom rectangle lets out of the picture

The four numbers of a rectangle come from the peer. They choose the pixels that
are cropped, and where on the display the pointer goes.
-/
namespace ReachMyDevice
open ExtendedRational

/-! ## Cropping a frame -/

/-- A crop rectangle in source pixels. -/
structure PixelRect where
  cx : Nat
  cy : Nat
  cw : Nat
  ch : Nat
  deriving DecidableEq, Repr

/-- `as u32` -/
def toU32 (v : F64) : Nat := (v.toInt 0 (2 ^ 32 - 1)).toNat

/-- Rounded, kept in-bounds, at least one pixel. -/
def CropRect.pixels (rect : CropRect) (srcW srcH : Nat) : PixelRect :=
  let cx := min (toU32 (rect.x.mul (.fin srcW)).round) (srcW - 1)
  let cy := min (toU32 (rect.y.mul (.fin srcH)).round) (srcH - 1)
  { cx, cy
    cw := min (max (toU32 (rect.w.mul (.fin srcW)).round) 1) (srcW - cx)
    ch := min (max (toU32 (rect.h.mul (.fin srcH)).round) 1) (srcH - cy) }

namespace PixelRect

/-- `(cw * 4) as usize`: the product is one of 32 bits. -/
def rowBytes (p : PixelRect) : Nat := p.cw * 4 % 2 ^ 32

/-- Where a row of the rectangle begins in the source. -/
def rowStart (p : PixelRect) (stride row : Nat) : Nat := (p.cy + row) * stride + p.cx * 4

/-- `src.get(start..start + count)` -/
def getRange (src : Bytes) (start count : Nat) : Option Bytes :=
  if start + count ≤ src.length then some ((src.drop start).take count) else none

/-- The rows of the rectangle without what pads the source. -/
def pack (p : PixelRect) (src : Bytes) (stride : Nat) : Option Bytes :=
  ((List.range p.ch).mapM fun row => getRange src (p.rowStart stride row) p.rowBytes).map
    List.flatten

/-- Rows that are all in the source. -/
structure Reads (p : PixelRect) (f : Frame) : Prop where
  nonempty : 0 < p.cw ∧ 0 < p.ch
  inside : p.cx + p.cw ≤ f.width ∧ p.cy + p.ch ≤ f.height
  rows : ∀ row < p.ch,
    p.rowStart f.bytesPerRow row + p.rowBytes ≤ f.bytesPerRow * f.height

end PixelRect

/-- The third-party scaler: it scales pixels of one size to another. -/
abbrev Resize := Nat → Nat → Bytes → Nat → Nat → Option Bytes

/-- `Scaler::crop_scale`; `none` leaves the frame as it is. -/
def cropScale (resize : Resize) (src : Bytes) (srcW srcH srcStride : Nat) (rect : CropRect)
    (outW outH : Nat) : Option Bytes :=
  let rect := rect.sanitized
  if rect.isFull || srcW == 0 || srcH == 0 || outW == 0 || outH == 0 then none
  else
    let p := rect.pixels srcW srcH
    (p.pack src srcStride).bind fun tight => resize p.cw p.ch tight outW outH

/-- Pixels of four bytes in rows that may be padded, of which the buffer holds each. -/
structure Frame.Geometry (f : Frame) : Prop where
  width : 0 < f.width
  height : 0 < f.height
  rows : f.width * 4 ≤ f.bytesPerRow
  bytesPerRow : f.bytesPerRow < 2 ^ 32
  data : f.data.length = f.bytesPerRow * f.height

namespace CropRect

theorem pixels_spec (r : CropRect) {srcW srcH : Nat} (wide : 0 < srcW) (high : 0 < srcH) :
    (0 < (r.pixels srcW srcH).cw ∧ 0 < (r.pixels srcW srcH).ch) ∧
      (r.pixels srcW srcH).cx + (r.pixels srcW srcH).cw ≤ srcW ∧
      (r.pixels srcW srcH).cy + (r.pixels srcW srcH).ch ≤ srcH := by
  simp only [pixels]
  generalize toU32 (r.x.mul (.fin srcW)).round = x
  generalize toU32 (r.y.mul (.fin srcH)).round = y
  generalize toU32 (r.w.mul (.fin srcW)).round = w
  generalize toU32 (r.h.mul (.fin srcH)).round = h
  omega

/-- Whatever the rectangle, its pixels are in the frame. -/
theorem reads (r : CropRect) {f : Frame} (geometry : f.Geometry) :
    (r.pixels f.width f.height).Reads f := by
  obtain ⟨nonempty, right, bottom⟩ := r.pixels_spec geometry.width geometry.height
  generalize r.pixels f.width f.height = p at nonempty right bottom
  refine ⟨nonempty, ⟨right, bottom⟩, ?_⟩
  intro row shown
  have columns : p.cx * 4 + p.cw * 4 ≤ f.bytesPerRow := by
    have := geometry.rows
    omega
  have whole : p.rowBytes = p.cw * 4 := by
    have := geometry.bytesPerRow
    exact Nat.mod_eq_of_lt (by omega)
  calc p.rowStart f.bytesPerRow row + p.rowBytes
      = (p.cy + row) * f.bytesPerRow + (p.cx * 4 + p.cw * 4) := by
        rw [whole, PixelRect.rowStart, Nat.add_assoc]
    _ ≤ (p.cy + row) * f.bytesPerRow + f.bytesPerRow := Nat.add_le_add_left columns _
    _ = (p.cy + row + 1) * f.bytesPerRow := (Nat.succ_mul _ _).symm
    _ ≤ f.height * f.bytesPerRow := Nat.mul_le_mul_right _ (by omega)
    _ = f.bytesPerRow * f.height := Nat.mul_comm _ _

end CropRect

/-- No row is missed: the packed buffer has the pixels of the rectangle, row by row. -/
theorem PixelRect.Reads.pack {p : PixelRect} {f : Frame} (reads : p.Reads f)
    (geometry : f.Geometry) : p.pack f.data f.bytesPerRow =
      some ((List.range p.ch).map fun row =>
        (f.data.drop (p.rowStart f.bytesPerRow row)).take p.rowBytes).flatten := by
  have rows : ∀ row ∈ List.range p.ch,
      getRange f.data (p.rowStart f.bytesPerRow row) p.rowBytes =
        some ((f.data.drop (p.rowStart f.bytesPerRow row)).take p.rowBytes) := by
    intro row shown
    have read := reads.rows row (List.mem_range.mp shown)
    rw [← geometry.data] at read
    exact if_pos read
  rw [PixelRect.pack, Pieces.mapM_of_forall rows]
  rfl

/-- Only a full rectangle, an empty output or the scaler leaves a frame as it is. -/
theorem cropScale_eq (resize : Resize) {f : Frame} (geometry : f.Geometry) (r : CropRect)
    {outW outH : Nat} (part : r.sanitized.isFull = false) (wide : 0 < outW) (high : 0 < outH) :
    ∃ tight, (r.sanitized.pixels f.width f.height).pack f.data f.bytesPerRow = some tight ∧
      cropScale resize f.data f.width f.height f.bytesPerRow r outW outH =
        resize (r.sanitized.pixels f.width f.height).cw (r.sanitized.pixels f.width f.height).ch
          tight outW outH := by
  have packed := (r.sanitized.reads geometry).pack geometry
  refine ⟨_, packed, ?_⟩
  have sizes : (f.width == 0) = false ∧ (f.height == 0) = false ∧ (outW == 0) = false ∧
      (outH == 0) = false := by
    have := geometry.width
    have := geometry.height
    simp only [beq_eq_false_iff_ne]
    omega
  rw [cropScale]
  simp only [part, sizes, Bool.or_self, Bool.false_eq_true, if_false, packed, Option.bind_some]

/-! ## What comes of a rectangle from the wire -/

namespace CropRect

/-- By the comparisons of the format, to which nothing compares that is not a number. -/
structure OnScreen (r : CropRect) : Prop where
  left : r.x.ge 0
  top : r.y.ge 0
  wide : r.w.gt 0
  high : r.h.gt 0
  right : Ext.ge 1 (r.x.add r.w)
  bottom : Ext.ge 1 (r.y.add r.h)

/-- A point of the rectangle. -/
def Holds (r : CropRect) (x y : F64) : Prop :=
  (x.ge r.x ∧ (r.x.add r.w).ge x) ∧ y.ge r.y ∧ (r.y.add r.h).ge y

/-- What is asked of the rectangle that comes of one from the wire. -/
structure Safe (r : CropRect) : Prop where
  onScreen : r.sanitized.OnScreen
  again : r.sanitized.sanitized = r.sanitized
  reads : ∀ f : Frame, f.Geometry → (r.sanitized.pixels f.width f.height).Reads f
  pointer : ∀ px py : ℚ, 0 ≤ px → px ≤ 1 → 0 ≤ py → py ≤ 1 → ∃ x y, r.sanitized.Holds x y ∧
    r.sanitized.remap (.mouseMove { x := .fin px, y := .fin py }) = .mouseMove { x, y } ∧
    ∀ b : MouseButton, r.sanitized.remap (.mouseButton { b with x := .fin px, y := .fin py }) =
      .mouseButton { b with x, y }

/-- A degenerate or full rectangle. -/
def Collapses (r : CropRect) : Prop :=
  (r.w.gt 0 && r.h.gt 0) = false ∨ (r.w.ge 1 && r.h.ge 1) = true

instance (r : CropRect) : Decidable r.Collapses := inferInstanceAs (Decidable (_ ∨ _))

theorem sanitized_eq (r : CropRect) : r.sanitized =
    if r.Collapses then full
    else
      { x := r.x.clamp 0 (.sub 1 (r.w.clamp 0 1))
        y := r.y.clamp 0 (.sub 1 (r.h.clamp 0 1))
        w := r.w.clamp 0 1
        h := r.h.clamp 0 1 } := by
  have wide : (r.w.clamp 0 1).gt 0 = r.w.gt 0 := Ext.clamp_gt_lo r.w one_pos
  have high : (r.h.clamp 0 1).gt 0 = r.h.gt 0 := Ext.clamp_gt_lo r.h one_pos
  have across : (r.w.clamp 0 1).ge 1 = r.w.ge 1 := Ext.clamp_ge_hi r.w one_pos
  have down : (r.h.clamp 0 1).ge 1 = r.h.ge 1 := Ext.clamp_ge_hi r.h one_pos
  unfold sanitized
  simp only [wide, high, across, down, Collapses, Bool.or_eq_true, Bool.not_eq_true']
  exact if_congr Iff.rfl rfl rfl

/-- What does not collapse is somewhere in the picture, or nowhere if it was nowhere. -/
theorem sanitized_inside {r : CropRect} (kept : ¬ r.Collapses) :
    (∃ w h, r.sanitized.Inside w h) ∧ (r.sanitized.Placed ↔ r.Placed) := by
  have eq := r.sanitized_eq
  rw [if_neg kept] at eq
  have inside : ∃ w h, r.sanitized.Inside w h := by
    refine r.sanitized_cases.resolve_left ?_
    intro whole
    rw [eq] at whole
    have across := (Ext.clamp_ge_hi r.w one_pos).symm.trans
      (congrArg (Ext.ge · 1) (congrArg CropRect.w whole))
    have down := (Ext.clamp_ge_hi r.h one_pos).symm.trans
      (congrArg (Ext.ge · 1) (congrArg CropRect.h whole))
    exact kept (.inr (Bool.and_eq_true_iff.mpr ⟨across, down⟩))
  refine ⟨inside, ?_⟩
  obtain ⟨w, h, inside⟩ := inside
  have origin {v size : Ext} {q : ℚ} (same : size = .fin q) (below : q ≤ 1) :
      v.clamp 0 (.sub 1 size) ≠ .nan ↔ v ≠ .nan := by
    rw [same]
    rcases Ext.clamp_cases v 0 (1 + -q) (by linarith) with ⟨rfl, nan⟩ | ⟨number, x, within, -⟩
    · exact Iff.rfl
    · refine iff_of_true ?_ number
      rintro nan
      cases within.symm.trans nan
  have width := inside.width
  have height := inside.height
  rw [eq] at width height ⊢
  exact and_congr (origin width inside.wide.2) (origin height inside.high.2)

/-- Along one axis, a share of the rectangle lies between its edges. -/
theorem between_edges {x size share : ℚ} (some_ : 0 ≤ size) (low : 0 ≤ share) (high : share ≤ 1) :
    (Ext.fin (x + share * size)).ge (.fin x) = true ∧
      ((Ext.fin x).add (.fin size)).ge (.fin (x + share * size)) = true := by
  have along := mul_nonneg low some_
  have within := mul_le_of_le_one_left some_ high
  exact ⟨Ext.ge_fin.mpr (by linarith), Ext.ge_fin.mpr (by linarith)⟩

/-- Where a point of the picture is shown that a rectangle crops is in the rectangle. -/
theorem holds_pointAt {r : CropRect} (shape : r = full ∨ ∃ w h, r.Inside w h) {px py x y : ℚ}
    (shown : r.pointAt px py = some (x, y)) (left : 0 ≤ px) (right : px ≤ 1) (top : 0 ≤ py)
    (bottom : py ≤ 1) : r.Holds (.fin x) (.fin y) := by
  rcases shape with rfl | ⟨w, h, inside⟩
  · cases shown
    exact ⟨⟨Ext.ge_fin.mpr left, Ext.ge_fin.mpr (by linarith)⟩, Ext.ge_fin.mpr top,
      Ext.ge_fin.mpr (by linarith)⟩
  · simp only [pointAt, inside.isFull, Bool.false_eq_true, if_false, inside.width,
      inside.height] at shown
    split at shown
    next x₀ y₀ w' h' hx hy hw hh =>
      cases hw
      cases hh
      cases shown
      rw [Holds, hx, hy, inside.width, inside.height]
      exact ⟨between_edges inside.wide.1.le left right, between_edges inside.high.1.le top bottom⟩
    next => cases shown

theorem onScreen_of_placed {r : CropRect} (shape : r = full ∨ ∃ w h, r.Inside w h)
    (placed : r.Placed) : r.OnScreen := by
  rcases shape with rfl | ⟨w, h, inside⟩
  · have edge : Ext.ge 1 ((0 : Ext).add 1) = true := Ext.ge_fin.mpr (zero_add 1).le
    exact ⟨rfl, rfl, rfl, rfl, edge, edge⟩
  · obtain ⟨x, left, low, below⟩ := inside.left.resolve_left placed.1
    obtain ⟨y, top, low', below'⟩ := inside.top.resolve_left placed.2
    obtain ⟨x', y', w', h'⟩ := r
    obtain rfl : w' = .fin w := inside.width
    obtain rfl : h' = .fin h := inside.height
    cases left
    cases top
    exact ⟨Ext.ge_fin.mpr low, Ext.ge_fin.mpr low', Ext.gt_fin.mpr inside.wide.1,
      Ext.gt_fin.mpr inside.high.1, Ext.ge_fin.mpr (by linarith), Ext.ge_fin.mpr (by linarith)⟩

theorem OnScreen.placed {r : CropRect} (onScreen : r.OnScreen) : r.Placed := by
  constructor
  · intro nan
    have left := onScreen.left
    rw [nan] at left
    cases left
  · intro nan
    have top := onScreen.top
    rw [nan] at top
    cases top

/-- All that is asked comes of the rectangle being somewhere. -/
theorem safe_iff_placed (r : CropRect) : r.Safe ↔ r.sanitized.Placed := by
  constructor
  · exact fun safe => safe.onScreen.placed
  · intro placed
    refine ⟨onScreen_of_placed r.sanitized_cases placed, r.sanitized_sanitized,
      fun f geometry => r.sanitized.reads geometry, ?_⟩
    intro px py left right top bottom
    obtain ⟨x, y, shown⟩ := (r.pointAt_sanitized px py).mpr placed
    exact ⟨.fin x, .fin y, holds_pointAt r.sanitized_cases shown left right top bottom,
      remap_pointAt shown⟩

/-- A rectangle is safe exactly if it is degenerate or full, or both coordinates of its origin are
numbers. -/
theorem zoom_safe_iff (r : CropRect) : r.Safe ↔
    (r.w.gt 0 && r.h.gt 0) = false ∨ (r.w.ge 1 && r.h.ge 1) = true ∨ r.x ≠ .nan ∧ r.y ≠ .nan := by
  rw [safe_iff_placed, ← or_assoc]
  by_cases collapses : r.Collapses
  · refine iff_of_true ?_ (.inl collapses)
    rw [sanitized_eq, if_pos collapses]
    exact Placed.of_full
  · rw [(sanitized_inside collapses).2]
    exact (or_iff_right collapses).symm

/-- A half of the picture that begins nowhere: its pixels are those from the left edge on, its
pointer goes nowhere. -/
theorem unplaced_unsafe : ∃ r : CropRect, ¬ r.Safe ∧ r.sanitized.x.ge 0 = false ∧
    (r.sanitized.pixels 4 2).cx = 0 ∧ ∃ ev : MouseMove, ev = { x := 0, y := 0 } ∧
      r.sanitized.remap (.mouseMove ev) = .mouseMove { x := .nan, y := 0 } := by
  refine ⟨{ x := .nan, y := 0, w := .fin (1 / 2), h := .fin (1 / 2) }, ?_, ?_, ?_, _, rfl, ?_⟩
  · exact fun safe => absurd safe.onScreen.left (by decide +kernel)
  all_goals decide +kernel

end CropRect
end ReachMyDevice
