import Mathlib.Tactic.FieldSimp
import Mathlib.Tactic.Linarith
import Mathlib.Tactic.Positivity
import ReachMyDevice.ViewerApp

/-!
# The cursor over a letterboxed picture

The picture is drawn between bars that keep its aspect ratio. The cursor's
position is taken relative to the whole window.
-/
namespace ReachMyDevice
open ExtendedRational

/-- Per-axis scale that fits `img` inside `win` while preserving aspect ratio. -/
def letterboxScale (winW winH imgW imgH : Nat) : ℚ × ℚ :=
  let winAspect := (winW : ℚ) / (max winH 1 : Nat)
  let imgAspect := (imgW : ℚ) / (max imgH 1 : Nat)
  if imgAspect < winAspect then (imgAspect / winAspect, 1) else (1, winAspect / imgAspect)

/-- The inner size of the window, and the size of the frame that is shown. -/
structure VideoView where
  innerWidth : Nat
  innerHeight : Nat
  frameWidth : Nat
  frameHeight : Nat

namespace VideoView
variable (v : VideoView)

/-- `Gpu::resize` -/
def width : Nat := max v.innerWidth 1
def height : Nat := max v.innerHeight 1

/-- `Gpu::upload_frame` -/
def imgWidth : Nat := max v.frameWidth 1
def imgHeight : Nat := max v.frameHeight 1

def scale : ℚ × ℚ := letterboxScale v.width v.height v.imgWidth v.imgHeight

/-- Where the shader draws a share of the picture, along one axis of the window. -/
def drawnAt (scale : ℚ) (size : Nat) (share : ℚ) : ℚ := ((2 * share - 1) * scale + 1) / 2 * size

/-- The share of the picture at a position, which outside of it is that of the edge. -/
def shareAt (scale : ℚ) (size : Nat) (position : ℚ) : ℚ :=
  max 0 (min 1 (((2 * (position / size) - 1) / scale + 1) / 2))

/-- The position lies over the picture. -/
def Over (x y : ℚ) : Prop :=
  (∃ share, 0 ≤ share ∧ share ≤ 1 ∧ drawnAt v.scale.1 v.width share = x) ∧
    ∃ share, 0 ≤ share ∧ share ≤ 1 ∧ drawnAt v.scale.2 v.height share = y

/-- The cursor is sent as its share of the picture. -/
def Aims (x y : ℚ) : Prop :=
  ViewerApp.normalizeCursor v.innerWidth v.innerHeight (.fin x) (.fin y) =
    (.fin (shareAt v.scale.1 v.width x), .fin (shareAt v.scale.2 v.height y))

/-- No bars on the left and right. -/
def FillsWidth : Prop := v.width * v.imgHeight ≤ v.imgWidth * v.height

/-- No bars above and below. -/
def FillsHeight : Prop := v.imgWidth * v.height ≤ v.width * v.imgHeight

variable {v}

theorem width_pos : 0 < v.width := Nat.lt_of_lt_of_le Nat.one_pos (Nat.le_max_right _ _)
theorem height_pos : 0 < v.height := Nat.lt_of_lt_of_le Nat.one_pos (Nat.le_max_right _ _)
theorem imgWidth_pos : 0 < v.imgWidth := Nat.lt_of_lt_of_le Nat.one_pos (Nat.le_max_right _ _)
theorem imgHeight_pos : 0 < v.imgHeight := Nat.lt_of_lt_of_le Nat.one_pos (Nat.le_max_right _ _)

/-- What the shader draws at a position is the share that the position has. -/
theorem shareAt_drawnAt {scale share : ℚ} {size : Nat} (visible : 0 < scale) (some_ : 0 < size)
    (low : 0 ≤ share) (high : share ≤ 1) :
    shareAt scale size (drawnAt scale size share) = share := by
  have positive : (0 : ℚ) < size := by exact_mod_cast some_
  have back : ((2 * (drawnAt scale size share / size) - 1) / scale + 1) / 2 = share := by
    rw [drawnAt]
    field_simp
    ring
  rw [shareAt, back, min_eq_right high, max_eq_right low]

/-- Strictly between the bounds clamping gives a value only of itself. -/
theorem clamp_eq_iff {u r : ℚ} (low : 0 < u) (high : u < 1) : max 0 (min 1 r) = u ↔ r = u := by
  constructor
  · intro same
    rcases max_choice 0 (min 1 r) with h | h
    · linarith [same.symm.trans h]
    · rw [h] at same
      rcases min_choice 1 r with h' | h'
      · linarith [same.symm.trans h']
      · rwa [h'] at same
  · rintro rfl
    rw [min_eq_right high.le, max_eq_right low.le]

/-- The share of the window is that of the picture outside of the window, in its middle, and where
the picture has no bars. -/
theorem share_eq_iff {scale x : ℚ} {size : Nat} (visible : 0 < scale) (within : scale ≤ 1)
    (some_ : 0 < size) : max 0 (min 1 (x / size)) = shareAt scale size x ↔
      scale = 1 ∨ x ≤ 0 ∨ size ≤ x ∨ 2 * x = size := by
  have positive : (0 : ℚ) < size := by exact_mod_cast some_
  have stretched : 1 ≤ 1 / scale := by rwa [le_div_iff₀ visible, one_mul]
  have relative : ((2 * (x / size) - 1) / scale + 1) / 2 =
      ((2 * (x / size) - 1) * (1 / scale) + 1) / 2 := by ring
  rw [shareAt, relative]
  generalize hk : 1 / scale = k at stretched
  have left : x ≤ 0 ↔ x / size ≤ 0 := by rw [div_le_iff₀ positive, zero_mul]
  have right : (size : ℚ) ≤ x ↔ 1 ≤ x / size := by rw [le_div_iff₀ positive, one_mul]
  have middle : 2 * x = size ↔ x / size = 1 / 2 := by
    rw [div_eq_iff positive.ne']
    constructor <;> intro h <;> linarith
  have plain : scale = 1 ↔ k = 1 := by
    rw [← hk, div_eq_one_iff_eq visible.ne', eq_comm]
  rw [left, right, middle, plain]
  generalize x / size = u
  rcases le_or_gt u 0 with before | low
  · have outside : ((2 * u - 1) * k + 1) / 2 ≤ 0 := by nlinarith
    refine iff_of_true ?_ (.inr (.inl before))
    rw [min_eq_right (by linarith), min_eq_right (by linarith), max_eq_left before,
      max_eq_left outside]
  rcases le_or_gt 1 u with behind | high
  · have outside : 1 ≤ ((2 * u - 1) * k + 1) / 2 := by nlinarith
    refine iff_of_true ?_ (.inr (.inr (.inl behind)))
    rw [min_eq_left behind, min_eq_left outside]
  · rw [min_eq_right high.le, max_eq_right low.le, eq_comm, clamp_eq_iff low high]
    constructor
    · intro same
      have factors : (2 * u - 1) * (k - 1) = 0 := by linarith
      rcases mul_eq_zero.mp factors with half | one
      · exact .inr (.inr (.inr (by linarith)))
      · exact .inl (by linarith)
    · rintro (rfl | before | behind | rfl)
      · ring
      · linarith
      · linarith
      · ring

/-! ## The scale -/

theorem scale_eq : v.scale =
    if v.imgWidth * v.height < v.width * v.imgHeight then
      (((v.imgWidth * v.height : Nat) : ℚ) / (v.width * v.imgHeight : Nat), 1)
    else (1, ((v.width * v.imgHeight : Nat) : ℚ) / (v.imgWidth * v.height : Nat)) := by
  have height : (0 : ℚ) < v.height := by exact_mod_cast height_pos
  have width : (0 : ℚ) < v.width := by exact_mod_cast width_pos
  have imgHeight : (0 : ℚ) < v.imgHeight := by exact_mod_cast imgHeight_pos
  have imgWidth : (0 : ℚ) < v.imgWidth := by exact_mod_cast imgWidth_pos
  have win : max v.height 1 = v.height := max_eq_left height_pos
  have img : max v.imgHeight 1 = v.imgHeight := max_eq_left imgHeight_pos
  have narrower : (v.imgWidth : ℚ) / v.imgHeight < v.width / v.height ↔
      v.imgWidth * v.height < v.width * v.imgHeight := by
    rw [div_lt_div_iff₀ imgHeight height]
    exact_mod_cast Iff.rfl
  rw [scale, letterboxScale, win, img]
  simp only [narrower]
  split
  · refine Prod.ext ?_ rfl
    push_cast
    field_simp
  · refine Prod.ext rfl ?_
    push_cast
    field_simp

/-- Both scales are positive and at most one, which they are where the picture has no bars. -/
theorem scale_facts : (0 < v.scale.1 ∧ v.scale.1 ≤ 1 ∧ (v.scale.1 = 1 ↔ v.FillsWidth)) ∧
    0 < v.scale.2 ∧ v.scale.2 ≤ 1 ∧ (v.scale.2 = 1 ↔ v.FillsHeight) := by
  have below : 0 < v.imgWidth * v.height := Nat.mul_pos imgWidth_pos height_pos
  have above : 0 < v.width * v.imgHeight := Nat.mul_pos width_pos imgHeight_pos
  rw [scale_eq, FillsWidth, FillsHeight]
  generalize v.imgWidth * v.height = a at below
  generalize v.width * v.imgHeight = b at above
  have fraction {m n : Nat} (less : m ≤ n) (first : 0 < m) (second : 0 < n) :
      (0 : ℚ) < m / n ∧ (m : ℚ) / n ≤ 1 ∧ ((m : ℚ) / n = 1 ↔ n ≤ m) := by
    have positive : (0 : ℚ) < n := by exact_mod_cast second
    refine ⟨div_pos (by exact_mod_cast first) positive, ?_, ?_⟩
    · rw [div_le_one positive]
      exact_mod_cast less
    · rw [div_eq_one_iff_eq positive.ne', Nat.cast_inj]
      exact ⟨fun same => same.ge, fun more => Nat.le_antisymm less more⟩
  split
  next bars =>
    refine ⟨fraction bars.le below above, one_pos, le_rfl, ?_⟩
    exact iff_of_true rfl bars.le
  next bars =>
    refine ⟨⟨one_pos, le_rfl, iff_of_true rfl (Nat.not_lt.mp bars)⟩, ?_⟩
    exact fraction (Nat.not_lt.mp bars) above below

theorem normalizeCursor_fin (v : VideoView) (x y : ℚ) :
    ViewerApp.normalizeCursor v.innerWidth v.innerHeight (.fin x) (.fin y) =
      (.fin (max 0 (min 1 (x / v.width))), .fin (max 0 (min 1 (y / v.height)))) := by
  have share (q : ℚ) {n : Nat} (some_ : 0 < n) :
      ((Ext.fin q).div (.fin n)).clamp 0 1 = .fin (max 0 (min 1 (q / n))) := by
    have nonzero : (n : ℚ) ≠ 0 := by exact_mod_cast some_.ne'
    rw [Ext.div, if_neg nonzero]
    exact Ext.clamp_fin _ zero_le_one
  have across := share x (n := v.width) width_pos
  have down := share y (n := v.height) height_pos
  rw [width, Nat.cast_max, Nat.cast_one] at across ⊢
  rw [height, Nat.cast_max, Nat.cast_one] at down ⊢
  exact Prod.ext across down

instance (v : VideoView) (x y : ℚ) : Decidable (v.Aims x y) := by
  unfold Aims
  infer_instance

theorem aims_iff (v : VideoView) (x y : ℚ) : v.Aims x y ↔
    (v.FillsWidth ∨ x ≤ 0 ∨ v.width ≤ x ∨ 2 * x = v.width) ∧
      (v.FillsHeight ∨ y ≤ 0 ∨ v.height ≤ y ∨ 2 * y = v.height) := by
  obtain ⟨⟨visible, within, fills⟩, visible', within', fills'⟩ := v.scale_facts
  rw [Aims, normalizeCursor_fin, Prod.mk.injEq, Ext.fin.injEq, Ext.fin.injEq,
    share_eq_iff visible within width_pos, share_eq_iff visible' within' height_pos, fills, fills']

/-- A quarter of the picture is not a quarter of the window, unless the picture has no bars. -/
theorem fills_of_quarter {scale : ℚ} {size : Nat} (visible : 0 < scale) (within : scale ≤ 1)
    (some_ : 0 < size) (h : scale = 1 ∨ drawnAt scale size (1 / 4) ≤ 0 ∨
      size ≤ drawnAt scale size (1 / 4) ∨ 2 * drawnAt scale size (1 / 4) = size) : scale = 1 := by
  have positive : (0 : ℚ) < size := by exact_mod_cast some_
  have place : drawnAt scale size (1 / 4) = (2 - scale) / 4 * size := by
    rw [drawnAt]
    ring
  rw [place] at h
  rcases h with same | before | behind | middle
  · exact same
  · have : 0 < (2 - scale) / 4 * size := mul_pos (by linarith) positive
    linarith
  · have : (2 - scale) / 4 * size < 1 * size := mul_lt_mul_of_pos_right (by linarith) positive
    linarith
  · have : (2 - scale) / 4 * size < 1 / 2 * size :=
      mul_lt_mul_of_pos_right (by linarith) positive
    linarith

/-- A cursor is sent as its share of the picture exactly if, along each axis, the picture has no
bars or the cursor is in the middle or outside of the window; and so are all cursors over the
picture exactly if window and frame have one aspect ratio. -/
theorem cursor_aims_iff (v : VideoView) :
    (∀ x y, v.Aims x y ↔
      (v.width * v.imgHeight ≤ v.imgWidth * v.height ∨ x ≤ 0 ∨ v.width ≤ x ∨ 2 * x = v.width) ∧
        (v.imgWidth * v.height ≤ v.width * v.imgHeight ∨ y ≤ 0 ∨ v.height ≤ y ∨
          2 * y = v.height)) ∧
    ((∀ x y, v.Over x y → v.Aims x y) ↔ v.width * v.imgHeight = v.imgWidth * v.height) := by
  refine ⟨v.aims_iff, ?_, ?_⟩
  · intro all
    obtain ⟨⟨visible, within, fills⟩, visible', within', fills'⟩ := v.scale_facts
    have quarter : (0 : ℚ) ≤ 1 / 4 ∧ (1 / 4 : ℚ) ≤ 1 := by norm_num
    have here := all _ _ ⟨⟨1 / 4, quarter.1, quarter.2, rfl⟩, 1 / 4, quarter.1, quarter.2, rfl⟩
    rw [aims_iff, ← fills, ← fills'] at here
    have wide := fills.mp (fills_of_quarter visible within width_pos here.1)
    have high := fills'.mp (fills_of_quarter visible' within' height_pos here.2)
    exact Nat.le_antisymm wide high
  · intro same x y _
    exact (v.aims_iff x y).mpr ⟨.inl same.le, .inl same.ge⟩

/-- A square picture in a window twice as wide: its left edge is sent as a quarter. -/
theorem left_edge_off : ∃ v : VideoView, v.Over 50 50 ∧ ¬ v.Aims 50 50 ∧
    ViewerApp.normalizeCursor v.innerWidth v.innerHeight (.fin 50) (.fin 50) =
      (.fin (1 / 4), .fin (1 / 2)) ∧ shareAt v.scale.1 v.width 50 = 0 := by
  refine ⟨⟨200, 100, 64, 64⟩, ⟨⟨0, ?_⟩, 1 / 2, ?_⟩, ?_, ?_, ?_⟩ <;> decide +kernel

end VideoView
end ReachMyDevice
