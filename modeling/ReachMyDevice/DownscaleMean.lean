import Mathlib.Data.List.GetD
import ReachMyDevice.Downscale
import ReachMyDevice.Lib.Pieces

/-!
# The mean of the pixels that fall together

Both loops add entries, of a place and a value. What the places end with are sums
over the source pixels of a cell.
-/
namespace ReachMyDevice
namespace X11Capture
open Rescale Tally Pieces

/-- A picture in a buffer, its rows at a stride. -/
@[ext] structure Image where
  width : UInt16
  height : UInt16
  stride : Nat
  data : Bytes
  wide : width.toNat * 4 ≤ stride
  whole : stride * height.toNat ≤ data.length

namespace Image

def channel (im : Image) (x y k : Nat) : Nat := (im.data.getD (y * im.stride + x * 4 + k) 0).toNat

/-- The source pixels of a destination pixel. -/
def block (im : Image) (dst : UInt16 × UInt16) (dx dy : Nat) : Finset (Nat × Nat) :=
  fiber im.width.toNat dst.1.toNat dx ×ˢ fiber im.height.toNat dst.2.toNat dy

def channelSum (im : Image) (dst : UInt16 × UInt16) (dx dy k : Nat) : Nat :=
  ∑ p ∈ im.block dst dx dy, im.channel p.1 p.2 k

def target (im : Image) (capW capH : UInt32) : UInt16 × UInt16 :=
  fitWithin im.width im.height capW capH

def downscaled (im : Image) (dst : UInt16 × UInt16) : Option Bytes :=
  downscaleBgra im.data im.width.toNat im.height.toNat im.stride dst.1.toNat dst.2.toNat

/-- What is asked of the picture at its target size. -/
structure Averaged (im : Image) (dst : UInt16 × UInt16) : Prop where
  covered : ∀ dx < dst.1.toNat, ∀ dy < dst.2.toNat, (im.block dst dx dy).Nonempty
  once : ∀ x < im.width.toNat, ∀ y < im.height.toNat,
    ∃! d : Nat × Nat, d.1 < dst.1.toNat ∧ d.2 < dst.2.toNat ∧ (x, y) ∈ im.block dst d.1 d.2
  mean : ∃ out, im.downscaled dst = some out ∧ out.length = dst.1.toNat * dst.2.toNat * 4 ∧
    ∀ dx < dst.1.toNat, ∀ dy < dst.2.toNat, ∀ k < 4,
      out[(dy * dst.1.toNat + dx) * 4 + k]?.map UInt8.toNat =
        some (im.channelSum dst dx dy k / (im.block dst dx dy).card)

/-- No channel of the source pixels of a cell adds up to more than 32 bits hold. -/
def Light (im : Image) (dst : UInt16 × UInt16) : Prop :=
  ∀ dx < dst.1.toNat, ∀ dy < dst.2.toNat, ∀ k < 4, im.channelSum dst dx dy k < 2 ^ 32

end Image

/-! ## The loops -/

theorem slice_eq {l : Bytes} {start n : Nat} (inside : start + n ≤ l.length) :
    slice l start (start + n) = some ((List.range n).map fun k => l.getD (start + k) 0) := by
  rw [slice, if_pos ⟨Nat.le_add_right _ _, inside⟩, List.drop_take, Nat.add_sub_cancel_left]
  congr 1
  refine List.ext_getElem ?_ fun k here there => ?_
  · rw [List.length_take, List.length_drop, List.length_map, List.length_range]
    omega
  · rw [List.getElem_take, List.getElem_drop, List.getElem_map, List.getElem_range,
      List.getD_eq_getElem]

namespace Sums

def add (t : Sums) (acc cnt : List (Nat × Nat)) : Option Sums :=
  (addAll (2 ^ 32) t.acc acc).bind fun acc => (addAll (2 ^ 32) t.cnt cnt).map fun cnt => ⟨acc, cnt⟩

theorem add_add (t : Sums) (acc cnt acc' cnt' : List (Nat × Nat)) :
    (t.add acc cnt).bind (fun t => t.add acc' cnt') = t.add (acc ++ acc') (cnt ++ cnt') := by
  rw [add, add, addAll_append, addAll_append]
  cases addAll (2 ^ 32) t.acc acc with
  | none => rfl
  | some a =>
      cases addAll (2 ^ 32) t.cnt cnt with
      | none => simp
      | some c => rfl

/-- A loop whose passes add entries adds them all. -/
theorem foldlM_add {α : Type} {pass : Sums → α → Option Sums} {acc cnt : α → List (Nat × Nat)}
    {l : List α} (each : ∀ a ∈ l, ∀ t, pass t a = t.add (acc a) (cnt a)) (t : Sums) :
    l.foldlM pass t = t.add (l.flatMap acc) (l.flatMap cnt) := by
  induction l generalizing t with
  | nil => rfl
  | cons a l ih =>
      rw [List.foldlM_cons, each a List.mem_cons_self, List.flatMap_cons, List.flatMap_cons,
        ← add_add]
      congr 1
      funext t
      exact ih (fun b member => each b (List.mem_cons_of_mem a member)) t

theorem addPixel_eq (t : Sums) (di : Nat) (v : Nat → UInt8) :
    t.addPixel di ((List.range 4).map v) =
      t.add ((List.range 4).map fun k => (di * 4 + k, (v k).toNat)) [(di, 1)] := by
  change (addAll (2 ^ 32) t.acc _).bind _ = (addAll (2 ^ 32) t.acc _).bind _
  congr 1
  funext acc
  cases addAll (2 ^ 32) t.cnt [(di, 1)] <;> rfl

end Sums

namespace Image

variable (im : Image) (dst : UInt16 × UInt16)

def place (x y : Nat) : Nat :=
  cell im.height.toNat dst.2.toNat y * dst.1.toNat + cell im.width.toNat dst.1.toNat x

def accRow (y : Nat) : List (Nat × Nat) :=
  (List.range im.width.toNat).flatMap fun x =>
    (List.range 4).map fun k => (im.place dst x y * 4 + k, im.channel x y k)

def cntRow (y : Nat) : List (Nat × Nat) :=
  (List.range im.width.toNat).flatMap fun x => [(im.place dst x y, 1)]

def accEntries : List (Nat × Nat) := (List.range im.height.toNat).flatMap (im.accRow dst)

def cntEntries : List (Nat × Nat) := (List.range im.height.toNat).flatMap (im.cntRow dst)

/-- The rows are within the buffer. -/
theorem row_within {y : Nat} (inside : y < im.height.toNat) :
    y * im.stride + im.width.toNat * 4 ≤ im.data.length := by
  calc y * im.stride + im.width.toNat * 4
      ≤ y * im.stride + im.stride := Nat.add_le_add_left im.wide _
    _ = (y + 1) * im.stride := (Nat.succ_mul _ _).symm
    _ ≤ im.height.toNat * im.stride := Nat.mul_le_mul_right _ inside
    _ = im.stride * im.height.toNat := Nat.mul_comm _ _
    _ ≤ im.data.length := im.whole

theorem addRow_eq (y : Nat) (t : Sums) :
    t.addRow im.width.toNat dst.1.toNat (cell im.height.toNat dst.2.toNat y)
      ((List.range (im.width.toNat * 4)).map fun j => im.data.getD (y * im.stride + j) 0) =
        t.add (im.accRow dst y) (im.cntRow dst y) := by
  refine Sums.foldlM_add (fun x member t => ?_) t
  have inside := List.mem_range.mp member
  have pixel : slice ((List.range (im.width.toNat * 4)).map fun j =>
      im.data.getD (y * im.stride + j) 0) (x * 4) (x * 4 + 4) =
        some ((List.range 4).map fun k => im.data.getD (y * im.stride + x * 4 + k) 0) := by
    rw [slice_eq (by rw [List.length_map, List.length_range]; omega)]
    congr 1
    refine List.map_congr_left fun k channel => ?_
    have few := List.mem_range.mp channel
    rw [List.getD_eq_getElem _ _ (by rw [List.length_map, List.length_range]; omega),
      List.getElem_map, List.getElem_range, Nat.add_assoc]
  change (slice _ _ _).bind _ = _
  rw [pixel]
  exact Sums.addPixel_eq t (im.place dst x y) fun k => im.data.getD (y * im.stride + x * 4 + k) 0

/-- Both loops, as the entries that they add. -/
theorem addRows_eq (t : Sums) :
    t.addRows im.data im.width.toNat im.height.toNat im.stride dst.1.toNat dst.2.toNat =
      t.add (im.accEntries dst) (im.cntEntries dst) := by
  refine Sums.foldlM_add (fun y member t => ?_) t
  change (slice _ _ _).bind _ = _
  rw [slice_eq (im.row_within (List.mem_range.mp member))]
  exact im.addRow_eq dst y t

/-! ## The totals -/

variable {im dst}

theorem place_eq_iff {x y dx dy : Nat} (across : dx < dst.1.toNat)
    (inside : cell im.width.toNat dst.1.toNat x < dst.1.toNat) :
    im.place dst x y = dy * dst.1.toNat + dx ↔
      cell im.width.toNat dst.1.toNat x = dx ∧ cell im.height.toNat dst.2.toNat y = dy := by
  rw [place]
  constructor
  · intro same
    have column := congrArg (· % dst.1.toNat) same
    have row := congrArg (· / dst.1.toNat) same
    have some := Nat.zero_lt_of_lt across
    simp only [Nat.mul_comm _ dst.1.toNat, Nat.mul_add_mod, Nat.mod_eq_of_lt inside,
      Nat.mod_eq_of_lt across] at column
    simp only [Nat.mul_comm _ dst.1.toNat, Nat.mul_add_div some, Nat.div_eq_of_lt inside,
      Nat.div_eq_of_lt across, Nat.add_zero] at row
    exact ⟨column, row⟩
  · rintro ⟨rfl, rfl⟩
    rfl

theorem sum_range (n : Nat) (f : Nat → Nat) :
    ((List.range n).map f).sum = ∑ i ∈ Finset.range n, f i := by
  rw [Finset.sum, Finset.range_val, Multiset.range, Multiset.map_coe, Multiset.sum_coe]

/-- What the pixels of a cell add, of what each one adds. -/
theorem sum_block (f : Nat → Nat → Nat) (dx dy : Nat) :
    (∑ y ∈ Finset.range im.height.toNat, ∑ x ∈ Finset.range im.width.toNat,
      if cell im.width.toNat dst.1.toNat x = dx ∧ cell im.height.toNat dst.2.toNat y = dy
        then f x y else 0) = ∑ p ∈ im.block dst dx dy, f p.1 p.2 := by
  rw [block, Finset.sum_product_right, fiber, fiber, Finset.sum_filter]
  refine Finset.sum_congr rfl fun y _ => ?_
  rw [Finset.sum_filter]
  split_ifs with row
  · simp [row]
  · simp [row]

theorem total_pixel {p q k : Nat} (v : Nat → Nat) (few : k < 4) :
    total ((List.range 4).map fun j => (p * 4 + j, v j)) (q * 4 + k) =
      if p = q then v k else 0 := by
  rw [total, List.map_map, sum_range, Finset.sum_eq_single k]
  · exact if_congr (by simp only; omega) rfl rfl
  · intro j member other
    have within := Finset.mem_range.mp member
    exact if_neg (by simp only; omega)
  · exact fun outside => absurd (Finset.mem_range.mpr few) outside

theorem total_acc {dx dy k : Nat} (across : dx < dst.1.toNat) (few : k < 4) :
    total (im.accEntries dst) ((dy * dst.1.toNat + dx) * 4 + k) = im.channelSum dst dx dy k := by
  rw [accEntries, total_flatMap, sum_range, channelSum, ← sum_block fun x y => im.channel x y k]
  refine Finset.sum_congr rfl fun y _ => ?_
  rw [accRow, total_flatMap, sum_range]
  refine Finset.sum_congr rfl fun x member => ?_
  have inside := cell_lt (Finset.mem_range.mp member) (Nat.zero_lt_of_lt across)
  rw [total_pixel _ few]
  exact if_congr (place_eq_iff across inside) rfl rfl

theorem total_cnt {dx dy : Nat} (across : dx < dst.1.toNat) :
    total (im.cntEntries dst) (dy * dst.1.toNat + dx) = (im.block dst dx dy).card := by
  rw [cntEntries, total_flatMap, sum_range, Finset.card_eq_sum_ones, ← sum_block fun _ _ => 1]
  refine Finset.sum_congr rfl fun y _ => ?_
  rw [cntRow, total_flatMap, sum_range]
  refine Finset.sum_congr rfl fun x member => ?_
  have inside := cell_lt (Finset.mem_range.mp member) (Nat.zero_lt_of_lt across)
  rw [total_cons]
  exact if_congr (place_eq_iff across inside) rfl rfl

end Image

/-! ## What is returned -/

namespace Sums

variable {t : Sums}

/-- The bytes of a pixel, where all its sums are there. -/
def averages (t : Sums) (i count : Nat) : Bytes :=
  (List.range 4).map fun k => UInt8.ofNat (t.acc.getD (i * 4 + k) 0 / max count 1)

theorem pixel_eq {i : Nat} (count : Nat) (room : i * 4 + 4 ≤ t.acc.length) :
    t.pixel i count = some (t.averages i count) := by
  refine mapM_of_forall (l := List.range 4) fun k member => ?_
  have few := List.mem_range.mp member
  have there : i * 4 + k < t.acc.length := by omega
  rw [List.getElem?_eq_getElem there, List.getD_eq_getElem _ _ there]
  rfl

theorem pixels_eq (room : t.acc.length = t.cnt.length * 4) :
    t.pixels = some (t.cnt.zipIdx.map fun e => t.averages e.2 e.1).flatten := by
  have each : ∀ e ∈ t.cnt.zipIdx, t.pixel e.2 e.1 = some (t.averages e.2 e.1) := by
    intro e member
    have there := List.snd_lt_of_mem_zipIdx member
    exact pixel_eq e.1 (by omega)
  rw [pixels, mapM_of_forall each]
  rfl

theorem length_averages {pieces : List (Nat × Nat)} :
    ∀ s ∈ pieces.map fun e => t.averages e.2 e.1, s.length = 4 := by
  rintro s member
  obtain ⟨e, -, rfl⟩ := List.mem_map.mp member
  rfl

/-- The pixels, from the sums and the counts. -/
theorem pixels_spec (room : t.acc.length = t.cnt.length * 4) : ∃ out, t.pixels = some out ∧
    out.length = t.acc.length ∧ ∀ i k n count, k < 4 → t.acc[i * 4 + k]? = some n →
      t.cnt[i]? = some count → out[i * 4 + k]? = some (UInt8.ofNat (n / max count 1)) := by
  refine ⟨_, pixels_eq room, ?_, fun i k n count few sum found => ?_⟩
  · rw [length_flatten length_averages, List.length_map, List.length_zipIdx, room]
  · rw [getElem?_flatten length_averages few, List.getElem?_map, List.getElem?_zipIdx, found]
    simp [averages, few, sum, List.getD_eq_getElem?_getD]

end Sums

namespace Image

variable {im : Image} {dst : UInt16 × UInt16} {capW capH : UInt32}

theorem exists_place {i : Nat} (inside : i < dst.1.toNat * dst.2.toNat) :
    ∃ dx < dst.1.toNat, ∃ dy < dst.2.toNat, i = dy * dst.1.toNat + dx := by
  have some : 0 < dst.1.toNat := Nat.pos_of_mul_pos_right (Nat.zero_lt_of_lt inside)
  refine ⟨i % dst.1.toNat, Nat.mod_lt _ some, i / dst.1.toNat, Nat.div_lt_of_lt_mul inside, ?_⟩
  rw [Nat.mul_comm, Nat.div_add_mod]

theorem place_inside {dx dy : Nat} (across : dx < dst.1.toNat) (down : dy < dst.2.toNat) :
    dy * dst.1.toNat + dx < dst.1.toNat * dst.2.toNat := by
  have row : (dy + 1) * dst.1.toNat ≤ dst.2.toNat * dst.1.toNat := Nat.mul_le_mul_right _ down
  rw [Nat.succ_mul, Nat.mul_comm dst.2.toNat] at row
  omega

theorem place_lt (fits : Fits im.width im.height capW capH dst) {x y : Nat}
    (wide : x < im.width.toNat) (high : y < im.height.toNat) :
    im.place dst x y < dst.1.toNat * dst.2.toNat := by
  obtain ⟨across, down⟩ := fits.size (Nat.one_le_of_lt wide) (Nat.one_le_of_lt high)
  exact place_inside (cell_lt wide across) (cell_lt high down)

theorem covered (fits : Fits im.width im.height capW capH dst) {dx dy : Nat}
    (across : dx < dst.1.toNat) (down : dy < dst.2.toNat) : (im.block dst dx dy).Nonempty :=
  (fiber_nonempty across fits.source.1).product (fiber_nonempty down fits.source.2)

theorem mem_block {x y dx dy : Nat} : (x, y) ∈ im.block dst dx dy ↔
    (x < im.width.toNat ∧ cell im.width.toNat dst.1.toNat x = dx) ∧
      y < im.height.toNat ∧ cell im.height.toNat dst.2.toNat y = dy := by
  rw [block, Finset.mem_product, mem_fiber, mem_fiber]

theorem once (fits : Fits im.width im.height capW capH dst) {x y : Nat}
    (wide : x < im.width.toNat) (high : y < im.height.toNat) : ∃! d : Nat × Nat,
      d.1 < dst.1.toNat ∧ d.2 < dst.2.toNat ∧ (x, y) ∈ im.block dst d.1 d.2 := by
  obtain ⟨across, down⟩ := fits.size (Nat.one_le_of_lt wide) (Nat.one_le_of_lt high)
  refine ⟨(_, _), ⟨cell_lt wide across, cell_lt high down,
    mem_block.mpr ⟨⟨wide, rfl⟩, high, rfl⟩⟩, ?_⟩
  rintro ⟨dx, dy⟩ ⟨-, -, here⟩
  obtain ⟨⟨-, rfl⟩, -, rfl⟩ := mem_block.mp here
  rfl

theorem channel_le (x y k : Nat) : im.channel x y k ≤ 255 :=
  Nat.le_of_lt_succ (UInt8.toNat_lt _)

theorem channelSum_le (dx dy k : Nat) :
    im.channelSum dst dx dy k ≤ (im.block dst dx dy).card * 255 :=
  Finset.sum_le_card_nsmul _ _ _ fun _ _ => im.channel_le _ _ _

/-- A cell has no more pixels than the picture. -/
theorem card_block_lt (dx dy : Nat) : (im.block dst dx dy).card < 2 ^ 32 := by
  have wide : (fiber im.width.toNat dst.1.toNat dx).card ≤ 65535 := by
    refine (Finset.card_filter_le _ _).trans ?_
    rw [Finset.card_range]
    exact Nat.le_of_lt_succ im.width.toNat_lt
  have high : (fiber im.height.toNat dst.2.toNat dy).card ≤ 65535 := by
    refine (Finset.card_filter_le _ _).trans ?_
    rw [Finset.card_range]
    exact Nat.le_of_lt_succ im.height.toNat_lt
  rw [block, Finset.card_product]
  exact (Nat.mul_le_mul wide high).trans_lt (by norm_num)

/-- No count gets too large. -/
theorem cnt_goes (fits : Fits im.width im.height capW capH dst) :
    (addAll (2 ^ 32) (List.replicate (dst.1.toNat * dst.2.toNat) 0)
      (im.cntEntries dst)).isSome := by
  refine (addAll_zeros_isSome_iff (by norm_num)).mpr ⟨?_, fun i inside => ?_⟩
  · intro e member
    obtain ⟨y, high, member⟩ := List.mem_flatMap.mp member
    obtain ⟨x, wide, member⟩ := List.mem_flatMap.mp member
    rw [List.mem_singleton.mp member]
    exact place_lt fits (List.mem_range.mp wide) (List.mem_range.mp high)
  · obtain ⟨dx, across, dy, -, rfl⟩ := exists_place inside
    rw [total_cnt across]
    exact im.card_block_lt dx dy

/-- The sums go through exactly for a light picture. -/
theorem acc_goes_iff (fits : Fits im.width im.height capW capH dst) :
    (addAll (2 ^ 32) (List.replicate (dst.1.toNat * dst.2.toNat * 4) 0)
      (im.accEntries dst)).isSome ↔ im.Light dst := by
  rw [addAll_zeros_isSome_iff (by norm_num), and_iff_right ?_]
  · constructor
    · intro below dx across dy down k few
      have inside := place_inside across down
      rw [← total_acc across few]
      exact below _ (by omega)
    · intro light i inside
      have pixel : i / 4 < dst.1.toNat * dst.2.toNat :=
        Nat.div_lt_of_lt_mul (by rwa [Nat.mul_comm])
      obtain ⟨dx, across, dy, down, place⟩ := exists_place pixel
      have split : i = (dy * dst.1.toNat + dx) * 4 + i % 4 := by omega
      have few : i % 4 < 4 := Nat.mod_lt _ (by norm_num)
      rw [split, total_acc across few]
      exact light dx across dy down _ few
  · intro e member
    obtain ⟨y, high, member⟩ := List.mem_flatMap.mp member
    obtain ⟨x, wide, member⟩ := List.mem_flatMap.mp member
    obtain ⟨k, few, rfl⟩ := List.mem_map.mp member
    have inside := place_lt fits (List.mem_range.mp wide) (List.mem_range.mp high)
    have few := List.mem_range.mp few
    omega

theorem downscaled_eq : im.downscaled dst = ((addAll (2 ^ 32)
    (List.replicate (dst.1.toNat * dst.2.toNat * 4) 0) (im.accEntries dst)).bind fun acc =>
      (addAll (2 ^ 32) (List.replicate (dst.1.toNat * dst.2.toNat) 0) (im.cntEntries dst)).map
        fun cnt => ⟨acc, cnt⟩).bind Sums.pixels := by
  rw [downscaled, downscaleBgra, addRows_eq]
  rfl

/-- A light picture comes out averaged. -/
theorem mean_of_light (fits : Fits im.width im.height capW capH dst) (light : im.Light dst) :
    ∃ out, im.downscaled dst = some out ∧ out.length = dst.1.toNat * dst.2.toNat * 4 ∧
      ∀ dx < dst.1.toNat, ∀ dy < dst.2.toNat, ∀ k < 4,
        out[(dy * dst.1.toNat + dx) * 4 + k]?.map UInt8.toNat =
          some (im.channelSum dst dx dy k / (im.block dst dx dy).card) := by
  obtain ⟨acc, sums⟩ := Option.isSome_iff_exists.mp ((acc_goes_iff fits).mpr light)
  obtain ⟨cnt, counts⟩ := Option.isSome_iff_exists.mp (cnt_goes fits)
  have sumsLength : acc.length = dst.1.toNat * dst.2.toNat * 4 := by
    rw [length_addAll sums, List.length_replicate]
  have countsLength : cnt.length = dst.1.toNat * dst.2.toNat := by
    rw [length_addAll counts, List.length_replicate]
  obtain ⟨out, written, length, each⟩ := Sums.pixels_spec (t := ⟨acc, cnt⟩)
    (by rw [sumsLength, countsLength])
  refine ⟨out, ?_, length.trans sumsLength, fun dx across dy down k few => ?_⟩
  · rw [downscaled_eq, sums, counts]
    exact written
  · have inside := place_inside across down
    have sum := addAll_zeros_some sums
      (by omega : (dy * dst.1.toNat + dx) * 4 + k < dst.1.toNat * dst.2.toNat * 4)
    have count := addAll_zeros_some counts inside
    rw [total_acc across few] at sum
    rw [total_cnt across] at count
    have pixels : 0 < (im.block dst dx dy).card := (covered fits across down).card_pos
    have small : im.channelSum dst dx dy k / (im.block dst dx dy).card ≤ 255 :=
      Nat.div_le_of_le_mul (channelSum_le dx dy k)
    rw [each _ k _ _ few sum count, Nat.max_eq_left pixels, Option.map_some,
      UInt8.toNat_ofNat_of_lt' (Nat.lt_succ_of_le small)]

theorem isSome_downscaled_iff (fits : Fits im.width im.height capW capH dst) :
    (im.downscaled dst).isSome ↔ im.Light dst := by
  constructor
  · intro goes
    obtain ⟨out, returned⟩ := Option.isSome_iff_exists.mp goes
    rw [downscaled_eq] at returned
    obtain ⟨t, summed, -⟩ := Option.bind_eq_some_iff.mp returned
    obtain ⟨acc, sums, -⟩ := Option.bind_eq_some_iff.mp summed
    exact (acc_goes_iff fits).mp (Option.isSome_of_eq_some sums)
  · intro light
    obtain ⟨out, returned, -⟩ := mean_of_light fits light
    exact Option.isSome_of_eq_some returned

theorem averaged_iff (fits : Fits im.width im.height capW capH dst) :
    im.Averaged dst ↔ im.Light dst := by
  constructor
  · rintro ⟨-, -, out, returned, -⟩
    exact (isSome_downscaled_iff fits).mp (Option.isSome_of_eq_some returned)
  · exact fun light => ⟨fun dx across dy down => covered fits across down,
      fun x wide y high => once fits wide high, mean_of_light fits light⟩

/-- What the capture loop scales is a picture, so that only a heavy cell ends it. -/
theorem frame_eq_none_iff {width height : UInt16} {data : Bytes} {ts : Nat} :
    frame width height capW capH data ts = none ↔
      ∃ im : Image, im.width = width ∧ im.height = height ∧ im.data = data ∧
        im.stride = data.length / height.toNat ∧ im.target capW capH ≠ (width, height) ∧
        ¬im.Light (im.target capW capH) := by
  have rows : (if 0 < height.toNat then data.length / height.toNat else 0) =
      data.length / height.toNat := by
    split_ifs with some
    · rfl
    · rw [Nat.eq_zero_of_not_pos some, Nat.div_zero]
  unfold frame
  simp only [rows]
  split_ifs with guard
  · obtain ⟨resized, wide, whole⟩ := guard
    let im : Image := ⟨width, height, _, data, wide, whole⟩
    have fits : Fits im.width im.height capW capH (im.target capW capH) := fitWithin_fits ..
    rw [Option.map_eq_none_iff, ← Option.not_isSome_iff_eq_none]
    change ¬(im.downscaled (im.target capW capH)).isSome = true ↔ _
    rw [isSome_downscaled_iff fits]
    constructor
    · exact fun heavy => ⟨im, rfl, rfl, rfl, rfl, resized, heavy⟩
    · rintro ⟨other, rfl, rfl, rfl, stride, -, heavy⟩
      have same : im = other := Image.ext rfl rfl stride.symm rfl
      rwa [same]
  · refine iff_of_false (by rintro ⟨⟩) ?_
    rintro ⟨im, rfl, rfl, rfl, stride, resized, -⟩
    exact guard ⟨resized, stride ▸ im.wide, stride ▸ im.whole⟩

/-! ## The heaviest picture -/

def white (width height : UInt16) : Image where
  width := width
  height := height
  stride := width.toNat * 4
  data := List.replicate (width.toNat * 4 * height.toNat) 255
  wide := Nat.le_refl _
  whole := by rw [List.length_replicate]

theorem channel_white {width height : UInt16} {x y k : Nat} (wide : x < width.toNat)
    (high : y < height.toNat) (few : k < 4) : (white width height).channel x y k = 255 := by
  have rows : (y + 1) * (width.toNat * 4) ≤ height.toNat * (width.toNat * 4) :=
    Nat.mul_le_mul_right _ high
  rw [Nat.succ_mul, Nat.mul_comm height.toNat] at rows
  have inside : y * (width.toNat * 4) + x * 4 + k < width.toNat * 4 * height.toNat := by omega
  change UInt8.toNat (List.getD (List.replicate _ 255) (y * (width.toNat * 4) + x * 4 + k) 0) = 255
  rw [List.getD_eq_getElem _ _ (by rw [List.length_replicate]; exact inside),
    List.getElem_replicate]
  rfl

/-- The cell at the corner is the largest, and of the white picture it has the largest sum. -/
theorem channelSum_white {width height : UInt16} {dst : UInt16 × UInt16} (across : 0 < dst.1.toNat)
    (down : 0 < dst.2.toNat) : (white width height).channelSum dst 0 0 0 =
      width.toNat ⌈/⌉ dst.1.toNat * (height.toNat ⌈/⌉ dst.2.toNat) * 255 := by
  have each : ∀ p ∈ (white width height).block dst 0 0,
      (white width height).channel p.1 p.2 0 = 255 := by
    rintro ⟨x, y⟩ here
    obtain ⟨⟨wide, -⟩, high, -⟩ := mem_block.mp here
    exact channel_white wide high (by norm_num)
  rw [channelSum, Finset.sum_const_nat each, block, Finset.card_product, card_fiber_zero across,
    card_fiber_zero down]
  rfl

theorem card_block_le {dx dy : Nat} (across : dx < dst.1.toNat) (down : dy < dst.2.toNat) :
    (im.block dst dx dy).card ≤
      im.width.toNat ⌈/⌉ dst.1.toNat * (im.height.toNat ⌈/⌉ dst.2.toNat) := by
  rw [block, Finset.card_product]
  exact Nat.mul_le_mul (card_fiber_le across) (card_fiber_le down)

/-- All pictures of a size are light exactly if the white one is. -/
theorem all_light_iff :
    (∀ other : Image, other.width = im.width → other.height = im.height → other.Light dst) ↔
      im.width.toNat ⌈/⌉ dst.1.toNat * (im.height.toNat ⌈/⌉ dst.2.toNat) * 255 < 2 ^ 32 := by
  constructor
  · intro light
    obtain none | across := Nat.eq_zero_or_pos dst.1.toNat
    · rw [none, ceilDiv_zero]
      norm_num
    obtain none | down := Nat.eq_zero_or_pos dst.2.toNat
    · rw [none, ceilDiv_zero]
      norm_num
    · rw [← channelSum_white across down]
      exact light (white im.width im.height) rfl rfl 0 across 0 down 0 (by norm_num)
  · intro below other width height dx across dy down k few
    refine (channelSum_le dx dy k).trans_lt (lt_of_le_of_lt ?_ below)
    rw [← width, ← height]
    exact Nat.mul_le_mul_right _ (card_block_le across down)

/-- The target fits. The picture is averaged exactly if no cell is too heavy, which the sizes alone
rule out exactly if they do for the largest cell and white. -/
theorem downscaled_iff (im : Image) (capW capH : UInt32) :
    Fits im.width im.height capW capH (im.target capW capH) ∧
      (im.Averaged (im.target capW capH) ↔ im.Light (im.target capW capH)) ∧
      ((∀ other : Image, other.width = im.width → other.height = im.height →
          other.Averaged (im.target capW capH)) ↔
        im.width.toNat ⌈/⌉ (im.target capW capH).1.toNat *
          (im.height.toNat ⌈/⌉ (im.target capW capH).2.toNat) * 255 < 2 ^ 32) := by
  have fits : Fits im.width im.height capW capH (im.target capW capH) := fitWithin_fits ..
  refine ⟨fits, averaged_iff fits, ?_⟩
  rw [← all_light_iff]
  refine forall_congr' fun other => forall_congr' fun width => forall_congr' fun height => ?_
  exact averaged_iff (by rw [width, height]; exact fits)

theorem target_one {im : Image} (some : 1 ≤ im.width.toNat ∧ 1 ≤ im.height.toNat) :
    (im.target 1 1).1.toNat = 1 ∧ (im.target 1 1).2.toNat = 1 := by
  have fits := fitWithin_fits im.width im.height 1 1
  obtain ⟨across, down⟩ := fits.size some.1 some.2
  obtain ⟨narrow, low⟩ := fits.capped some.1 some.2 (by decide) (by decide)
  exact ⟨Nat.le_antisymm narrow across, Nat.le_antisymm low down⟩

/-- A white screen of 4105 by 4105, capped to a single pixel. -/
theorem white_not_averaged : ¬(white 4105 4105).Averaged ((white 4105 4105).target 1 1) := by
  have fits : Fits 4105 4105 1 1 ((white 4105 4105).target 1 1) := fitWithin_fits ..
  have sizes : ((white 4105 4105).target 1 1).1.toNat = 1 ∧
      ((white 4105 4105).target 1 1).2.toNat = 1 := target_one ⟨by decide, by decide⟩
  rw [averaged_iff fits]
  intro light
  have sum := light 0 (by omega) 0 (by omega) 0 (by norm_num)
  rw [channelSum_white (by omega) (by omega), sizes.1, sizes.2] at sum
  exact absurd sum (by decide)

end Image

end X11Capture
end ReachMyDevice
