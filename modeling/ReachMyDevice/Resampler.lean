import Mathlib.Algebra.Order.Floor.Ring
import Mathlib.Algebra.Order.Floor.Semiring
import Mathlib.Data.PNat.Basic
import Mathlib.Data.Rat.Floor
import Mathlib.Tactic.Linarith
import Mathlib.Tactic.FieldSimp
import Mathlib.Tactic.Positivity

/-!
# The linear resampler

The read position is carried from buffer to buffer. A position in the last
sample of a buffer is read without the first of the next. Positions are exact
rationals here, and the rates of a device are positive.
-/
namespace ReachMyDevice

/-- `f64::round`: halves away from zero. -/
def roundAway (q : ℚ) : ℤ := if 0 ≤ q then ⌊q + 1 / 2⌋ else ⌈q - 1 / 2⌉

/-- `s.round().clamp(-32768.0, 32767.0) as i16` -/
def toSample (s : ℚ) : Int16 := Int16.ofInt (max (-32768) (min 32767 (roundAway s)))

def interpolate (a b : Int16) (frac : ℚ) : Int16 :=
  toSample (a.toInt + (b.toInt - a.toInt) * frac)

structure LinearResampler where
  inRate : ℕ+
  outRate : ℕ+
  pos : ℚ
  prev : Int16
  primed : Bool

namespace LinearResampler

def new (inRate outRate : ℕ+) : LinearResampler where
  inRate := inRate
  outRate := outRate
  pos := 0
  prev := 0
  primed := false

def ratio (s : LinearResampler) : ℚ := (s.inRate : ℚ) / (s.outRate : ℚ)

/-- The sample of one turn of the loop. -/
def readAt (prev : Int16) (input : List Int16) (pos : ℚ) : Int16 :=
  let i := ⌊pos⌋
  let frac := pos - ⌊pos⌋
  let a := if i < 0 then prev else input.getD i.toNat 0
  let b := if i + 1 < input.length then input.getD (i + 1).toNat 0
    else input.getD (input.length - 1) 0
  interpolate a b frac

/-- The turns that the loop takes. -/
def turns (ratio : ℚ) (input : List Int16) (pos : ℚ) : Nat := ⌈(input.length - pos) / ratio⌉₊

/-- `while self.pos < input.len()`, with the turns left. -/
def loop (ratio : ℚ) (prev : Int16) (input : List Int16) : Nat → ℚ → List Int16 × ℚ
  | 0, pos => ([], pos)
  | n + 1, pos =>
    if pos < input.length then
      let (out, stop) := loop ratio prev input n (pos + ratio)
      (readAt prev input pos :: out, stop)
    else ([], pos)

def push (s : LinearResampler) (input : List Int16) : LinearResampler × List Int16 :=
  match input with
  | [] => (s, [])
  | first :: _ =>
    if s.inRate = s.outRate then (s, input)
    else
      let prev := if s.primed then s.prev else first
      let (out, pos) := loop s.ratio prev input (turns s.ratio input s.pos) s.pos
      ({ s with
          primed := true, pos := pos - input.length, prev := input.getD (input.length - 1) 0 }, out)

/-- The outputs of successive pushes. -/
def pushAll : LinearResampler → List (List Int16) → List Int16
  | _, [] => []
  | s, input :: rest =>
    let (s', out) := s.push input
    out ++ pushAll s' rest

end LinearResampler

/-! ## Rounding -/

/-- Rounding stays between integers. -/
theorem roundAway_mem {q : ℚ} {lo hi : ℤ} (above : (lo : ℚ) ≤ q) (below : q ≤ hi) :
    lo ≤ roundAway q ∧ roundAway q ≤ hi := by
  unfold roundAway
  split
  · constructor
    · apply Int.le_floor.mpr
      linarith
    · apply Int.lt_add_one_iff.mp
      apply Int.floor_lt.mpr
      push_cast
      linarith
  · constructor
    · apply Int.lt_add_one_iff.mp
      have near := Int.le_ceil (q - 1 / 2)
      have : ((lo : ℚ)) < ⌈q - 1 / 2⌉ + 1 := by linarith
      exact_mod_cast this
    · apply Int.ceil_le.mpr
      linarith

/-- An integer that is moved by less than a half, or by a half towards zero, rounds to itself. -/
theorem roundAway_eq_iff (a : ℤ) (δ : ℚ) :
    roundAway (a + δ) = a ↔ |δ| < 1 / 2 ∨ |δ| = 1 / 2 ∧ δ * a < 0 := by
  unfold roundAway
  split
  next upper =>
    rw [Int.floor_eq_iff]
    constructor
    · rintro ⟨above, below⟩
      rcases (show -(1 / 2) ≤ δ by linarith).lt_or_eq with inside | half
      · exact .inl (abs_lt.mpr ⟨inside, by linarith⟩)
      · have positive : (0 : ℚ) < a := by linarith
        refine .inr ⟨?_, ?_⟩
        · rw [← half]
          norm_num
        · rw [← half]
          linarith
    · rintro (inside | ⟨half, towards⟩)
      · obtain ⟨above, below⟩ := abs_lt.mp inside
        constructor <;> linarith
      · rcases abs_eq (by norm_num : (0 : ℚ) ≤ 1 / 2) |>.mp half with rfl | rfl
        · have negative : a < 0 := by exact_mod_cast (show (a : ℚ) < 0 by linarith)
          have whole : (a : ℚ) ≤ -1 := by exact_mod_cast Int.le_sub_one_of_lt negative
          linarith
        · constructor <;> linarith
  next lower =>
    rw [Int.ceil_eq_iff]
    constructor
    · rintro ⟨above, below⟩
      rcases (show δ ≤ 1 / 2 by linarith).lt_or_eq with inside | half
      · exact .inl (abs_lt.mpr ⟨by linarith, inside⟩)
      · have negative : (a : ℚ) < 0 := by linarith
        refine .inr ⟨?_, ?_⟩
        · rw [half]
          norm_num
        · rw [half]
          linarith
    · rintro (inside | ⟨half, towards⟩)
      · obtain ⟨above, below⟩ := abs_lt.mp inside
        constructor <;> linarith
      · rcases abs_eq (by norm_num : (0 : ℚ) ≤ 1 / 2) |>.mp half with rfl | rfl
        · constructor <;> linarith
        · have positive : 0 < a := by exact_mod_cast (show (0 : ℚ) < a by linarith)
          have whole : (1 : ℚ) ≤ a := by exact_mod_cast positive
          linarith

/-- On the way from `a` to `b`, the part `frac` of it moves by less than a half, or by a half
towards zero. -/
def Unmoved (a b : Int16) (frac : ℚ) : Prop :=
  let δ := ((b.toInt : ℚ) - a.toInt) * frac
  |δ| < 1 / 2 ∨ |δ| = 1 / 2 ∧ δ * a.toInt < 0

theorem interpolate_eq_iff {a b : Int16} {frac : ℚ} (first : 0 ≤ frac) (last : frac < 1) :
    interpolate a b frac = a ↔ Unmoved a b frac := by
  have aAbove := a.le_toInt
  have aBelow := a.toInt_lt
  have bAbove := b.le_toInt
  have bBelow := b.toInt_lt
  have range : -32768 ≤ roundAway (a.toInt + (b.toInt - a.toInt) * frac) ∧
      roundAway (a.toInt + (b.toInt - a.toInt) * frac) ≤ 32767 := by
    have aAbove' : (-32768 : ℚ) ≤ a.toInt := by exact_mod_cast aAbove
    have aBelow' : (a.toInt : ℚ) ≤ 32767 := by exact_mod_cast Int.lt_add_one_iff.mp aBelow
    have bAbove' : (-32768 : ℚ) ≤ b.toInt := by exact_mod_cast bAbove
    have bBelow' : (b.toInt : ℚ) ≤ 32767 := by exact_mod_cast Int.lt_add_one_iff.mp bBelow
    apply roundAway_mem <;> push_cast <;> nlinarith
  rw [interpolate, toSample, min_eq_right range.2, max_eq_right range.1, ← Int16.toInt_inj,
    Int16.toInt_ofInt_of_le range.1 (Int.lt_add_one_iff.mpr range.2), roundAway_eq_iff]
  rfl

namespace LinearResampler

/-! ## The positions that are read -/

/-- So many of the positions `k * ratio` lie before the sample `n`. -/
def count (ratio : ℚ) (n : Nat) : Nat := ⌈(n : ℚ) / ratio⌉₊

section
variable {ratio : ℚ} (positive : 0 < ratio)
include positive

theorem lt_count_iff {k n : Nat} : k < count ratio n ↔ k * ratio < n := by
  rw [count, Nat.lt_ceil, lt_div_iff₀ positive]

theorem count_le_iff {k n : Nat} : count ratio n ≤ k ↔ n ≤ k * ratio := by
  rw [← Nat.not_lt, lt_count_iff positive, not_lt]

theorem count_mono {m n : Nat} (h : m ≤ n) : count ratio m ≤ count ratio n := by
  rw [count_le_iff positive]
  exact (Nat.cast_le.mpr h).trans ((count_le_iff positive).mp le_rfl)

/-- The turns from the first position behind `d` samples on are those that lie in the buffer. -/
theorem turns_eq (input : List Int16) (d : Nat) :
    turns ratio input (count ratio d * ratio - d) =
      count ratio (d + input.length) - count ratio d := by
  have rest : (input.length - (count ratio d * ratio - d)) / ratio =
      ((d + input.length : Nat) : ℚ) / ratio - count ratio d := by
    push_cast
    field_simp [positive.ne']
    ring
  rw [turns, rest, Nat.ceil_sub_natCast]
  rfl

end

theorem ratio_pos (s : LinearResampler) : 0 < s.ratio :=
  div_pos (by exact_mod_cast s.inRate.pos) (by exact_mod_cast s.outRate.pos)

/-- As long as the condition of the loop holds it takes its turns. -/
theorem loop_eq (ratio : ℚ) (prev : Int16) (input : List Int16) (n : Nat) (pos : ℚ)
    (inside : ∀ j : Nat, j < n → pos + j * ratio < input.length) :
    loop ratio prev input n pos =
      ((List.range n).map fun j : Nat => readAt prev input (pos + j * ratio), pos + n * ratio) := by
  induction n generalizing pos with
  | zero => simp [loop]
  | succ n ih =>
      have now : pos < input.length := by simpa using inside 0 n.succ_pos
      have later : ∀ j : Nat, j < n → pos + ratio + j * ratio < input.length := by
        intro j less
        have next := inside (j + 1) (Nat.succ_lt_succ less)
        push_cast at next
        linarith
      rw [loop, if_pos now, ih _ later, List.range_succ_eq_map, List.map_cons, List.map_map]
      refine Prod.ext ?_ ?_
      · have first : pos + ((0 : Nat) : ℚ) * ratio = pos := by simp
        simp only [first, List.cons.injEq, true_and]
        apply List.map_congr_left
        intro j _
        rw [Function.comp_apply, Nat.succ_eq_add_one]
        congr 1
        push_cast
        ring
      · push_cast
        ring

/-- The resampler after the samples `done`: the next position it reads is the first behind them. -/
structure Resumes (s : LinearResampler) (ratio : ℚ) (done : List Int16) : Prop where
  step : s.ratio = ratio
  rates : s.inRate ≠ s.outRate
  pos : s.pos = count ratio done.length * ratio - done.length

/-- The positions behind `d` samples that lie in the next `n`. -/
def positions (ratio : ℚ) (d n : Nat) : List ℚ :=
  (List.range (count ratio (d + n) - count ratio d)).map fun j =>
    ((count ratio d + j : Nat) : ℚ) * ratio

/-- A push reads the positions that lie in its buffer, and ends where its condition fails. -/
theorem Resumes.push {s : LinearResampler} {ratio : ℚ} {done input : List Int16}
    (h : s.Resumes ratio done) (nonempty : input ≠ []) :
    (s.push input).1.Resumes ratio (done ++ input) ∧ ∃ prev, (s.push input).2 =
      (positions ratio done.length input.length).map fun p =>
        readAt prev input (p - done.length) := by
  have positive : 0 < ratio := h.step ▸ s.ratio_pos
  obtain ⟨first, rest, rfl⟩ := List.exists_cons_of_ne_nil nonempty
  generalize hi : first :: rest = input at nonempty
  have grows : count ratio done.length ≤ count ratio (done.length + input.length) :=
    count_mono positive (Nat.le_add_right _ _)
  have inside : ∀ j : Nat, j < count ratio (done.length + input.length) -
      count ratio done.length → s.pos + j * ratio < input.length := by
    intro j less
    have before : count ratio done.length + j < count ratio (done.length + input.length) := by
      omega
    rw [lt_count_iff positive] at before
    push_cast at before
    rw [h.pos]
    linarith
  obtain ⟨prev, turned⟩ : ∃ prev, s.push input =
      let (out, pos) := loop ratio prev input (turns ratio input s.pos) s.pos
      ({ s with
          primed := true, pos := pos - input.length, prev := input.getD (input.length - 1) 0 },
        out) := by
    refine ⟨if s.primed then s.prev else first, ?_⟩
    rw [← hi, LinearResampler.push, if_neg h.rates, h.step]
  rw [h.pos, turns_eq positive, ← h.pos, loop_eq _ _ _ _ _ inside] at turned
  rw [turned]
  refine ⟨⟨h.step, h.rates, ?_⟩, prev, ?_⟩
  · dsimp only
    rw [h.pos, List.length_append, Nat.cast_sub grows]
    push_cast
    ring
  · dsimp only
    rw [positions, List.map_map]
    apply List.map_congr_left
    intro j _
    rw [Function.comp_apply, h.pos]
    congr 1
    push_cast
    ring

/-! ## One buffer of a stream -/

/-- The sample at the position `p` of a stream that ends at `stop`. -/
def readIn (x : List Int16) (stop : Nat) (p : ℚ) : Int16 :=
  interpolate (x.getD ⌊p⌋₊ 0)
    (if ⌊p⌋₊ + 1 < stop then x.getD (⌊p⌋₊ + 1) 0 else x.getD ⌊p⌋₊ 0) (Int.fract p)

theorem getD_middle (done rest : List Int16) {c : List Int16} {m : Nat} (h : m < c.length) :
    (done ++ (c ++ rest)).getD (done.length + m) 0 = c.getD m 0 := by
  rw [List.getD_eq_getElem?_getD, List.getElem?_append_right (Nat.le_add_right _ _),
    Nat.add_sub_cancel_left, List.getElem?_append_left h, List.getD_eq_getElem?_getD]

/-- Within a buffer a position is read as in the stream that ends with the buffer. -/
theorem readAt_eq {prev : Int16} {done c rest : List Int16} {p : ℚ} (from_ : done.length ≤ p)
    (before : p < done.length + c.length) :
    readAt prev c (p - done.length) =
      readIn (done ++ (c ++ rest)) (done.length + c.length) p := by
  have nonneg : 0 ≤ p := le_trans (Nat.cast_nonneg _) from_
  have whole : (⌊p⌋₊ : ℤ) = ⌊p⌋ := Int.natCast_floor_eq_floor nonneg
  have reached : done.length ≤ ⌊p⌋₊ := Nat.le_floor from_
  have inside : ⌊p⌋₊ < done.length + c.length := by
    apply (Nat.floor_lt nonneg).mpr
    exact_mod_cast before
  obtain ⟨m, place⟩ := Nat.exists_eq_add_of_le reached
  have less : m < c.length := by omega
  have index : ⌊p - done.length⌋ = m := by
    rw [Int.floor_sub_natCast, ← whole, place]
    push_cast
    ring
  have part : p - done.length - ((m : ℤ) : ℚ) = Int.fract p := by
    rw [Int.fract, ← whole, place]
    push_cast
    ring
  have first := getD_middle done rest less
  rw [readAt, readIn, index, part, place, first]
  rw [if_neg (by omega), Int.toNat_natCast]
  by_cases more : m + 1 < c.length
  · have next := getD_middle done rest more
    rw [if_pos (by omega), if_pos (by omega), Nat.add_assoc, next]
    rfl
  · have last : c.length - 1 = m := by omega
    rw [if_neg (by omega), if_neg (by omega), last]

theorem interpolate_self (a : Int16) {frac : ℚ} (first : 0 ≤ frac) (last : frac < 1) :
    interpolate a a frac = a := by
  rw [interpolate_eq_iff first last]
  left
  norm_num

/-- A stream that goes on is read as one that ends, unless the last sample moves towards the
next. -/
theorem readIn_eq_iff {x : List Int16} {stop : Nat} {p : ℚ} (before : ⌊p⌋₊ + 1 ≤ stop)
    (within : stop ≤ x.length) :
    readIn x stop p = readIn x x.length p ↔ (stop < x.length → ⌊p⌋₊ + 1 = stop →
      Unmoved (x.getD (stop - 1) 0) (x.getD stop 0) (Int.fract p)) := by
  have first := Int.fract_nonneg p
  have last := Int.fract_lt_one p
  rcases before.lt_or_eq with inner | rfl
  · rw [readIn, readIn, if_pos inner, if_pos (by omega)]
    simp only [true_iff]
    intro _ here
    omega
  · rw [readIn, readIn, if_neg (Nat.lt_irrefl _), Nat.add_sub_cancel, interpolate_self _ first last,
      eq_comm]
    by_cases more : ⌊p⌋₊ + 1 < x.length
    · rw [if_pos more, interpolate_eq_iff first last]
      simp [more]
    · rw [if_neg more, interpolate_self _ first last]
      simp [more]

theorem mem_positions {ratio : ℚ} (positive : 0 < ratio) {d n : Nat} {p : ℚ} :
    p ∈ positions ratio d n ↔ ∃ k : Nat, p = k * ratio ∧ d ≤ p ∧ p < (d + n : Nat) := by
  simp only [positions, List.mem_map, List.mem_range]
  constructor
  · rintro ⟨j, less, rfl⟩
    refine ⟨_, rfl, (count_le_iff positive).mp (Nat.le_add_right _ _), ?_⟩
    exact (lt_count_iff positive).mp (by omega)
  · rintro ⟨k, rfl, above, below⟩
    have reached := (count_le_iff positive).mpr above
    have inside := (lt_count_iff positive).mpr below
    exact ⟨k - count ratio d, by omega, by rw [Nat.add_sub_cancel' reached]⟩

/-- Where a buffer ends and the stream goes on, no position in its last sample is moved by the
sample behind it. -/
def AtCut (ratio : ℚ) (x : List Int16) (d : Nat) : Prop :=
  d < x.length → ∀ k : Nat, ⌊k * ratio⌋₊ + 1 = d →
    Unmoved (x.getD (d - 1) 0) (x.getD d 0) (Int.fract (k * ratio))

theorem readIn_positions_iff {ratio : ℚ} (positive : 0 < ratio) {x : List Int16} {d n : Nat}
    (inhabited : 0 < n) (within : d + n ≤ x.length) :
    (positions ratio d n).map (readIn x (d + n)) = (positions ratio d n).map (readIn x x.length) ↔
      AtCut ratio x (d + n) := by
  rw [List.map_inj_left]
  constructor
  · intro same more k here
    have nonneg : (0 : ℚ) ≤ k * ratio := mul_nonneg (Nat.cast_nonneg _) positive.le
    have above : (d : ℚ) ≤ k * ratio := (Nat.le_floor_iff nonneg).mp (by omega)
    have below : k * ratio < (d + n : Nat) := (Nat.floor_lt nonneg).mp (by omega)
    have read := same _ ((mem_positions positive).mpr ⟨k, rfl, above, below⟩)
    exact (readIn_eq_iff here.le within).mp read more here
  · intro cut p member
    obtain ⟨k, rfl, -, below⟩ := (mem_positions positive).mp member
    have nonneg : (0 : ℚ) ≤ k * ratio := mul_nonneg (Nat.cast_nonneg _) positive.le
    have inside := (Nat.floor_lt nonneg).mpr below
    exact (readIn_eq_iff inside within).mpr fun more here => cut more k here

/-! ## A whole stream -/

theorem positions_zero (ratio : ℚ) (d : Nat) : positions ratio d 0 = [] := by
  rw [positions, Nat.add_zero, Nat.sub_self]
  rfl

theorem positions_add {ratio : ℚ} (positive : 0 < ratio) (d m n : Nat) :
    positions ratio d (m + n) = positions ratio d m ++ positions ratio (d + m) n := by
  have first : count ratio d ≤ count ratio (d + m) := count_mono positive (Nat.le_add_right _ _)
  have second : count ratio (d + m) ≤ count ratio (d + m + n) :=
    count_mono positive (Nat.le_add_right _ _)
  have total : count ratio (d + (m + n)) - count ratio d =
      (count ratio (d + m) - count ratio d) +
        (count ratio (d + m + n) - count ratio (d + m)) := by
    rw [← Nat.add_assoc]
    omega
  rw [positions, total, List.range_add, List.map_append, List.map_map, positions, positions]
  congr 1
  apply List.map_congr_left
  intro j _
  rw [Function.comp_apply, ← Nat.add_assoc, Nat.add_sub_cancel' first]

/-- A buffer of the stream, read by the resampler that has read what came before. -/
theorem Resumes.push_in {s : LinearResampler} {ratio : ℚ} {done c : List Int16}
    (h : s.Resumes ratio done) (nonempty : c ≠ []) (rest : List Int16) :
    (s.push c).2 = (positions ratio done.length c.length).map
      (readIn (done ++ (c ++ rest)) (done.length + c.length)) := by
  have positive : 0 < ratio := h.step ▸ s.ratio_pos
  obtain ⟨-, prev, out⟩ := h.push nonempty
  rw [out]
  apply List.map_congr_left
  intro p member
  obtain ⟨k, rfl, above, below⟩ := (mem_positions positive).mp member
  exact readAt_eq above (by exact_mod_cast below)

/-- No cut between the buffers is heard. -/
def Seamless (ratio : ℚ) (x : List Int16) (d : Nat) (buffers : List (List Int16)) : Prop :=
  ∀ before c after, buffers = before ++ c :: after → c ≠ [] →
    AtCut ratio x (d + (before.flatten ++ c).length)

theorem seamless_cons {ratio : ℚ} {x c : List Int16} {d : Nat} {rest : List (List Int16)} :
    Seamless ratio x d (c :: rest) ↔
      (c ≠ [] → AtCut ratio x (d + c.length)) ∧ Seamless ratio x (d + c.length) rest := by
  constructor
  · intro all
    refine ⟨fun nonempty => by simpa using all [] c rest rfl nonempty, ?_⟩
    rintro before c' after rfl nonempty
    simpa [Nat.add_assoc] using all (c :: before) c' after rfl nonempty
  · rintro ⟨first, later⟩ before c' after same nonempty
    cases before with
    | nil =>
        obtain ⟨rfl, rfl⟩ := List.cons.inj same
        simpa using first nonempty
    | cons b before =>
        obtain ⟨rfl, rfl⟩ := List.cons.inj same
        simpa [Nat.add_assoc] using later before c' after rfl nonempty

theorem Resumes.pushAll_eq_iff {s : LinearResampler} {ratio : ℚ} {done x : List Int16}
    {buffers : List (List Int16)} (h : s.Resumes ratio done)
    (stream : done ++ buffers.flatten = x) :
    s.pushAll buffers =
        (positions ratio done.length buffers.flatten.length).map (readIn x x.length) ↔
      Seamless ratio x done.length buffers := by
  have positive : 0 < ratio := h.step ▸ s.ratio_pos
  induction buffers generalizing s done with
  | nil =>
      rw [List.flatten_nil, List.length_nil, positions_zero]
      refine iff_of_true rfl ?_
      intro before c after impossible
      simp at impossible
  | cons c rest ih =>
      rw [List.flatten_cons] at stream ⊢
      rw [pushAll, seamless_cons, List.length_append, positions_add positive, List.map_append]
      by_cases nonempty : c = []
      · subst nonempty
        have silent : s.push [] = (s, []) := rfl
        have next := ih h (by simpa using stream)
        simpa [silent, positions_zero] using next
      · have whole : (done ++ c) ++ rest.flatten = x := by rw [List.append_assoc, stream]
        have next := ih (h.push nonempty).1 whole
        have within : done.length + c.length ≤ x.length := by
          rw [← whole, List.length_append, List.length_append]
          omega
        have here := readIn_positions_iff positive (List.length_pos_iff.mpr nonempty) within
        have out := h.push_in nonempty rest.flatten
        rw [stream] at out
        rw [List.length_append] at next
        simp only [out, nonempty, ne_eq, not_false_eq_true, true_implies]
        refine Iff.trans ?_ (and_congr here next)
        constructor
        · intro same
          exact List.append_inj same (by simp)
        · rintro ⟨first, later⟩
          rw [first, later]

theorem pushAll_passthrough {s : LinearResampler} (rates : s.inRate = s.outRate)
    (buffers : List (List Int16)) : s.pushAll buffers = buffers.flatten := by
  induction buffers with
  | nil => rfl
  | cons c rest ih =>
      have copied : s.push c = (s, c) := by
        cases c with
        | nil => rfl
        | cons first c => rw [push, if_pos rates]
      rw [pushAll, copied, List.flatten_cons]
      exact congrArg (c ++ ·) ih

/-- The outputs of the buffers are that of the whole stream exactly if the rates are equal, or no
position in the last sample of a buffer is moved by the sample behind it. -/
theorem pushAll_eq_push_iff (inRate outRate : ℕ+) (buffers : List (List Int16)) :
    (new inRate outRate).pushAll buffers = ((new inRate outRate).push buffers.flatten).2 ↔
      inRate = outRate ∨
        Seamless ((inRate : ℚ) / (outRate : ℚ)) buffers.flatten 0 buffers := by
  by_cases rates : inRate = outRate
  · have whole := pushAll_passthrough (s := new inRate outRate) rates [buffers.flatten]
    simp only [pushAll, List.append_nil, List.flatten_cons, List.flatten_nil] at whole
    rw [pushAll_passthrough rates, whole]
    simp [rates]
  · have start : (new inRate outRate).Resumes ((inRate : ℚ) / (outRate : ℚ)) [] := by
      refine ⟨rfl, rates, ?_⟩
      simp [new, count]
    have whole : ((new inRate outRate).push buffers.flatten).2 =
        (positions ((inRate : ℚ) / (outRate : ℚ)) 0 buffers.flatten.length).map
          (readIn buffers.flatten buffers.flatten.length) := by
      by_cases nonempty : buffers.flatten = []
      · rw [nonempty, List.length_nil, positions_zero]
        rfl
      · simpa using start.push_in nonempty []
    rw [whole, or_iff_right rates]
    exact start.pushAll_eq_iff (List.nil_append _)

/-- Two samples at half the rate of the output, in one buffer and in two. -/
theorem pushAll_cut : (new 24000 48000).pushAll [[0], [100]] = [0, 0, 100, 100] ∧
    ((new 24000 48000).push [0, 100]).2 = [0, 50, 100, 100] := by
  decide +kernel

end LinearResampler
end ReachMyDevice
