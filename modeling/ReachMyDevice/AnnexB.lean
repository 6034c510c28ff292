import Mathlib.Tactic.Common
import ReachMyDevice.Protocol

/-!
# Keyframes in an Annex-B buffer

The scan goes on behind the header of a start code, so that it misses a start
code that begins in that header.
-/
namespace ReachMyDevice
namespace AnnexB

/-- The place behind a start code `00 00 01` or `00 00 00 01`. -/
def startCode? (annexb : Bytes) (i : Nat) (inside : i + 3 < annexb.length) : Option Nat :=
  if annexb[i] = 0 ∧ annexb[i + 1] = 0 ∧ annexb[i + 2] = 1 then some (i + 3)
  else if i + 4 < annexb.length ∧
      annexb[i] = 0 ∧ annexb[i + 1] = 0 ∧ annexb[i + 2] = 0 ∧ annexb[i + 3] = 1 then
    some (i + 4)
  else none

theorem startCode?_gt {annexb : Bytes} {i hdr : Nat} {inside : i + 3 < annexb.length}
    (found : startCode? annexb i inside = some hdr) : i < hdr := by
  unfold startCode? at found
  split at found
  · cases found
    exact Nat.lt_add_of_pos_right (by decide)
  · split at found
    · cases found
      exact Nat.lt_add_of_pos_right (by decide)
    · cases found

/-- The loop of the scan, from `i` on. -/
def containsIdrFrom (annexb : Bytes) (i : Nat) : Bool :=
  if inside : i + 3 < annexb.length then
    match found : startCode? annexb i inside with
    | some hdr =>
        if header : hdr < annexb.length then
          if annexb[hdr] &&& 0x1f = 5 then true else containsIdrFrom annexb (hdr + 1)
        else containsIdrFrom annexb (i + 1)
    | none => containsIdrFrom annexb (i + 1)
  else false
termination_by annexb.length - i
decreasing_by
  · have := startCode?_gt found
    omega
  all_goals omega

/-- Scan for a NAL unit of type 5. -/
def containsIdr (annexb : Bytes) : Bool := containsIdrFrom annexb 0

/-! ## What there is to be found -/

variable (annexb : Bytes)

def StartCodeAt (i : Nat) : Prop :=
  annexb[i]? = some 0 ∧ annexb[i + 1]? = some 0 ∧ annexb[i + 2]? = some 1

instance (i : Nat) : Decidable (StartCodeAt annexb i) := inferInstanceAs (Decidable (_ ∧ _ ∧ _))

/-- The header behind a start code is that of an IDR. -/
def IdrAt (i : Nat) : Prop :=
  StartCodeAt annexb i ∧ ∃ hdr, annexb[i + 3]? = some hdr ∧ hdr.toNat % 32 = 5

/-- How many start codes stand before a place so that the first byte behind each is the first of
the next one. -/
def directlyBefore : Nat → Nat
  | i + 3 => if StartCodeAt annexb i then directlyBefore i + 1 else 0
  | _ => 0

variable {annexb}

theorem header_iff (hdr : UInt8) : hdr &&& 0x1f = 5 ↔ hdr.toNat % 32 = 5 := by
  rw [← UInt8.toNat_inj, UInt8.toNat_and]
  exact iff_of_eq (congrArg (· = 5) (Nat.and_two_pow_sub_one_eq_mod hdr.toNat 5))

/-- Two start codes are at least three bytes apart. -/
theorem StartCodeAt.apart {i : Nat} (here : StartCodeAt annexb i) :
    ¬ StartCodeAt annexb (i + 1) ∧ ¬ StartCodeAt annexb (i + 2) := by
  have last : annexb[i + 2]? = some 1 := here.2.2
  constructor
  · rintro ⟨-, zero, -⟩
    cases last.symm.trans zero
  · rintro ⟨zero, -, -⟩
    cases last.symm.trans zero

/-- An IDR has its header in the buffer. -/
theorem not_idrAt_of_end {i j : Nat} (beyond : ¬ i + 3 < annexb.length) (behind : i ≤ j) :
    ¬ IdrAt annexb j := by
  rintro ⟨-, hdr, read, -⟩
  have inside := (List.getElem?_eq_some_iff.mp read).1
  omega

/-! ## The steps of the scan -/

theorem containsIdrFrom_end {i : Nat} (beyond : ¬ i + 3 < annexb.length) :
    containsIdrFrom annexb i = false := by
  rw [containsIdrFrom, dif_neg beyond]

/-- Behind a start code the scan looks at the header, and goes on behind that. -/
theorem containsIdrFrom_of_found {i hdr : Nat} {inside : i + 3 < annexb.length}
    (found : startCode? annexb i inside = some hdr) (header : hdr < annexb.length) :
    containsIdrFrom annexb i =
      if annexb[hdr] &&& 0x1f = 5 then true else containsIdrFrom annexb (hdr + 1) := by
  rw [containsIdrFrom, dif_pos inside]
  split
  next hdr' found' =>
    cases found.symm.trans found'
    rw [dif_pos header]
  next found' => cases found.symm.trans found'

theorem containsIdrFrom_of_none {i : Nat} (inside : i + 3 < annexb.length)
    (nothing : startCode? annexb i inside = none) :
    containsIdrFrom annexb i = containsIdrFrom annexb (i + 1) := by
  rw [containsIdrFrom, dif_pos inside]
  split
  next hdr found => cases nothing.symm.trans found
  next => rfl

theorem startCodeAt_iff {i : Nat} (inside : i + 2 < annexb.length) :
    StartCodeAt annexb i ↔ annexb[i] = 0 ∧ annexb[i + 1] = 0 ∧ annexb[i + 2] = 1 := by
  rw [StartCodeAt, List.getElem?_eq_getElem (by omega), List.getElem?_eq_getElem (by omega),
    List.getElem?_eq_getElem (by omega), Option.some.injEq, Option.some.injEq, Option.some.injEq]

theorem startCode?_of_start {i : Nat} (inside : i + 3 < annexb.length)
    (here : StartCodeAt annexb i) : startCode? annexb i inside = some (i + 3) := by
  rw [startCode?, if_pos ((startCodeAt_iff (by omega)).mp here)]

theorem containsIdrFrom_start {i : Nat} (inside : i + 3 < annexb.length)
    (here : StartCodeAt annexb i) :
    containsIdrFrom annexb i = true ↔
      IdrAt annexb i ∨ containsIdrFrom annexb (i + 4) = true := by
  have idr : IdrAt annexb i ↔ annexb[i + 3] &&& 0x1f = 5 := by
    rw [IdrAt, List.getElem?_eq_getElem inside, header_iff]
    simp [here]
  rw [containsIdrFrom_of_found (startCode?_of_start inside here) inside, idr]
  split
  next same => simp [same]
  next other => simp [other]

/-- Elsewhere it goes on at the next byte; a code of four bytes is one of three behind a zero. -/
theorem containsIdrFrom_next {i : Nat} (nothing : ¬ StartCodeAt annexb i) :
    containsIdrFrom annexb i = containsIdrFrom annexb (i + 1) := by
  by_cases inside : i + 3 < annexb.length
  · have three : ¬ (annexb[i] = 0 ∧ annexb[i + 1] = 0 ∧ annexb[i + 2] = 1) := by
      rwa [← startCodeAt_iff]
    by_cases four : i + 4 < annexb.length ∧
        annexb[i] = 0 ∧ annexb[i + 1] = 0 ∧ annexb[i + 2] = 0 ∧ annexb[i + 3] = 1
    · have inside' : i + 1 + 3 < annexb.length := four.1
      have next : StartCodeAt annexb (i + 1) := (startCodeAt_iff (by omega)).mpr four.2.2
      have found : startCode? annexb i inside = some (i + 4) := by
        rw [startCode?, if_neg three, if_pos four]
      rw [containsIdrFrom_of_found found four.1,
        containsIdrFrom_of_found (startCode?_of_start inside' next) inside']
    · apply containsIdrFrom_of_none inside
      rw [startCode?, if_neg three, if_neg four]
  · rw [containsIdrFrom_end inside, containsIdrFrom_end fun further => inside (by omega)]

/-! ## What the scan finds -/

/-- Whatever begins less than a code and a header before the place of the scan is behind an odd
number of start codes. -/
def Passed (annexb : Bytes) (i : Nat) : Prop :=
  ∀ p, p < i → i < p + 4 → StartCodeAt annexb p → directlyBefore annexb p % 2 = 1

theorem Passed.zero (annexb : Bytes) : Passed annexb 0 := by
  intro p before
  exact absurd before p.not_lt_zero

theorem Passed.even {i : Nat} (passed : Passed annexb i) : directlyBefore annexb i % 2 = 0 := by
  unfold directlyBefore
  split
  next i =>
    split
    next before =>
      have odd := passed i (by omega) (by omega) before
      omega
    next => rfl
  next => rfl

theorem Passed.next {i : Nat} (passed : Passed annexb i) (nothing : ¬ StartCodeAt annexb i) :
    Passed annexb (i + 1) := by
  intro p before near code
  obtain rfl | earlier := Nat.eq_or_lt_of_le (Nat.le_of_lt_succ before)
  · exact absurd code nothing
  · exact passed p earlier (by omega) code

theorem Passed.header {i : Nat} (passed : Passed annexb i) (here : StartCodeAt annexb i) :
    Passed annexb (i + 4) := by
  intro p before near code
  have place : p = i + 1 ∨ p = i + 2 ∨ p = i + 3 := by omega
  rcases place with rfl | rfl | rfl
  · exact absurd code here.apart.1
  · exact absurd code here.apart.2
  · have even := passed.even
    rw [directlyBefore, if_pos here]
    omega

/-- From a place on, the scan finds each IDR behind an even number of start codes. -/
theorem containsIdrFrom_iff (n : Nat) {i : Nat} (left : annexb.length - i ≤ n)
    (passed : Passed annexb i) : containsIdrFrom annexb i = true ↔
      ∃ j, i ≤ j ∧ IdrAt annexb j ∧ directlyBefore annexb j % 2 = 0 := by
  induction n generalizing i with
  | zero =>
      have beyond : ¬ i + 3 < annexb.length := by omega
      rw [containsIdrFrom_end beyond]
      refine iff_of_false Bool.false_ne_true ?_
      rintro ⟨j, behind, idr, -⟩
      exact not_idrAt_of_end beyond behind idr
  | succ n ih =>
      by_cases inside : i + 3 < annexb.length
      · by_cases here : StartCodeAt annexb i
        · rw [containsIdrFrom_start inside here, ih (by omega) (passed.header here)]
          constructor
          · rintro (idr | ⟨j, behind, found⟩)
            · exact ⟨i, le_rfl, idr, passed.even⟩
            · exact ⟨j, by omega, found⟩
          · rintro ⟨j, behind, idr, even⟩
            -- a code that begins in this one, or in its header, is not among those found
            have place : j = i ∨ j = i + 1 ∨ j = i + 2 ∨ j = i + 3 ∨ i + 4 ≤ j := by omega
            rcases place with rfl | rfl | rfl | rfl | further
            · exact .inl idr
            · exact absurd idr.1 here.apart.1
            · exact absurd idr.1 here.apart.2
            · have odd := passed.header here (i + 3) (by omega) (by omega) idr.1
              omega
            · exact .inr ⟨j, further, idr, even⟩
        · rw [containsIdrFrom_next here, ih (by omega) (passed.next here)]
          constructor
          · rintro ⟨j, behind, found⟩
            exact ⟨j, by omega, found⟩
          · rintro ⟨j, behind, idr, even⟩
            obtain rfl | further := Nat.eq_or_lt_of_le behind
            · exact absurd idr.1 here
            · exact ⟨j, further, idr, even⟩
      · rw [containsIdrFrom_end inside]
        refine iff_of_false Bool.false_ne_true ?_
        rintro ⟨j, behind, idr, -⟩
        exact not_idrAt_of_end inside behind idr

/-- The scan is right about a buffer exactly if the buffer has no IDR, or has one that directly
follows an even number of start codes. -/
theorem containsIdr_iff (annexb : Bytes) :
    (containsIdr annexb = true ↔ ∃ i, IdrAt annexb i) ↔
      ((∃ i, IdrAt annexb i) → ∃ i, IdrAt annexb i ∧ directlyBefore annexb i % 2 = 0) := by
  have found := containsIdrFrom_iff annexb.length (Nat.sub_le _ _) (Passed.zero annexb)
  simp only [Nat.zero_le, true_and] at found
  rw [containsIdr, found]
  constructor
  · exact fun right => right.mpr
  · intro even
    exact ⟨fun ⟨i, idr, _⟩ => ⟨i, idr⟩, even⟩

/-- A start code whose header is the first byte of the next one. -/
theorem containsIdr_misses : ∃ annexb, containsIdr annexb = false ∧ IdrAt annexb 3 := by
  refine ⟨[0, 0, 1, 0, 0, 1, 0x65], ?_, by decide, 0x65, rfl, rfl⟩
  decide +kernel

end AnnexB
end ReachMyDevice
