import ReachMyDevice.DeviceTokens

/-!
# The freshness of a token refresh

The difference of two 64-bit times may have 65 bits, and the smallest 64-bit
number is its own absolute value.
-/
namespace ReachMyDevice

theorem Int64.toInt_abs (a : Int64) :
    a.abs.toInt = if a.toInt = -2 ^ 63 then -2 ^ 63 else (a.toInt.natAbs : Int) := by
  have lower := a.le_toInt
  change a.toBitVec.abs.toInt = if a.toBitVec.toInt = _ then _ else (a.toBitVec.toInt.natAbs : Int)
  change -2 ^ 63 ≤ a.toBitVec.toInt at lower
  have smallest : (BitVec.intMin 64).toInt = -2 ^ 63 := by decide
  simp only [BitVec.toInt_abs_eq_ite, BitVec.msb_eq_toInt, ← BitVec.toInt_inj, smallest,
    decide_eq_true_eq]
  split
  next same => rfl
  next other => omega

/-- A difference of two 64-bit numbers, taken back into their range. -/
theorem Int64.toInt_sub_cases (a b : Int64) : ∃ k : Int, (k = -1 ∨ k = 0 ∨ k = 1) ∧
    (a - b).toInt = a.toInt - b.toInt + k * 2 ^ 64 ∧ (a.toInt - b.toInt).natAbs < 2 ^ 64 := by
  have aBelow := a.toInt_lt
  have aAbove := a.le_toInt
  have bBelow := b.toInt_lt
  have bAbove := b.le_toInt
  have split := Int.bmod_eq_self_sub_bdiv_mul (a.toInt - b.toInt) (2 ^ 64)
  have above := (a - b).le_toInt
  have below := (a - b).toInt_lt
  rw [Int64.toInt_sub] at above below ⊢
  refine ⟨-Int.bdiv (a.toInt - b.toInt) (2 ^ 64), ?_, ?_, ?_⟩ <;> omega

def FitsI64 (n : Int) : Prop := -2 ^ 63 ≤ n ∧ n < 2 ^ 63

namespace RefreshToken
variable (body : RefreshToken) (now : Int64)

/-- The test that `check` makes of the time. -/
def Fresh : Prop := ¬ tokenRefreshSkewSecs < (now - body.timestamp).abs

/-- The subtraction and the absolute value stay within 64 bits. -/
def NoOverflow : Prop :=
  FitsI64 (now.toInt - body.timestamp.toInt) ∧ FitsI64 (now - body.timestamp).toInt.natAbs

/-- How far the clock and the signed time are apart. -/
def distance : Nat := (now.toInt - body.timestamp.toInt).natAbs

theorem fresh_iff :
    body.Fresh now ↔ (now - body.timestamp).toInt = -2 ^ 63 ∨
      (now - body.timestamp).toInt.natAbs ≤ 120 := by
  rw [Fresh, Int64.lt_iff_toInt_lt, Int64.toInt_abs]
  have skew : tokenRefreshSkewSecs.toInt = 120 := by decide
  rw [skew]
  split
  next smallest => simp [smallest]
  next other =>
    simp only [other, false_or]
    omega

variable {body now}

theorem fresh_of_check {crypto : Crypto} (passed : body.check crypto now = .ok ()) :
    body.Fresh now ∧ ∃ publicKey signature, decodeExact 32 body.publicKey = some publicKey ∧
      signatureValid crypto publicKey body.timestamp signature = true := by
  unfold check at passed
  split at passed
  next => cases passed
  next publicKey decoded =>
    split at passed
    next => cases passed
    next =>
      split at passed
      next => cases passed
      next fresh =>
        split at passed
        next => cases passed
        next signature _ =>
          split at passed
          next valid => exact ⟨fresh, publicKey, signature, decoded, valid⟩
          next => cases passed

/-- The test is right, without overflow, exactly for times less than `2 ^ 63` seconds apart; what it
says is still right where the difference wraps, but for the two distances at which the wrapped
difference is within the window or the smallest number. Within `2 ^ 63` seconds a request passes
only in the window around its signed time. -/
theorem fresh_iff_distance (crypto : Crypto) (body : RefreshToken) (now : Int64) :
    ((body.Fresh now ↔ body.distance now ≤ 120) ∧ body.NoOverflow now ↔
      body.distance now < 2 ^ 63) ∧
    ((body.Fresh now ↔ body.distance now ≤ 120) ↔
      body.distance now ≠ 2 ^ 63 ∧ body.distance now < 2 ^ 64 - 120) ∧
    (body.distance now < 2 ^ 63 → body.check crypto now = .ok () →
      body.distance now ≤ 120 ∧ ∃ publicKey signature,
        decodeExact 32 body.publicKey = some publicKey ∧
        signatureValid crypto publicKey body.timestamp signature = true) := by
  obtain ⟨k, small, wrapped, apart⟩ := Int64.toInt_sub_cases now body.timestamp
  have above := (now - body.timestamp).le_toInt
  have below := (now - body.timestamp).toInt_lt
  have fresh := body.fresh_iff now
  refine ⟨?_, ?_, ?_⟩
  · rw [fresh, NoOverflow, FitsI64, FitsI64, distance]
    rcases small with rfl | rfl | rfl <;> omega
  · rw [fresh, distance]
    rcases small with rfl | rfl | rfl <;> omega
  · intro near passed
    obtain ⟨lets, signed⟩ := fresh_of_check passed
    refine ⟨?_, signed⟩
    rw [fresh] at lets
    rw [distance] at near ⊢
    rcases small with rfl | rfl | rfl
    · omega
    · omega
    · omega

def signedAt (timestamp : Int64) : RefreshToken := ⟨"", "", timestamp, ""⟩

/-- A request signed `2 ^ 63` seconds before is let through, and so is the first time of all by the
last. -/
theorem stale_fresh :
    ((signedAt (-9223372035154775808)).Fresh 1700000000 ∧
      (signedAt (-9223372035154775808)).distance 1700000000 = 2 ^ 63 ∧
      ¬ (signedAt (-9223372035154775808)).NoOverflow 1700000000) ∧
    (signedAt Int64.minValue).Fresh Int64.maxValue ∧
      (signedAt Int64.minValue).distance Int64.maxValue = 2 ^ 64 - 1 := by
  unfold Fresh NoOverflow FitsI64
  decide

end RefreshToken
end ReachMyDevice
