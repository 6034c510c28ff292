import Mathlib.Data.List.Sort
import Mathlib.Order.Defs.LinearOrder

/-!
# Ranking by a score

Candidates are sorted, stripped of repeats and then sorted by their score, which
keeps equal scores in the order of the candidates. The two best are found in one
pass.
-/
namespace Ranking

variable {ι K : Type*}

section
variable [LinearOrder ι]

/-- An element that the next one repeats is left out. -/
def dedup : List ι → List ι
  | a :: b :: l => if a = b then dedup (b :: l) else a :: dedup (b :: l)
  | l => l

def distinct (l : List ι) : List ι := dedup (l.mergeSort (· ≤ ·))

theorem mem_dedup {l : List ι} {a : ι} : a ∈ dedup l ↔ a ∈ l := by
  fun_induction dedup l with
  | case1 b l ih =>
      rw [ih]
      simp
  | case2 b c l other ih =>
      rw [List.mem_cons, ih, List.mem_cons (a := a) (b := b)]
  | case3 l short => rfl

theorem dedup_increasing {l : List ι} (sorted : l.Pairwise (· ≤ ·)) :
    (dedup l).Pairwise (· < ·) := by
  fun_induction dedup l with
  | case1 b l ih => exact ih sorted.of_cons
  | case2 b c l other ih =>
      apply List.pairwise_cons.mpr
      refine ⟨?_, ih sorted.of_cons⟩
      intro d member
      have first := List.rel_of_pairwise_cons sorted (List.mem_cons_self (a := c) (l := l))
      have least : c ≤ d := by
        rcases List.mem_cons.mp (mem_dedup.mp member) with rfl | later
        · exact le_rfl
        · exact List.rel_of_pairwise_cons sorted.of_cons later
      exact lt_of_lt_of_le (lt_of_le_of_ne first other) least
  | case3 l short =>
      cases l with
      | nil => exact List.Pairwise.nil
      | cons b l =>
          cases l with
          | nil => exact List.pairwise_singleton _ _
          | cons c l => exact absurd rfl (short b c l)

theorem mem_distinct {l : List ι} {a : ι} : a ∈ distinct l ↔ a ∈ l := by
  rw [distinct, mem_dedup]
  exact (List.mergeSort_perm l _).mem_iff

theorem distinct_increasing (l : List ι) : (distinct l).Pairwise (· < ·) := by
  apply dedup_increasing
  have sorted : (l.mergeSort (· ≤ ·)).Pairwise fun a b => decide (a ≤ b) = true := by
    apply List.pairwise_mergeSort
    · intro a b c ab bc
      apply decide_eq_true
      exact le_trans (of_decide_eq_true ab) (of_decide_eq_true bc)
    · intro a b
      simpa using le_total a b
  apply sorted.imp
  intro a b
  exact of_decide_eq_true

end

/-! ## By the score -/

section
variable [LinearOrder K]

theorem score_trans (a b c : K × ι) (ab : decide (a.1 ≤ b.1) = true)
    (bc : decide (b.1 ≤ c.1) = true) : decide (a.1 ≤ c.1) = true := by
  apply decide_eq_true
  exact le_trans (of_decide_eq_true ab) (of_decide_eq_true bc)

theorem score_total (a b : K × ι) : (decide (a.1 ≤ b.1) || decide (b.1 ≤ a.1)) = true := by
  simpa using le_total a.1 b.1

def byScore (l : List (K × ι)) : List (K × ι) := l.mergeSort fun a b => a.1 ≤ b.1

theorem byScore_perm (l : List (K × ι)) : (byScore l).Perm l := List.mergeSort_perm l _

theorem byScore_sorted (l : List (K × ι)) : (byScore l).Pairwise fun a b => a.1 ≤ b.1 := by
  have sorted : (byScore l).Pairwise fun a b => decide (a.1 ≤ b.1) = true :=
    List.pairwise_mergeSort score_trans score_total l
  apply sorted.imp
  intro a b
  exact of_decide_eq_true

/-- A candidate is put before those of no lower score, and the others stay as they are. -/
theorem byScore_cons (a : K × ι) (l : List (K × ι)) :
    ∃ front behind, byScore (a :: l) = front ++ a :: behind ∧ byScore l = front ++ behind ∧
      ∀ b ∈ front, b.1 < a.1 := by
  obtain ⟨front, behind, split, rest, less⟩ := List.mergeSort_cons score_trans score_total a l
  refine ⟨front, behind, split, rest, ?_⟩
  intro b member
  simpa using less b member

/-- A lower score, or the same and an earlier candidate. -/
def Ahead [LT ι] (a b : K × ι) : Prop := a.1 < b.1 ∨ a.1 = b.1 ∧ a.2 < b.2

/-- The sort is stable, so candidates in their order come out by score and then by that order. -/
theorem byScore_ahead [LinearOrder ι] {l : List (K × ι)} (increasing : l.Pairwise (·.2 < ·.2)) :
    (byScore l).Pairwise Ahead := by
  induction l with
  | nil =>
      rw [byScore, List.mergeSort_nil]
      exact List.Pairwise.nil
  | cons a l ih =>
      obtain ⟨later, increasing⟩ := List.pairwise_cons.mp increasing
      obtain ⟨front, behind, split, rest, less⟩ := byScore_cons a l
      have ahead := ih increasing
      have sorted := byScore_sorted (a :: l)
      rw [rest] at ahead
      rw [split] at sorted ⊢
      obtain ⟨ofFront, ofBehind, between⟩ := List.pairwise_append.mp ahead
      obtain ⟨-, fromHere, -⟩ := List.pairwise_append.mp sorted
      apply List.pairwise_append.mpr
      refine ⟨ofFront, List.pairwise_cons.mpr ⟨?_, ofBehind⟩, ?_⟩
      · intro b member
        have score := List.rel_of_pairwise_cons fromHere member
        have there : b ∈ l := by
          apply (byScore_perm l).mem_iff.mp
          rw [rest]
          exact List.mem_append_right front member
        rcases score.lt_or_eq with better | same
        · exact .inl better
        · exact .inr ⟨same, later b there⟩
      · intro b member c next
        rcases List.mem_cons.mp next with rfl | next
        · exact .inl (less b member)
        · exact between b member c next

end

/-! ## The two nearest -/

section
variable [LinearOrder K]

/-- The best so far and the best of the others, with their scores. -/
structure Nearest (ι K : Type*) where
  b0 : ι
  d0 : Option K
  b1 : ι
  d1 : Option K

/-- Nothing has a score before the first candidate. -/
def before (d : K) : Option K → Bool
  | none => true
  | some e => d < e

def Nearest.push (s : Nearest ι K) (i : ι) (d : K) : Nearest ι K :=
  if before d s.d0 then { b0 := i, d0 := some d, b1 := s.b0, d1 := s.d0 }
  else if before d s.d1 then { s with b1 := i, d1 := some d }
  else s

structure Nearest.Of (d : ι → K) (past : List ι) (s : Nearest ι K) : Prop where
  none0 : s.d0 = none → past = []
  some0 : ∀ e, s.d0 = some e → s.b0 ∈ past ∧ e = d s.b0 ∧ ∀ i ∈ past, d s.b0 ≤ d i
  none1 : s.d1 = none → ∀ i ∈ past, i = s.b0
  some1 : ∀ e, s.d1 = some e → s.b1 ∈ past ∧ s.b1 ≠ s.b0 ∧ e = d s.b1 ∧
    ∀ i ∈ past, i ≠ s.b0 → d s.b1 ≤ d i

/-- Before the first candidate; the two are not read until there is one each. -/
theorem Nearest.of_nil (d : ι → K) (i j : ι) :
    Nearest.Of d [] { b0 := i, d0 := none, b1 := j, d1 := none } := by
  constructor
  · exact fun _ => rfl
  · rintro e ⟨⟩
  · intro _ k member
    cases member
  · rintro e ⟨⟩

theorem before_iff {d : K} {o : Option K} : before d o = true ↔ ∀ e, o = some e → d < e := by
  cases o with
  | none => simp [before]
  | some e => simp [before]

/-- A candidate before the best, which becomes the second best. -/
theorem Nearest.Of.first {d : ι → K} {past : List ι} {s : Nearest ι K} (h : s.Of d past) {i : ι}
    (new : i ∉ past) (best : before (d i) s.d0 = true) :
    Nearest.Of d (past ++ [i]) { b0 := i, d0 := some (d i), b1 := s.b0, d1 := s.d0 } := by
  rw [before_iff] at best
  constructor
  · rintro ⟨⟩
  · rintro e ⟨⟩
    refine ⟨List.mem_append_right past (List.mem_singleton.mpr rfl), rfl, ?_⟩
    intro j member
    rcases List.mem_append.mp member with earlier | here
    · cases found : s.d0 with
      | none =>
          rw [h.none0 found] at earlier
          cases earlier
      | some e =>
          obtain ⟨-, rfl, least⟩ := h.some0 e found
          exact (best _ found).le.trans (least j earlier)
    · rw [List.mem_singleton.mp here]
  · intro none_ j member
    rw [h.none0 none_, List.nil_append] at member
    exact List.mem_singleton.mp member
  · intro e found
    obtain ⟨there, value, least⟩ := h.some0 e found
    refine ⟨List.mem_append_left _ there, ?_, value, ?_⟩
    · intro same
      change s.b0 = i at same
      rw [same] at there
      exact new there
    · intro j member other
      rcases List.mem_append.mp member with earlier | here
      · exact least j earlier
      · exact absurd (List.mem_singleton.mp here) other

/-- A candidate between the two. -/
theorem Nearest.Of.second {d : ι → K} {past : List ι} {s : Nearest ι K} (h : s.Of d past) {i : ι}
    (new : i ∉ past) (worse : before (d i) s.d0 = false) (best : before (d i) s.d1 = true) :
    Nearest.Of d (past ++ [i]) { s with b1 := i, d1 := some (d i) } := by
  rw [before_iff] at best
  cases first : s.d0 with
  | none => simp [before, first] at worse
  | some e =>
      obtain ⟨there, rfl, least⟩ := h.some0 e first
      have order : d s.b0 ≤ d i := by
        rw [first] at worse
        simpa [before] using worse
      constructor
      · rintro ⟨⟩
      · rintro e ⟨⟩
        refine ⟨List.mem_append_left _ there, rfl, ?_⟩
        intro j member
        rcases List.mem_append.mp member with earlier | here
        · exact least j earlier
        · rwa [List.mem_singleton.mp here]
      · rintro ⟨⟩
      · rintro e ⟨⟩
        refine ⟨List.mem_append_right past (List.mem_singleton.mpr rfl), ?_, rfl, ?_⟩
        · intro same
          change i = s.b0 at same
          rw [← same] at there
          exact new there
        · intro j member other
          rcases List.mem_append.mp member with earlier | here
          · cases found : s.d1 with
            | none => exact absurd (h.none1 found j earlier) other
            | some e =>
                obtain ⟨-, -, rfl, second⟩ := h.some1 e found
                exact (best _ found).le.trans (second j earlier other)
          · rw [List.mem_singleton.mp here]

/-- A candidate behind both. -/
theorem Nearest.Of.neither {d : ι → K} {past : List ι} {s : Nearest ι K} (h : s.Of d past) {i : ι}
    (worse : before (d i) s.d0 = false) (worse' : before (d i) s.d1 = false) :
    s.Of d (past ++ [i]) := by
  cases first : s.d0 with
  | none => simp [before, first] at worse
  | some e =>
      cases second : s.d1 with
      | none => simp [before, second] at worse'
      | some e' =>
          rw [first] at worse
          rw [second] at worse'
          have order : e ≤ d i := by simpa [before] using worse
          have order' : e' ≤ d i := by simpa [before] using worse'
          obtain ⟨there, rfl, least⟩ := h.some0 e first
          obtain ⟨there', other, rfl, least'⟩ := h.some1 e' second
          constructor
          · intro none_
            rw [first] at none_
            cases none_
          · intro e found
            obtain rfl : d s.b0 = e := Option.some.inj (first.symm.trans found)
            refine ⟨List.mem_append_left _ there, rfl, ?_⟩
            intro j member
            rcases List.mem_append.mp member with earlier | here
            · exact least j earlier
            · rwa [List.mem_singleton.mp here]
          · intro none_
            rw [second] at none_
            cases none_
          · intro e found
            obtain rfl : d s.b1 = e := Option.some.inj (second.symm.trans found)
            refine ⟨List.mem_append_left _ there', other, rfl, ?_⟩
            intro j member apart
            rcases List.mem_append.mp member with earlier | here
            · exact least' j earlier apart
            · rwa [List.mem_singleton.mp here]

theorem Nearest.Of.push {d : ι → K} {past : List ι} {s : Nearest ι K} (h : s.Of d past) {i : ι}
    (new : i ∉ past) : (s.push i (d i)).Of d (past ++ [i]) := by
  unfold Nearest.push
  split
  next best => exact h.first new best
  next worse =>
    have worse := eq_false_of_ne_true worse
    split
    next second => exact h.second new worse second
    next worse' => exact h.neither worse (eq_false_of_ne_true worse')

theorem Nearest.Of.run {d : ι → K} {past : List ι} {s : Nearest ι K} (h : s.Of d past)
    (rest : List ι) (nodup : (past ++ rest).Nodup) :
    (rest.foldl (fun s i => s.push i (d i)) s).Of d (past ++ rest) := by
  induction rest generalizing past s with
  | nil =>
      rw [List.append_nil]
      exact h
  | cons i rest ih =>
      have new : i ∉ past := by
        intro member
        exact (List.nodup_append.mp nodup).2.2 i member i (List.mem_cons_self ..) rfl
      have next := ih (h.push new) (by rwa [List.append_assoc])
      rwa [List.append_assoc] at next

/-- The two that a pass over the candidates finds: the best of all, and the best of the others. -/
theorem Nearest.of_pass (d : ι → K) (l : List ι) (nodup : l.Nodup) (two : 2 ≤ l.length)
    (i j : ι) {s : Nearest ι K}
    (pass : l.foldl (fun s i => s.push i (d i)) { b0 := i, d0 := none, b1 := j, d1 := none } = s) :
    s.b0 ≠ s.b1 ∧ s.b0 ∈ l ∧ s.b1 ∈ l ∧ (∀ k ∈ l, d s.b0 ≤ d k) ∧
      ∀ k ∈ l, k ≠ s.b0 → d s.b1 ≤ d k := by
  have h := (Nearest.of_nil d i j).run l nodup
  rw [pass, List.nil_append] at h
  cases first : s.d0 with
  | none =>
      rw [h.none0 first, List.length_nil] at two
      omega
  | some e =>
      obtain ⟨there, -, least⟩ := h.some0 e first
      cases second : s.d1 with
      | none =>
          have alike : l ⊆ [s.b0] := by
            intro k member
            exact List.mem_singleton.mpr (h.none1 second k member)
          have few := (List.subperm_of_subset nodup alike).length_le
          rw [List.length_singleton] at few
          omega
      | some e' =>
          obtain ⟨there', other, -, least'⟩ := h.some1 e' second
          exact ⟨other.symm, there, there', least, least'⟩

/-- The two under other scores. -/
def Nearest.rescore {L : Type*} (φ : K → L) (s : Nearest ι K) : Nearest ι L where
  b0 := s.b0
  d0 := s.d0.map φ
  b1 := s.b1
  d1 := s.d1.map φ

section
variable {L : Type*} [LinearOrder L] {φ : K → L} (mono : StrictMono φ)

include mono in
theorem before_map (d : K) (o : Option K) : before (φ d) (o.map φ) = before d o := by
  cases o with
  | none => rfl
  | some e =>
      change decide (φ d < φ e) = decide (d < e)
      rw [decide_eq_decide]
      exact mono.lt_iff_lt

include mono in
/-- Scores in the same order leave the same two. -/
theorem Nearest.pass_rescore (d : ι → K) (l : List ι) (s : Nearest ι K) :
    l.foldl (fun s i => s.push i (φ (d i))) (s.rescore φ) =
      (l.foldl (fun s i => s.push i (d i)) s).rescore φ := by
  induction l generalizing s with
  | nil => rfl
  | cons i l ih =>
      have step : (s.rescore φ).push i (φ (d i)) = (s.push i (d i)).rescore φ := by
        unfold Nearest.push
        change (if before (φ (d i)) (s.d0.map φ) = true then _
          else if before (φ (d i)) (s.d1.map φ) = true then _ else _) = _
        rw [before_map mono, before_map mono]
        split
        · rfl
        · split <;> rfl
      rw [List.foldl_cons, List.foldl_cons, step, ih]

end

end
end Ranking
