import ReachMyDevice.Identity
import ReachMyDevice.Lib.Pieces
import ReachMyDevice.Lib.Ranking
import ReachMyDevice.SwipeResample

/-!
# Decoding a swipe

A word of the list is a path through the keys of its letters. Those whose ends
are near the ends of the swipe are ranked by how far their shape is from that of
the swipe, and by how frequent they are. Numbers are exact; those of the code are
rounded, which may decide between keys that are equally near.
-/
namespace ReachMyDevice
namespace Swipe
open Polyline Ranking

/-! ## The word list -/

/-- A letter less `a`. -/
abbrev Letter := Fin 26

def letter? (c : Char) : Option Letter :=
  if h : 97 ≤ c.toNat ∧ c.toNat - 97 < 26 then some ⟨c.toNat - 97, h.2⟩ else none

structure Word where
  letters : List Letter
  long : 2 ≤ letters.length
  deriving DecidableEq

namespace Word
variable (w : Word)

theorem letters_ne_nil : w.letters ≠ [] := by
  have long := w.long
  intro none_
  rw [none_, List.length_nil] at long
  omega

def first : Letter := w.letters.head w.letters_ne_nil

def last : Letter := w.letters.getLast w.letters_ne_nil

end Word

/-- A line that is a word of a–z, two letters or more. -/
def word? (line : List Char) : Option Word :=
  match (trim line).mapM letter? with
  | some letters => if long : 2 ≤ letters.length then some ⟨letters, long⟩ else none
  | none => none

/-- Where the bucket of a first and a last letter is. -/
def slot (f l : Letter) : Nat := f.val * 26 + l.val

theorem slot_lt (f l : Letter) : slot f l < 26 * 26 := by
  unfold slot
  omega

theorem slot_inj {f l f' l' : Letter} : slot f l = slot f' l' ↔ f = f' ∧ l = l' := by
  unfold slot
  constructor
  · intro same
    constructor <;> ext <;> omega
  · rintro ⟨rfl, rfl⟩
    rfl

/-- The words, the most frequent first, and for each pair of letters the places of the words that
begin and end with them. -/
structure SwipeDecoder where
  words : List Word
  buckets : List (List Nat)
  full : buckets.length = 26 * 26
  sorted : ∀ f l i, i ∈ buckets.getD (slot f l) [] ↔
    ∃ w, words[i]? = some w ∧ w.first = f ∧ w.last = l

namespace SwipeDecoder

def bucket (d : SwipeDecoder) (f l : Letter) : List Nat := d.buckets.getD (slot f l) []

def empty : SwipeDecoder where
  words := []
  buckets := List.replicate (26 * 26) []
  full := List.length_replicate
  sorted f l i := by
    rw [List.getD_eq_getElem?_getD, List.getElem?_replicate, if_pos (slot_lt f l)]
    simp

theorem getD_modify (buckets : List (List Nat)) (n k i : Nat) (there : k < buckets.length) :
    (buckets.modify k (· ++ [i])).getD n [] =
      if n = k then buckets.getD n [] ++ [i] else buckets.getD n [] := by
  rw [List.getD_eq_getElem?_getD, List.getElem?_modify, List.getD_eq_getElem?_getD]
  split
  next same =>
    subst same
    rw [if_pos rfl, List.getElem?_eq_getElem there]
    rfl
  next other =>
    rw [if_neg (Ne.symm other)]
    simp

/-- The place of a further word is put into its own bucket alone. -/
theorem mem_bucket_push {words : List Word} {buckets : List (List Nat)} {w : Word}
    (sorted : ∀ f l i, i ∈ buckets.getD (slot f l) [] ↔
      ∃ w, words[i]? = some w ∧ w.first = f ∧ w.last = l) (f l : Letter) (i : Nat) :
    (i ∈ if slot f l = slot w.first w.last then buckets.getD (slot f l) [] ++ [words.length]
      else buckets.getD (slot f l) []) ↔
        ∃ w', (words ++ [w])[i]? = some w' ∧ w'.first = f ∧ w'.last = l := by
  have earlier (h : ∃ w', words[i]? = some w' ∧ w'.first = f ∧ w'.last = l) :
      ∃ w', (words ++ [w])[i]? = some w' ∧ w'.first = f ∧ w'.last = l := by
    obtain ⟨w', found, ends⟩ := h
    have less := (List.getElem?_eq_some_iff.mp found).1
    exact ⟨w', (List.getElem?_append_left less).trans found, ends⟩
  have later (w' : Word) (found : (words ++ [w])[i]? = some w') :
      words[i]? = some w' ∨ i = words.length ∧ w' = w := by
    rw [List.getElem?_append] at found
    split at found
    next => exact .inl found
    next beyond =>
      obtain ⟨first, same⟩ := List.getElem?_eq_some_iff.mp found
      rw [List.length_singleton] at first
      refine .inr ⟨by omega, ?_⟩
      simpa using same.symm
  split
  next same =>
    obtain ⟨rfl, rfl⟩ := slot_inj.mp same
    rw [List.mem_append, sorted, List.mem_singleton]
    constructor
    · rintro (before | rfl)
      · exact earlier before
      · exact ⟨w, List.getElem?_concat_length, rfl, rfl⟩
    · rintro ⟨w', found, ends⟩
      rcases later w' found with before | ⟨here, -⟩
      · exact .inl ⟨w', before, ends⟩
      · exact .inr here
  next other =>
    rw [sorted]
    constructor
    · exact earlier
    · rintro ⟨w', found, ends⟩
      rcases later w' found with before | ⟨-, rfl⟩
      · exact ⟨w', before, ends⟩
      · obtain ⟨rfl, rfl⟩ := ends
        exact absurd rfl other

def push (d : SwipeDecoder) (w : Word) : SwipeDecoder where
  words := d.words ++ [w]
  buckets := d.buckets.modify (slot w.first w.last) (· ++ [d.words.length])
  full := by rw [List.length_modify, d.full]
  sorted f l i := by
    have there : slot w.first w.last < d.buckets.length := by
      rw [d.full]
      exact slot_lt _ _
    rw [getD_modify _ _ _ _ there]
    exact mem_bucket_push d.sorted f l i

def new (lines : List (List Char)) : SwipeDecoder :=
  lines.foldl (fun d line =>
    match word? line with
    | some w => d.push w
    | none => d) empty

theorem mem_bucket (d : SwipeDecoder) (f l : Letter) (i : Nat) :
    i ∈ d.bucket f l ↔ ∃ w, d.words[i]? = some w ∧ w.first = f ∧ w.last = l := d.sorted f l i

end SwipeDecoder

/-! ## The decoding -/

section Decoding
variable {K : Type} [Field K] [LinearOrder K]

/-- The points of a shape. -/
def N : Nat := 32

/-- `FREQ_WEIGHT` -/
def freqWeight : K := 0.12

/-- The square of the distance. -/
def apart (p k : K × K) : K := (p.1 - k.1) ^ 2 + (p.2 - k.2) ^ 2

def nearest2 (p : K × K) (keyXy : Letter → K × K) : Letter × Letter :=
  let s : Nearest Letter K := (List.finRange 26).foldl (fun s i => s.push i (apart p (keyXy i)))
    { b0 := 0, d0 := none, b1 := 1, d1 := none }
  (s.b0, s.b1)

/-- `max - min`; none where there is nothing. -/
def extent (xs : List K) : K := xs.max?.getD 0 - xs.min?.getD 0

def mean (xs : List K) : K := xs.sum / (xs.length : K)

/-- The centroid at the origin, and the longer side of the box at 1. -/
def normalize (pts : List (K × K)) : List (K × K) :=
  let cx := mean (pts.map (·.1))
  let cy := mean (pts.map (·.2))
  let scale := max (max (extent (pts.map (·.1 - cx))) (extent (pts.map (·.2 - cy)))) 1e-6
  pts.map fun p => ((p.1 - cx) / scale, (p.2 - cy) / scale)

def meanDist (m : PathMetric K (K × K)) (a b : List (K × K)) : K :=
  ((a.zip b).map fun w => m.dist w.1 w.2).sum / (a.length : K)

def shape (m : PathMetric K (K × K)) (pts : List (K × K)) : Option (List (K × K)) :=
  (resample m N (pts.length + N) pts).map normalize

def template (keyXy : Letter → K × K) (w : Word) : List (K × K) := w.letters.map keyXy

namespace SwipeDecoder
variable (d : SwipeDecoder) (m : PathMetric K (K × K)) (keyXy : Letter → K × K)

def candidates (starts ends : Letter × Letter) : List Nat :=
  distinct (d.bucket starts.1 ends.1 ++ d.bucket starts.1 ends.2 ++
    d.bucket starts.2 ends.1 ++ d.bucket starts.2 ends.2)

/-- The blend of the shape with the rank of a candidate, beside the candidate. -/
def scored (g : List (K × K)) (ci : Nat) : Option (K × Nat) := do
  let word ← d.words[ci]?
  let t ← shape m (template keyXy word)
  some (meanDist m g t + freqWeight * ((ci : K) / (d.words.length : K)), ci)

/-- None where the code would not return. -/
def decode (gesture : List (K × K)) (top : Nat) : Option (List Word) :=
  if gesture.length < 2 then some []
  else
    match gesture.head?, gesture.getLast? with
    | some first, some last =>
      let cand := d.candidates (nearest2 first keyXy) (nearest2 last keyXy)
      if cand = [] then some []
      else do
        let g ← shape m gesture
        let scored ← cand.mapM (d.scored m keyXy g)
        ((byScore scored).take top).mapM fun s => d.words[s.2]?
    | _, _ => none

end SwipeDecoder

/-! ## The ranking -/

/-- The letters of the two keys nearest to a point, the nearest first. -/
structure TwoNearest (p : K × K) (keyXy : Letter → K × K) (s : Letter × Letter) : Prop where
  two : s.1 ≠ s.2
  first : ∀ k, apart p (keyXy s.1) ≤ apart p (keyXy k)
  second : ∀ k, k ≠ s.1 → apart p (keyXy s.2) ≤ apart p (keyXy k)

theorem nearest2_two (p : K × K) (keyXy : Letter → K × K) :
    TwoNearest p keyXy (nearest2 p keyXy) := by
  obtain ⟨two, -, -, first, second⟩ := Nearest.of_pass (fun i => apart p (keyXy i))
    (List.finRange 26) (List.nodup_finRange 26) (by simp) 0 1 rfl
  constructor
  · exact two
  · exact fun k => first k (List.mem_finRange k)
  · exact fun k => second k (List.mem_finRange k)

variable [IsStrictOrderedRing K]

/-- The fuel is enough for every path. -/
theorem exists_resample (m : PathMetric K (K × K)) (pts : List (K × K)) :
    ∃ r, resample m N (pts.length + N) pts = some r := by
  unfold resample
  split
  next => exact ⟨_, rfl⟩
  next =>
    split
    next => exact ⟨_, rfl⟩
    next far =>
      have pos : 0 < total m pts := lt_trans (by positivity) (not_le.mp far)
      cases pts with
      | nil => exact absurd pos (lt_irrefl 0)
      | cons p pts =>
          have parts : (0 : K) < (N : K) - 1 := by
            rw [N]
            norm_num
          have positive : 0 < interval m N (p :: pts) := div_pos pos parts
          have length : 0 + m.length (p :: pts) = (31 : ℕ) * interval m N (p :: pts) := by
            rw [zero_add, ← total_eq_length, interval, N]
            push_cast
            field_simp
            norm_num
          obtain ⟨qs, w, -, -, run, -⟩ :=
            loop_run m positive [] pts [p] p 0 31 le_rfl positive length
          have ends := run ((p :: pts).length + N) (by rw [List.length_cons, N]; omega)
          exact ⟨_, congrArg (Option.map _) ends⟩

theorem exists_shape (m : PathMetric K (K × K)) (pts : List (K × K)) :
    ∃ g, shape m pts = some g := by
  obtain ⟨r, done⟩ := exists_resample m pts
  exact ⟨normalize r, congrArg (Option.map normalize) done⟩

/-- The words that begin near the start of a swipe and end near its end, each with its score. -/
structure SwipeDecoder.Ranked (d : SwipeDecoder) (m : PathMetric K (K × K))
    (keyXy : Letter → K × K) (g : List (K × K)) (starts ends : Letter × Letter)
    (ranking : List (K × Nat)) : Prop where
  ahead : ranking.Pairwise Ahead
  all : ∀ ci, (∃ s, (s, ci) ∈ ranking) ↔ ∃ w, d.words[ci]? = some w ∧
    (w.first = starts.1 ∨ w.first = starts.2) ∧ (w.last = ends.1 ∨ w.last = ends.2)
  score : ∀ r ∈ ranking, ∃ w t, d.words[r.2]? = some w ∧ shape m (template keyXy w) = some t ∧
    r.1 = meanDist m g t + freqWeight * ((r.2 : K) / (d.words.length : K))

namespace SwipeDecoder
variable (d : SwipeDecoder) (m : PathMetric K (K × K)) (keyXy : Letter → K × K)

omit [Field K] [LinearOrder K] [IsStrictOrderedRing K] in
theorem mem_candidates (starts ends : Letter × Letter) (ci : Nat) :
    ci ∈ d.candidates starts ends ↔ ∃ w, d.words[ci]? = some w ∧
      (w.first = starts.1 ∨ w.first = starts.2) ∧ (w.last = ends.1 ∨ w.last = ends.2) := by
  simp only [candidates, mem_distinct, List.mem_append, mem_bucket]
  constructor
  · rintro (((⟨w, found, f, l⟩ | ⟨w, found, f, l⟩) | ⟨w, found, f, l⟩) | ⟨w, found, f, l⟩) <;>
      exact ⟨w, found, by simp [f], by simp [l]⟩
  · rintro ⟨w, found, f | f, l | l⟩
    · exact .inl (.inl (.inl ⟨w, found, f, l⟩))
    · exact .inl (.inl (.inr ⟨w, found, f, l⟩))
    · exact .inl (.inr ⟨w, found, f, l⟩)
    · exact .inr ⟨w, found, f, l⟩

theorem exists_scored (g : List (K × K)) {ci : Nat} {w : Word} (found : d.words[ci]? = some w) :
    ∃ t, shape m (template keyXy w) = some t ∧ d.scored m keyXy g ci =
      some (meanDist m g t + freqWeight * ((ci : K) / (d.words.length : K)), ci) := by
  obtain ⟨t, shaped⟩ := exists_shape m (template keyXy w)
  refine ⟨t, shaped, ?_⟩
  rw [scored, found]
  change (shape m (template keyXy w)).bind _ = _
  rw [shaped]
  rfl

/-- The candidates have a score each, and are sorted by it. -/
theorem exists_ranked (g : List (K × K)) (starts ends : Letter × Letter) :
    ∃ scored, (d.candidates starts ends).mapM (d.scored m keyXy g) = some scored ∧
      d.Ranked m keyXy g starts ends (byScore scored) := by
  have each (ci : Nat) (member : ci ∈ d.candidates starts ends) :
      ∃ s, d.scored m keyXy g ci = some (s, ci) ∧ ∃ w t, d.words[ci]? = some w ∧
        shape m (template keyXy w) = some t ∧
        s = meanDist m g t + freqWeight * ((ci : K) / (d.words.length : K)) := by
    obtain ⟨w, found, -⟩ := (d.mem_candidates starts ends ci).mp member
    obtain ⟨t, shaped, score⟩ := d.exists_scored m keyXy g found
    exact ⟨_, score, w, t, found, shaped, rfl⟩
  choose! score given whose using each
  have all : (d.candidates starts ends).mapM (d.scored m keyXy g) =
      some ((d.candidates starts ends).map fun ci => (score ci, ci)) :=
    Pieces.mapM_of_forall given
  refine ⟨_, all, ?_, ?_, ?_⟩
  · apply byScore_ahead
    apply List.pairwise_map.mpr
    exact distinct_increasing _
  · intro ci
    rw [← d.mem_candidates starts ends ci]
    constructor
    · rintro ⟨s, member⟩
      obtain ⟨ci', there, same⟩ := List.mem_map.mp ((byScore_perm _).mem_iff.mp member)
      obtain rfl := congrArg Prod.snd same
      exact there
    · intro there
      refine ⟨score ci, (byScore_perm _).mem_iff.mpr ?_⟩
      exact List.mem_map.mpr ⟨ci, there, rfl⟩
  · intro r member
    obtain ⟨ci, there, rfl⟩ := List.mem_map.mp ((byScore_perm _).mem_iff.mp member)
    exact whose ci there

variable {d m keyXy}

omit [IsStrictOrderedRing K] in
/-- The places of a ranking are places of words. -/
theorem Ranked.words {g : List (K × K)} {starts ends : Letter × Letter} {ranking : List (K × Nat)}
    (h : d.Ranked m keyXy g starts ends ranking) (top : Nat) :
    ∃ out, (ranking.take top).mapM (fun s => d.words[s.2]?) = some out ∧
      out.map some = (ranking.take top).map fun s => d.words[s.2]? := by
  have each (r : K × Nat) (member : r ∈ ranking.take top) : ∃ w, d.words[r.2]? = some w := by
    obtain ⟨w, -, found, -⟩ := h.score r (List.mem_of_mem_take member)
    exact ⟨w, found⟩
  have whose : ∀ r : K × Nat, ∃ w, r ∈ ranking.take top → d.words[r.2]? = some w := by
    intro r
    by_cases member : r ∈ ranking.take top
    · obtain ⟨w, found⟩ := each r member
      exact ⟨w, fun _ => found⟩
    · exact ⟨⟨[0, 0], by decide⟩, fun there => absurd there member⟩
  choose w found using whose
  refine ⟨_, Pieces.mapM_of_forall found, ?_⟩
  rw [List.map_map]
  apply List.map_congr_left
  intro r member
  exact (found r member).symm

variable (d m keyXy)

theorem decode_eq (gesture : List (K × K)) {first last : K × K} (long : 2 ≤ gesture.length)
    (head : gesture.head? = some first) (getLast : gesture.getLast? = some last) (top : Nat) :
    ∃ g ranking out, shape m gesture = some g ∧
      d.Ranked m keyXy g (nearest2 first keyXy) (nearest2 last keyXy) ranking ∧
      d.decode m keyXy gesture top = some out ∧
      out.map some = (ranking.take top).map fun s => d.words[s.2]? := by
  obtain ⟨g, shaped⟩ := exists_shape m gesture
  obtain ⟨scored, all, ranked⟩ :=
    d.exists_ranked m keyXy g (nearest2 first keyXy) (nearest2 last keyXy)
  obtain ⟨out, words, same⟩ := ranked.words top
  refine ⟨g, byScore scored, out, shaped, ranked, ?_, same⟩
  unfold decode
  rw [if_neg (Nat.not_lt.mpr long), head, getLast]
  simp only [shaped, Option.bind_eq_bind, Option.bind_some]
  split
  next none_ =>
    -- then the ranking is empty too
    rw [none_] at all
    obtain rfl : [] = scored := Option.some.inj all
    rw [← words, byScore, List.mergeSort_nil, List.take_nil]
    rfl
  next =>
    rw [all]
    exact words

end SwipeDecoder

/-- For every word list, layout and swipe the decoder gives the best `top` of a ranking of exactly
the words that begin with one of the two letters nearest to the start of the swipe and end with one
of the two nearest to its end: by the score, and for equal scores the more frequent word first. -/
theorem decode_ranked (d : SwipeDecoder) (m : PathMetric K (K × K)) (keyXy : Letter → K × K)
    (first last : K × K) (middle : List (K × K)) (top : Nat) :
    ∃ starts ends g ranking out, TwoNearest first keyXy starts ∧ TwoNearest last keyXy ends ∧
      shape m (first :: (middle ++ [last])) = some g ∧ d.Ranked m keyXy g starts ends ranking ∧
      d.decode m keyXy (first :: (middle ++ [last])) top = some out ∧
      out.map some = (ranking.take top).map fun s => d.words[s.2]? := by
  have long : 2 ≤ (first :: (middle ++ [last])).length := by
    rw [List.length_cons, List.length_append, List.length_singleton]
    omega
  have getLast : (first :: (middle ++ [last])).getLast? = some last := by
    rw [← List.cons_append, List.getLast?_concat]
  obtain ⟨g, ranking, out, shaped, ranked, decoded, same⟩ :=
    d.decode_eq m keyXy (first :: (middle ++ [last])) long rfl getLast top
  exact ⟨_, _, g, ranking, out, nearest2_two first keyXy, nearest2_two last keyXy, shaped, ranked,
    decoded, same⟩

/-- Three words, and a layout with the keys in one row. -/
def SwipeDecoder.three : SwipeDecoder :=
  .new ["to".toList, " the ".toList, "A".toList, "two".toList]

def row (f : Letter) : ℝ × ℝ := (f.val, 0)

example : SwipeDecoder.three.words.map (·.letters.map Fin.val) =
    [[19, 14], [19, 7, 4], [19, 22, 14]] := by
  decide

/-- Of three words a swipe gives three at most. -/
theorem decode_ranked_three : ∃ out,
    SwipeDecoder.three.decode euclid row [row 19, row 22, row 14] 3 = some out ∧
      out.length ≤ 3 := by
  obtain ⟨starts, ends, g, ranking, out, -, -, -, -, decoded, same⟩ :=
    decode_ranked .three euclid row (row 19) (row 14) [row 22] 3
  refine ⟨out, decoded, ?_⟩
  have count := congrArg List.length same
  rw [List.length_map, List.length_map, List.length_take] at count
  omega

/-! ## A swipe along the keys of a word -/

theorem dist_self (m : PathMetric K (K × K)) (p : K × K) : m.dist p p = 0 := by
  have still : along p p (1 : K) = p := by
    rw [along, sub_self, smul_zero, add_zero]
  have there := m.along_right p p 1 zero_le_one le_rfl
  rwa [still, sub_self, zero_mul] at there

theorem meanDist_self (m : PathMetric K (K × K)) (g : List (K × K)) : meanDist m g g = 0 := by
  have zero : ((g.zip g).map fun w => m.dist w.1 w.2).sum = 0 := by
    apply List.sum_eq_zero
    intro x member
    obtain ⟨w, pair, rfl⟩ := List.mem_map.mp member
    have same : w.1 = w.2 := by
      rw [List.zip_eq_zipWith, List.zipWith_self] at pair
      obtain ⟨p, -, rfl⟩ := List.mem_map.mp pair
      rfl
    rw [same]
    exact dist_self m w.2
  rw [meanDist, zero, zero_div]

theorem meanDist_nonneg (m : PathMetric K (K × K)) (g t : List (K × K)) : 0 ≤ meanDist m g t := by
  apply div_nonneg
  · apply List.sum_nonneg
    intro x member
    obtain ⟨w, -, rfl⟩ := List.mem_map.mp member
    exact m.nonneg w.1 w.2
  · exact Nat.cast_nonneg _

theorem eq_of_apart {p k : K × K} (h : apart p k ≤ 0) : p = k := by
  have first := sq_nonneg (p.1 - k.1)
  have second := sq_nonneg (p.2 - k.2)
  unfold apart at h
  have x : p.1 - k.1 = 0 := by
    apply pow_eq_zero_iff two_ne_zero |>.mp
    linarith
  have y : p.2 - k.2 = 0 := by
    apply pow_eq_zero_iff two_ne_zero |>.mp
    linarith
  exact Prod.ext (sub_eq_zero.mp x) (sub_eq_zero.mp y)

/-- At a key, its own letter is the nearest. -/
theorem nearest2_key {keyXy : Letter → K × K} (keys : Function.Injective keyXy) (f : Letter) :
    (nearest2 (keyXy f) keyXy).1 = f := by
  have near := (nearest2_two (keyXy f) keyXy).first f
  have here : apart (keyXy f) (keyXy f) = 0 := by simp [apart]
  rw [here] at near
  exact keys (eq_of_apart near).symm

omit [Field K] [LinearOrder K] [IsStrictOrderedRing K] in
theorem template_head? (keyXy : Letter → K × K) (w : Word) :
    (template keyXy w).head? = some (keyXy w.first) := by
  rw [template, List.head?_map, List.head?_eq_some_head w.letters_ne_nil]
  rfl

omit [Field K] [LinearOrder K] [IsStrictOrderedRing K] in
theorem template_getLast? (keyXy : Letter → K × K) (w : Word) :
    (template keyXy w).getLast? = some (keyXy w.last) := by
  rw [template, List.getLast?_map, List.getLast?_eq_some_getLast w.letters_ne_nil]
  rfl

/-- What beats a score that is all frequency: a word that is more frequent, by no less than its
shape is off. -/
theorem of_ahead {i j n : Nat} {s : K} (some : 0 < n) (off : 0 ≤ s)
    (h : Ahead (s + freqWeight * ((j : K) / (n : K)), j)
      (0 + freqWeight * ((i : K) / (n : K)), i)) :
    j < i ∧ s ≤ freqWeight * (((i : K) - (j : K)) / (n : K)) := by
  have whole : (0 : K) < (n : K) := by exact_mod_cast some
  have weight : (0 : K) < freqWeight := by
    rw [freqWeight]
    norm_num
  have spread : (freqWeight : K) * (((i : K) - (j : K)) / (n : K)) =
      freqWeight * ((i : K) / (n : K)) - freqWeight * ((j : K) / (n : K)) := by
    rw [sub_div, mul_sub]
  rw [spread]
  rcases h with less | ⟨same, less⟩
  · constructor
    · have part : freqWeight * ((j : K) / (n : K)) < freqWeight * ((i : K) / (n : K)) := by
        linarith
      have below := (div_lt_div_iff_of_pos_right whole).mp (lt_of_mul_lt_mul_left part weight.le)
      exact_mod_cast below
    · linarith
  · exact ⟨less, by linarith⟩

/-- A swipe along the keys of a listed word gives that word, behind at most words that are more
frequent and whose shape is off by no more than the weight of the difference in frequency. -/
theorem decode_traced (d : SwipeDecoder) (m : PathMetric K (K × K)) (keyXy : Letter → K × K)
    (keys : Function.Injective keyXy) (i : Nat) (w : Word) (listed : d.words[i]? = some w)
    (top : Nat) :
    ∃ ahead behind, d.decode m keyXy (template keyXy w) top =
        some ((ahead ++ w :: behind).take top) ∧
      ∀ v ∈ ahead, ∃ j < i, d.words[j]? = some v ∧ ∃ g t, shape m (template keyXy w) = some g ∧
        shape m (template keyXy v) = some t ∧
        meanDist m g t ≤ freqWeight * (((i : K) - (j : K)) / (d.words.length : K)) := by
  have long : 2 ≤ (template keyXy w).length := by
    rw [template, List.length_map]
    exact w.long
  obtain ⟨g, ranking, out, shaped, ranked, decoded, same⟩ :=
    d.decode_eq m keyXy _ long (template_head? keyXy w) (template_getLast? keyXy w) top
  obtain ⟨full, -, whole⟩ := ranked.words ranking.length
  rw [List.take_length] at whole
  -- the word is ranked, with a score that is all frequency
  obtain ⟨s, member⟩ := (ranked.all i).mpr
    ⟨w, listed, .inl (nearest2_key keys w.first).symm, .inl (nearest2_key keys w.last).symm⟩
  obtain ⟨w', t, found, drawn, score⟩ := ranked.score _ member
  obtain rfl : w = w' := Option.some.inj (listed.symm.trans found)
  obtain rfl : g = t := Option.some.inj (shaped.symm.trans drawn)
  rw [meanDist_self] at score
  obtain ⟨before, after, split⟩ := List.append_of_mem member
  rw [split, List.map_append, List.map_cons, listed] at whole
  obtain ⟨ahead, tail, rfl, front, rest⟩ := List.map_eq_append_iff.mp whole
  obtain ⟨w', behind, rfl, here, -⟩ := List.map_eq_cons_iff.mp rest
  obtain rfl : w' = w := Option.some.inj here
  refine ⟨ahead, behind, ?_, ?_⟩
  · rw [decoded]
    apply congrArg some
    apply List.map_injective_iff.mpr (Option.some_injective Word)
    rw [same, List.map_take, List.map_take, split, List.map_append, List.map_cons, listed, whole]
  · intro v member
    have there : some v ∈ before.map fun s => d.words[s.2]? := by
      rw [← front]
      exact List.mem_map_of_mem member
    obtain ⟨r, placed, word⟩ := List.mem_map.mp there
    obtain ⟨v', t, found, drawn, value⟩ := ranked.score r (by
      rw [split]
      exact List.mem_append_left _ placed)
    obtain rfl : v' = v := Option.some.inj (found.symm.trans word)
    have beats : Ahead r (s, i) := by
      have order := ranked.ahead
      rw [split] at order
      exact (List.pairwise_append.mp order).2.2 r placed (s, i) (List.mem_cons_self ..)
    have some : 0 < d.words.length := Nat.zero_lt_of_lt (List.getElem?_eq_some_iff.mp listed).1
    obtain ⟨score', j⟩ := r
    simp only at value score found
    rw [value, score] at beats
    obtain ⟨less, close⟩ := of_ahead some (meanDist_nonneg m g t) beats
    exact ⟨j, less, found, g, t, shaped, drawn, close⟩

theorem row_injective : Function.Injective row := by
  intro f f' same
  have first : (f.val : ℝ) = f'.val := congrArg Prod.fst same
  ext
  exact_mod_cast first

/-- The most frequent word is what a swipe along its keys gives. -/
theorem decode_traced_most :
    ∃ w, SwipeDecoder.three.words[0]? = some w ∧
      SwipeDecoder.three.decode euclid row (template row w) 1 = some [w] := by
  have listed : SwipeDecoder.three.words[0]? = some ⟨[19, 14], by decide⟩ := by decide
  obtain ⟨ahead, behind, decoded, each⟩ :=
    decode_traced .three euclid row row_injective 0 _ listed 1
  refine ⟨_, listed, ?_⟩
  have none_ : ahead = [] := by
    apply List.eq_nil_iff_forall_not_mem.mpr
    intro v member
    obtain ⟨j, less, -⟩ := each v member
    exact Nat.not_lt_zero j less
  rw [decoded, none_]
  rfl

end Decoding
end Swipe
end ReachMyDevice
