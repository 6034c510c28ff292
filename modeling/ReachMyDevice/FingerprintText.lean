import ReachMyDevice.ChannelBinding
import ReachMyDevice.KnownPeers
import ReachMyDevice.Lib.Words

/-!
# The fingerprints of a description

An attribute names a hash function and a value, with blanks around and between
them, in upper or lower case. A description may have several, at session level and
at media level.
-/
namespace ReachMyDevice
open Words

def upper (l : List Char) : List Char := l.map Char.toUpper

/-- What stands behind the name, in the first line that begins with it. -/
def firstAttribute (sdp : List Char) : Option (List Char) :=
  (sdp.splitOn '\n').findSome? fun line => stripPrefix "a=fingerprint:".toList (trim line)

/-- What stands behind the name in each line, whatever ends the lines and whatever case the name
is in. It is in upper case. -/
def attributes (sdp : List Char) : List (List Char) :=
  (sdp.splitOnP fun c => c == '\n' || c == '\r').filterMap fun line =>
    stripPrefix (upper "a=fingerprint:".toList) (upper (trim line))

/-- The hash function and the value that an attribute names. -/
def denotes (a : List Char) : Option (List Char × List Char) :=
  match words isWhitespace (upper a) with
  | [hash, value] => some (hash, value)
  | _ => none

variable {J : Type} (sdp : J → Option String)

/-- The value that is bound is the only fingerprint there is. -/
def Unambiguous (json : J) : Prop :=
  ∀ v, fingerprintFromSessionJson sdp json = some v → ∃ d, denotes v.toList = some d ∧
    ∀ text, sdp json = some text → ∀ a ∈ attributes text.toList, denotes a = some d

/-- Two descriptions are bound to one value exactly if they have one fingerprint. -/
def Stable (json json' : J) : Prop :=
  ∀ v v' d d', fingerprintFromSessionJson sdp json = some v →
    fingerprintFromSessionJson sdp json' = some v' →
      denotes v.toList = some d → denotes v'.toList = some d' → (v = v' ↔ d = d')

/-- If a line begins with the name, then it names a fingerprint, and all attributes name it. -/
def OneFingerprint (json : J) : Prop :=
  ∀ text rest, sdp json = some text → firstAttribute text.toList = some rest →
    ∃ d, denotes rest = some d ∧ ∀ a ∈ attributes text.toList, denotes a = some d

def gap (a : List Char) : List Char := (trim a).filter isWhitespace

/-- Where the first lines name one fingerprint, they have the same blanks between its words. -/
def SameGap (json json' : J) : Prop :=
  ∀ text text' rest rest' d, sdp json = some text → sdp json' = some text' →
    firstAttribute text.toList = some rest → firstAttribute text'.toList = some rest' →
      denotes rest = some d → denotes rest' = some d → gap rest = gap rest'

/-! ## Upper case -/

theorem toNat_toUpper : ∀ n < 123, 97 ≤ n → (Char.ofNat n).toUpper.toNat + 32 = n := by decide

theorem toUpper_cases (c : Char) : c.toUpper = c ∨
    97 ≤ c.toNat ∧ c.toNat ≤ 122 ∧ c.toUpper.toNat + 32 = c.toNat := by
  by_cases lower : 'a'.val ≤ c.val ∧ c.val ≤ 'z'.val
  · have low : 97 ≤ c.toNat := UInt32.le_iff_toNat_le.mp lower.1
    have high : c.toNat ≤ 122 := UInt32.le_iff_toNat_le.mp lower.2
    have moved := toNat_toUpper c.toNat (Nat.lt_succ_of_le high) low
    rw [Char.ofNat_toNat] at moved
    exact .inr ⟨low, high, moved⟩
  · exact .inl (dif_neg lower)

theorem isWhitespace_toUpper (c : Char) : isWhitespace c.toUpper = isWhitespace c := by
  obtain same | ⟨low, high, moved⟩ := toUpper_cases c
  · rw [same]
  · have before : isWhitespace c = false := by
      simp only [isWhitespace]
      simp
      omega
    have behind : isWhitespace c.toUpper = false := by
      simp only [isWhitespace]
      simp
      omega
    rw [before, behind]

theorem toUpper_of_isWhitespace {c : Char} (h : isWhitespace c = true) : c.toUpper = c := by
  obtain same | ⟨low, high, -⟩ := toUpper_cases c
  · exact same
  · simp [isWhitespace] at h
    omega

theorem toUpper_toUpper (c : Char) : c.toUpper.toUpper = c.toUpper := by
  obtain same | ⟨low, high, moved⟩ := toUpper_cases c
  · rw [same, same]
  · obtain same | ⟨low', high', -⟩ := toUpper_cases c.toUpper
    · exact same
    · omega

theorem upper_upper (l : List Char) : upper (upper l) = upper l := by
  rw [upper, upper, List.map_map]
  exact List.map_congr_left fun c _ => toUpper_toUpper c

/-- The blanks are not changed. -/
theorem filter_upper (l : List Char) :
    (upper l).filter isWhitespace = l.filter isWhitespace := by
  rw [upper, List.filter_map]
  have same : l.filter (isWhitespace ∘ Char.toUpper) = l.filter isWhitespace :=
    List.filter_congr fun c _ => isWhitespace_toUpper c
  rw [same]
  conv_rhs => rw [← List.map_id (l.filter isWhitespace)]
  exact List.map_congr_left fun c member => toUpper_of_isWhitespace (List.mem_filter.mp member).2

theorem words_upper (l : List Char) :
    words isWhitespace (upper l) = (words isWhitespace l).map upper :=
  words_map isWhitespace_toUpper l

theorem words_trim (l : List Char) : words isWhitespace (trim l) = words isWhitespace l :=
  (words_rdropWhile _).trans (words_dropWhile l)

theorem trimmed_upper_trim (l : List Char) : Trimmed isWhitespace (upper (trim l)) :=
  (trimmed_dropWhile l).map isWhitespace_toUpper

/-! ## What is bound -/

variable {sdp}

theorem denotes_upper_trim (rest : List Char) : denotes (upper (trim rest)) = denotes rest := by
  rw [denotes, denotes, upper_upper, words_upper, words_upper, words_trim]

/-- What is bound of a first line. -/
def binding (rest : List Char) : String := String.ofList (upper (trim rest))

/-- It denotes what the line does. -/
theorem denotes_binding (rest : List Char) : denotes (binding rest).toList = denotes rest := by
  rw [binding, String.toList_ofList, denotes_upper_trim]

theorem dtlsFingerprintFromSdp_eq (text : String) :
    dtlsFingerprintFromSdp text = (firstAttribute text.toList).map binding := by
  rw [dtlsFingerprintFromSdp, firstAttribute, List.map_findSome?]
  rfl

theorem bound_iff {json : J} {v : String} : fingerprintFromSessionJson sdp json = some v ↔
    ∃ text rest, sdp json = some text ∧ firstAttribute text.toList = some rest ∧
      binding rest = v := by
  rw [fingerprintFromSessionJson, Option.bind_eq_some_iff]
  refine exists_congr fun text => ?_
  rw [dtlsFingerprintFromSdp_eq, Option.map_eq_some_iff, exists_and_left]

theorem denotes_eq_some_iff {a : List Char} {d : List Char × List Char} :
    denotes a = some d ↔ words isWhitespace (upper a) = [d.1, d.2] := by
  unfold denotes
  constructor
  · intro names
    split at names
    · rename_i two
      cases names
      exact two
    · cases names
  · intro two
    rw [two]

/-- What is bound is two words and the blanks between them. -/
theorem binding_eq {rest : List Char} {d : List Char × List Char} (names : denotes rest = some d) :
    binding rest = String.ofList (d.1 ++ gap rest ++ d.2) := by
  rw [← denotes_upper_trim, denotes_eq_some_iff, upper_upper] at names
  have parts := (trimmed_upper_trim rest).eq_of_two names
  rw [filter_upper] at parts
  exact congrArg String.ofList parts

theorem unambiguous_iff {json : J} : Unambiguous sdp json ↔ OneFingerprint sdp json := by
  constructor
  · intro only text rest found first
    obtain ⟨d, names, all⟩ := only _ (bound_iff.mpr ⟨text, rest, found, first, rfl⟩)
    rw [denotes_binding] at names
    exact ⟨d, names, all text found⟩
  · intro one v bound
    obtain ⟨text, rest, found, first, rfl⟩ := bound_iff.mp bound
    obtain ⟨d, names, all⟩ := one text rest found first
    refine ⟨d, (denotes_binding rest).trans names, fun text' found' => ?_⟩
    cases found.symm.trans found'
    exact all

theorem stable_iff {json json' : J} : Stable sdp json json' ↔ SameGap sdp json json' := by
  constructor
  · intro stable text text' rest rest' d found found' first first' names names'
    have same := stable (binding rest) (binding rest') d d
      (bound_iff.mpr ⟨text, rest, found, first, rfl⟩)
      (bound_iff.mpr ⟨text', rest', found', first', rfl⟩)
      ((denotes_binding rest).trans names) ((denotes_binding rest').trans names')
    have texts : upper (trim rest) = upper (trim rest') := String.ofList_injective (same.mpr rfl)
    rw [gap, gap, ← filter_upper, texts, filter_upper]
  · intro gaps v v' d d' bound bound' names names'
    obtain ⟨text, rest, found, first, rfl⟩ := bound_iff.mp bound
    obtain ⟨text', rest', found', first', rfl⟩ := bound_iff.mp bound'
    constructor
    · intro same
      rw [same] at names
      exact Option.some.inj (names.symm.trans names')
    · rintro rfl
      rw [denotes_binding] at names names'
      rw [binding_eq names, binding_eq names',
        gaps text text' rest rest' d found found' first first' names names']

/-- A description binds its only fingerprint exactly if the attributes agree, however they are
written; two descriptions with one fingerprint bind the same exactly if it is written with the same
blanks. -/
theorem fingerprint_bound_iff (sdp : J → Option String) (json json' : J) :
    (Unambiguous sdp json ↔ OneFingerprint sdp json) ∧
      (Stable sdp json json' ↔ SameGap sdp json json') :=
  ⟨unambiguous_iff, stable_iff⟩

/-- The attributes of a session and of its media differ, and only the first one is bound; and of one
fingerprint, written with one blank and with two, two values are bound. -/
theorem overlooked_fingerprint :
    (∃ text : String, fingerprintFromSessionJson some text = some "SHA-256 AB:CD" ∧
      attributes text.toList = ["SHA-256 AB:CD".toList, "SHA-256 12:34".toList] ∧
      ¬Unambiguous some text) ∧
    ¬Stable some "a=fingerprint:sha-256 AB:CD\r\n" "a=fingerprint:sha-256  ab:cd\r\n" := by
  have bound : fingerprintFromSessionJson some
      "v=0\r\na=fingerprint:sha-256 AB:CD\r\nm=video\r\na=fingerprint:sha-256 12:34\r\n" =
        some "SHA-256 AB:CD" := by decide +kernel
  have listed : attributes
      "v=0\r\na=fingerprint:sha-256 AB:CD\r\nm=video\r\na=fingerprint:sha-256 12:34\r\n".toList =
        ["SHA-256 AB:CD".toList, "SHA-256 12:34".toList] := by decide +kernel
  refine ⟨⟨_, bound, listed, fun only => ?_⟩, fun stable => ?_⟩
  · obtain ⟨d, -, all⟩ := only _ bound
    have both := all _ rfl
    rw [listed] at both
    have first := both _ List.mem_cons_self
    have second := both _ (List.mem_cons_of_mem _ List.mem_cons_self)
    exact absurd (first.trans second.symm) (by decide +kernel)
  · have same := stable "SHA-256 AB:CD" "SHA-256  AB:CD" ("SHA-256".toList, "AB:CD".toList)
      ("SHA-256".toList, "AB:CD".toList) (by decide +kernel) (by decide +kernel)
      (by decide +kernel) (by decide +kernel)
    exact absurd (same.mpr rfl) (by decide)

end ReachMyDevice
