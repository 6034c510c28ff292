import Mathlib.Data.List.DropRight
import ReachMyDevice.Identity
import ReachMyDevice.Lib.Delimited
import ReachMyDevice.Lib.Writes
import ReachMyDevice.Lib.Machine
import ReachMyDevice.Lib.Words

/-!
# The trust store

The `known_peers` file, one line `device_id public_key_hex` for each peer, against
the map that it stands for. An id ends at the first blank of its line, and a key
loses the blanks around it. A write that fails may leave a part of its line.
-/
namespace ReachMyDevice
open Machines

/-- The bytes of the file; `none` is a file that does not exist. -/
abbrev KnownPeers := Option Bytes

/-- What becomes of a line that is appended. -/
inductive Appended
  | whole
  /-- The directory or the file cannot be opened. -/
  | refused (e : String)
  /-- The first bytes of the line are written. -/
  | partly (e : String) (n : Nat)
  deriving DecidableEq, Repr

/-- Whether the file can be read, by a call and then by its `add`, and what becomes of the line. -/
structure PeersIo where
  reads : Bool
  readsAgain : Bool
  appended : Appended
  deriving DecidableEq, Repr

/-- Nothing fails. -/
def goodIo : PeersIo := ⟨true, true, .whole⟩

inductive PeersError
  | io (e : String)
  | differentKey (deviceId : String)
  deriving DecidableEq, Repr

def PeersError.text : PeersError → String
  | .io e => e
  | .differentKey deviceId =>
    s!"device {deviceId} presented a DIFFERENT key than remembered — refusing (possible MITM)"

namespace KnownPeers

/-- A file that is not UTF-8 cannot be read. -/
def readToString (peers : KnownPeers) (reads : Bool) : Option String :=
  if reads then peers.bind fromUtf8 else none

/-- The key of a line that names `deviceId`. Trimming also removes what is left of a line end. -/
def keyOf (deviceId : String) (line : List Char) : Option String :=
  match Delimited.splitOnce ' ' line with
  | some (id, key) => if id = deviceId.toList then some (String.ofList (trim key)) else none
  | none => none

def lookup (content : List Char) (deviceId : String) : Option String :=
  (content.splitOn '\n').findSome? (keyOf deviceId)

def get (peers : KnownPeers) (reads : Bool) (deviceId : String) : Option String :=
  (peers.readToString reads).bind fun content => lookup content.toList deviceId

def line (deviceId publicKeyHex : String) : List Char :=
  deviceId.toList ++ ' ' :: publicKeyHex.toList ++ ['\n']

/-- The bytes of a line. -/
def lineBytes (deviceId publicKeyHex : String) : Bytes :=
  utf8 (String.ofList (line deviceId publicKeyHex))

/-- Whether the peer was added, and the file afterwards. What a write has left stays. -/
def add (peers : KnownPeers) (reads : Bool) (appended : Appended) (deviceId publicKeyHex : String) :
    Except PeersError Bool × KnownPeers :=
  if (peers.get reads deviceId).isSome then (.ok false, peers)
  else match appended with
    | .whole => (.ok true, some (peers.getD [] ++ lineBytes deviceId publicKeyHex))
    | .refused e => (.error (.io e), peers)
    | .partly e n =>
      (.error (.io e), some (peers.getD [] ++ (lineBytes deviceId publicKeyHex).dropLast.take n))

def trustOnFirstUse (peers : KnownPeers) (io : PeersIo) (deviceId publicKeyHex : String) :
    Except PeersError Bool × KnownPeers :=
  match peers.get io.reads deviceId with
  | some known =>
    if known = publicKeyHex then (.ok false, peers) else (.error (.differentKey deviceId), peers)
  | none => peers.add io.readsAgain io.appended deviceId publicKeyHex

end KnownPeers

inductive PeerCall
  | get (deviceId : String) (reads : Bool)
  | add (deviceId publicKeyHex : String) (reads : Bool) (appended : Appended)
  | trustOnFirstUse (deviceId publicKeyHex : String) (io : PeersIo)

def PeerCall.deviceId : PeerCall → String
  | .get deviceId _ | .add deviceId .. | .trustOnFirstUse deviceId .. => deviceId

inductive PeerAnswer
  | key (found : Option String)
  | added (new : Bool)
  | failed (e : PeersError)
  deriving DecidableEq

def PeerAnswer.ofAdded {α : Type} : Except PeersError Bool × α → PeerAnswer × α
  | (.ok new, after) => (.added new, after)
  | (.error e, after) => (.failed e, after)

/-- What a call answers, and the file after it. -/
def KnownPeers.call (peers : KnownPeers) : PeerCall → PeerAnswer × KnownPeers
  | .get deviceId reads => (.key (peers.get reads deviceId), peers)
  | .add deviceId publicKeyHex reads appended =>
    PeerAnswer.ofAdded (peers.add reads appended deviceId publicKeyHex)
  | .trustOnFirstUse deviceId publicKeyHex io =>
    PeerAnswer.ofAdded (peers.trustOnFirstUse io deviceId publicKeyHex)

/-! ## The map -/

abbrev PeerMap := String → Option String

namespace PeerMap
variable (map : PeerMap)

/-- An entry that cannot be written is not added. -/
def add (appended : Appended) (deviceId publicKeyHex : String) : Except PeersError Bool × PeerMap :=
  match map deviceId, appended with
  | none, .refused e | none, .partly e _ => (.error (.io e), map)
  | _, _ =>
    let out := FirstWrite.add map deviceId publicKeyHex
    (.ok out.1, out.2)

def trustOnFirstUse (appended : Appended) (deviceId publicKeyHex : String) :
    Except PeersError Bool × PeerMap :=
  if (map deviceId).any (· ≠ publicKeyHex) then (.error (.differentKey deviceId), map)
  else map.add appended deviceId publicKeyHex

/-- What each call should answer. -/
def call : PeerCall → PeerAnswer × PeerMap
  | .get deviceId _ => (.key (map deviceId), map)
  | .add deviceId publicKeyHex _ appended =>
    PeerAnswer.ofAdded (map.add appended deviceId publicKeyHex)
  | .trustOnFirstUse deviceId publicKeyHex io =>
    PeerAnswer.ofAdded (map.trustOnFirstUse io.appended deviceId publicKeyHex)

variable {map}

section
variable {deviceId publicKeyHex known : String}

theorem add_known (there : map deviceId = some known) (appended : Appended) :
    map.add appended deviceId publicKeyHex = (.ok false, map) := by
  simp only [add, there]
  rw [FirstWrite.add_known (by rw [there]; rfl)]

theorem add_new (new : map deviceId = none) : map.add .whole deviceId publicKeyHex =
    (.ok true, Function.update map deviceId (some publicKeyHex)) := by
  simp only [add, new]
  rw [FirstWrite.add_new new]

theorem add_refused (new : map deviceId = none) (e : String) :
    map.add (.refused e) deviceId publicKeyHex = (.error (.io e), map) := by
  simp only [add, new]

theorem add_partly (new : map deviceId = none) (e : String) (n : Nat) :
    map.add (.partly e n) deviceId publicKeyHex = (.error (.io e), map) := by
  simp only [add, new]

/-- A call that does not ask for a different key is an `add`. -/
theorem trust_new (new : map deviceId = none) (appended : Appended) :
    map.trustOnFirstUse appended deviceId publicKeyHex = map.add appended deviceId publicKeyHex := by
  rw [trustOnFirstUse, new]
  rfl

theorem trust_known (there : map deviceId = some known) (appended : Appended) :
    map.trustOnFirstUse appended deviceId publicKeyHex =
      if known = publicKeyHex then (.ok false, map) else (.error (.differentKey deviceId), map) := by
  rw [trustOnFirstUse, there, add_known there]
  by_cases same : known = publicKeyHex
  · rw [if_pos same, if_neg (by simp [same])]
  · rw [if_neg same, if_pos (by simp [same])]

end

theorem extends_add (appended : Appended) (deviceId publicKeyHex : String) :
    FirstWrite.Extends map (map.add appended deviceId publicKeyHex).2 := by
  unfold add
  split
  · exact FirstWrite.Extends.refl map
  · exact FirstWrite.Extends.refl map
  · exact FirstWrite.extends_add deviceId publicKeyHex

theorem ofAdded_snd {α : Type} (out : Except PeersError Bool × α) :
    (PeerAnswer.ofAdded out).2 = out.2 := by
  obtain ⟨e | new, after⟩ := out
  · rfl
  · rfl

/-- A call keeps what is there. -/
theorem extends_call (c : PeerCall) : FirstWrite.Extends map (map.call c).2 := by
  cases c with
  | get deviceId reads => exact FirstWrite.Extends.refl map
  | add deviceId publicKeyHex reads appended =>
      rw [call, ofAdded_snd]
      exact extends_add appended deviceId publicKeyHex
  | trustOnFirstUse deviceId publicKeyHex io =>
      rw [call, ofAdded_snd, trustOnFirstUse]
      split
      · exact FirstWrite.Extends.refl map
      · exact extends_add io.appended deviceId publicKeyHex

theorem add_other {deviceId id : String} (other : id ≠ deviceId) (appended : Appended)
    (publicKeyHex : String) : (map.add appended deviceId publicKeyHex).2 id = map id := by
  unfold add
  split
  · rfl
  · rfl
  · exact FirstWrite.add_other other publicKeyHex

/-- A call changes no entry but its own. -/
theorem call_other (c : PeerCall) {id : String} (other : id ≠ c.deviceId) :
    (map.call c).2 id = map id := by
  cases c with
  | get deviceId reads => rfl
  | add deviceId publicKeyHex reads appended =>
      rw [call, ofAdded_snd]
      exact add_other other appended publicKeyHex
  | trustOnFirstUse deviceId publicKeyHex io =>
      rw [call, ofAdded_snd, trustOnFirstUse]
      split
      · rfl
      · exact add_other other io.appended publicKeyHex

end PeerMap

/-! ## Lines -/

/-- An id that a line can hold. -/
def PlainId (deviceId : String) : Prop := ' ' ∉ deviceId.toList ∧ '\n' ∉ deviceId.toList

/-- A key that a line can hold. -/
def PlainKey (publicKeyHex : String) : Prop :=
  '\n' ∉ publicKeyHex.toList ∧ trim publicKeyHex.toList = publicKeyHex.toList

namespace KnownPeers
variable {peers : KnownPeers} {content : List Char} {deviceId publicKeyHex : String}

/-- The text of the file; without a file there is none. -/
def Holds (peers : KnownPeers) (content : List Char) : Prop :=
  peers.getD [] = utf8 (String.ofList content)

/-- A text that ends with the end of a line. -/
def Closed (content : List Char) : Prop := content = [] ∨ ∃ lines, content = lines ++ ['\n']

theorem holds_nil : Holds none [] := rfl

theorem Holds.get (holds : peers.Holds content) (id : String) :
    peers.get true id = lookup content id := by
  have read : fromUtf8 (peers.getD []) = some (String.ofList content) := by
    rw [show peers.getD [] = _ from holds, fromUtf8_utf8]
  cases peers with
  | none =>
      have empty : fromUtf8 [] = some "" := fromUtf8_utf8 ""
      have nil : content = [] := by
        have same := congrArg String.toList (Option.some.inj (empty.symm.trans read))
        exact (same.trans String.toList_ofList).symm
      rw [nil]
      rfl
  | some bytes =>
      show ((fromUtf8 bytes).bind _) = _
      rw [show fromUtf8 bytes = _ from read, Option.bind_some, String.toList_ofList]

theorem Holds.append (holds : peers.Holds content) (more : List Char) :
    Holds (some (peers.getD [] ++ utf8 (String.ofList more))) (content ++ more) := by
  rw [Holds, Option.getD_some, show peers.getD [] = _ from holds]
  simp only [utf8, String.toList_ofList, List.flatMap_append]

/-- Each line of a closed text counts. -/
theorem lookup_append (closed : Closed content) (more : List Char) (id : String) :
    lookup (content ++ more) id = (lookup content id).or (lookup more id) := by
  obtain rfl | ⟨lines, rfl⟩ := closed
  · rfl
  · rw [List.append_assoc]
    show List.findSome? _ ((lines ++ '\n' :: more).splitOn '\n') =
      (List.findSome? _ ((lines ++ '\n' :: []).splitOn '\n')).or _
    rw [List.splitOn_append_cons_self, List.splitOn_append_cons_self, List.findSome?_append,
      List.findSome?_append]
    show _ = (Option.or _ (none)).or _
    rw [Option.or_none]
    rfl

theorem trim_sublist (l : List Char) : (trim l).Sublist l :=
  (List.rdropWhile_prefix _ _).sublist.trans (List.dropWhile_sublist _)

theorem trim_trim (l : List Char) : trim (trim l) = trim l :=
  (Words.trimmed_dropWhile l).ends

/-- An answer is in a line, which can hold its id and its key. -/
theorem keyOf_plain {id key : String} {l : List Char} (whole : '\n' ∉ l) (h : keyOf id l = some key) :
    PlainId id ∧ PlainKey key := by
  rw [keyOf] at h
  split at h
  · rename_i id' key' parts
    obtain ⟨named, eq⟩ := Option.ite_none_right_eq_some.mp h
    cases eq
    obtain ⟨plain, rfl⟩ := Delimited.splitOnce_eq_some_iff.mp parts
    subst named
    refine ⟨⟨plain, fun member => whole (List.mem_append_left _ member)⟩, ?_⟩
    rw [PlainKey, String.toList_ofList]
    refine ⟨fun member => whole ?_, trim_trim key'⟩
    exact List.mem_append_right _ (List.mem_cons_of_mem _ ((trim_sublist key').subset member))
  · cases h

theorem lookup_plain {id key : String} (h : lookup content id = some key) :
    PlainId id ∧ PlainKey key := by
  obtain ⟨l, member, here⟩ := List.exists_of_findSome?_eq_some h
  exact keyOf_plain (Words.not_mem_of_splitOn member) here

/-- A line of a plain id and a plain key is read as it was meant. -/
theorem lookup_line (plainId : PlainId deviceId) (plainKey : PlainKey publicKeyHex) (id : String) :
    lookup (line deviceId publicKeyHex) id = if id = deviceId then some publicKeyHex else none := by
  obtain ⟨noBlank, noEnd⟩ := plainId
  obtain ⟨whole, trimmed⟩ := plainKey
  have one : '\n' ∉ deviceId.toList ++ ' ' :: publicKeyHex.toList := by
    rw [List.mem_append, List.mem_cons]
    rintro (member | same | member)
    · exact noEnd member
    · cases same
    · exact whole member
  have first : keyOf id (deviceId.toList ++ ' ' :: publicKeyHex.toList) =
      if id = deviceId then some publicKeyHex else none := by
    simp only [keyOf, Delimited.splitOnce_append noBlank, trimmed, String.ofList_toList,
      String.toList_inj, eq_comm]
  show List.findSome? (keyOf id) (((deviceId.toList ++ ' ' :: publicKeyHex.toList) ++ '\n' :: []).splitOn
    '\n') = _
  rw [List.splitOn_append_cons_self_of_not_mem one, List.findSome?_cons, first]
  split
  · rename_i found
    exact found.symm
  · rename_i nothing
    exact nothing.symm

theorem closed_line (content : List Char) (deviceId publicKeyHex : String) :
    Closed (content ++ line deviceId publicKeyHex) :=
  .inr ⟨_, (List.append_assoc ..).symm⟩

/-! ## The file and the map -/

section
variable {reads : Bool} {appended : Appended}

theorem add_known {known : String} (there : peers.get reads deviceId = some known) :
    peers.add reads appended deviceId publicKeyHex = (.ok false, peers) := by
  unfold add
  rw [there, Option.isSome_some, if_pos rfl]

/-- What is written for an id that was not found. -/
theorem add_new (new : peers.get reads deviceId = none) :
    peers.add reads appended deviceId publicKeyHex = match appended with
      | .whole => (.ok true, some (peers.getD [] ++ lineBytes deviceId publicKeyHex))
      | .refused e => (.error (.io e), peers)
      | .partly e n =>
        (.error (.io e), some (peers.getD [] ++ (lineBytes deviceId publicKeyHex).dropLast.take n)) := by
  unfold add
  rw [new, Option.isSome_none, if_neg Bool.false_ne_true]

/-- A file that is not read has no key. -/
theorem get_unread : peers.get false deviceId = none := rfl

theorem get_of_read {key : String} (found : peers.get reads deviceId = some key) :
    peers.get true deviceId = some key := by
  cases reads with
  | true => exact found
  | false => cases found

theorem get_of_unknown (unknown : peers.get true deviceId = none) (reads : Bool) :
    peers.get reads deviceId = none := by
  cases reads with
  | true => exact unknown
  | false => rfl

end

end KnownPeers

/-- A file, the map that it stands for, and the answers of both to each call, newest first. -/
structure TrustHistory where
  file : KnownPeers
  map : PeerMap
  answers : List (PeerAnswer × PeerAnswer)

/-- What is written for an id that is not known can be held by a line, and what cannot be written
leaves nothing. -/
def Appended.Storable (deviceId publicKeyHex : String) : Appended → Prop
  | .whole => PlainId deviceId ∧ PlainKey publicKeyHex
  | .refused _ => True
  | .partly _ n => n = 0

/-- A write that fails leaves a part of its line. -/
def Appended.breaksOff : Appended → Bool
  | .partly _ n => n ≠ 0
  | _ => false

def PeerCall.breaksOff : PeerCall → Bool
  | .get .. => false
  | .add _ _ _ appended => appended.breaksOff
  | .trustOnFirstUse _ _ io => io.appended.breaksOff

namespace TrustHistory
variable (h : TrustHistory)

def called (c : PeerCall) : TrustHistory where
  file := (h.file.call c).2
  map := (h.map.call c).2
  answers := ((h.file.call c).1, (h.map.call c).1) :: h.answers

/-- A file that is there already is a text that ends with a line end, and stands for what it
answers. -/
def machine : Machine TrustHistory PeerCall where
  init h := (∃ content, h.file.Holds content ∧ KnownPeers.Closed content) ∧
    h.map = h.file.get true ∧ h.answers = []
  step h c := some (h.called c)

/-- The key of an id that is known is read; what is written for another can be read. -/
def Storable : PeerCall → Prop
  | .get deviceId reads => (h.file.get true deviceId).isSome = true → reads = true
  | .add deviceId publicKeyHex reads appended =>
    match h.file.get true deviceId with
    | some _ => reads = true
    | none => appended.Storable deviceId publicKeyHex
  | .trustOnFirstUse deviceId publicKeyHex io =>
    match h.file.get true deviceId with
    | some known => io.reads = true ∨ io.readsAgain = true ∧ known = publicKeyHex
    | none => io.appended.Storable deviceId publicKeyHex

/-- The file answers as the map does, and has always done so. -/
structure IsMap : Prop where
  get : ∀ deviceId, h.file.get true deviceId = h.map deviceId
  answers : ∀ answer ∈ h.answers, answer.1 = answer.2

variable {h}

/-- What a call does to a file that answers as the map does. -/
inductive Called (h : TrustHistory) (c : PeerCall) : Prop
  | stays (storable : h.Storable c) (file : (h.called c).file.getD [] = h.file.getD [])
      (map : (h.called c).map = h.map) (answers : (h.file.call c).1 = (h.map.call c).1)
  | adds (deviceId publicKeyHex : String)
      (storable : h.Storable c ↔ PlainId deviceId ∧ PlainKey publicKeyHex)
      (new : h.file.get true deviceId = none)
      (file : (h.called c).file =
        some (h.file.getD [] ++ KnownPeers.lineBytes deviceId publicKeyHex))
      (map : (h.called c).map = Function.update h.map deviceId (some publicKeyHex))
      (answers : (h.file.call c).1 = (h.map.call c).1)
  | misses (overlooked : ¬ h.Storable c) (answers : (h.file.call c).1 ≠ (h.map.call c).1)
  | breaks (left_ : c.breaksOff = true) (overlooked : ¬ h.Storable c)

section
variable {deviceId publicKeyHex known : String} {reads : Bool} {appended : Appended} {c : PeerCall}

/-- An id that is not known yet is added. -/
theorem called_new (unknown : h.file.get true deviceId = none)
    (agrees : h.file.get true deviceId = h.map deviceId)
    (asks : h.Storable c ↔ appended.Storable deviceId publicKeyHex)
    (broken : c.breaksOff = appended.breaksOff)
    (file : h.file.call c = PeerAnswer.ofAdded (h.file.add reads appended deviceId publicKeyHex))
    (map : h.map.call c = PeerAnswer.ofAdded (h.map.add appended deviceId publicKeyHex)) :
    h.Called c := by
  have new := agrees.symm.trans unknown
  rw [KnownPeers.add_new (KnownPeers.get_of_unknown unknown reads)] at file
  cases appended with
  | whole =>
      rw [PeerMap.add_new new] at map
      exact .adds deviceId publicKeyHex asks unknown (congrArg Prod.snd file) (congrArg Prod.snd map)
        ((congrArg Prod.fst file).trans (congrArg Prod.fst map).symm)
  | refused e =>
      rw [PeerMap.add_refused new] at map
      exact .stays (asks.mpr trivial) (congrArg (fun out => out.2.getD []) file)
        (congrArg Prod.snd map) ((congrArg Prod.fst file).trans (congrArg Prod.fst map).symm)
  | partly e n =>
      rw [PeerMap.add_partly new] at map
      by_cases empty : n = 0
      · subst empty
        refine .stays (asks.mpr rfl) ((congrArg (fun out => out.2.getD []) file).trans ?_)
          (congrArg Prod.snd map) ((congrArg Prod.fst file).trans (congrArg Prod.fst map).symm)
        exact List.append_nil _
      · exact .breaks (broken.trans (decide_eq_true empty)) fun storable => empty (asks.mp storable)

/-- A known id that is not found is taken for a new one. -/
theorem added_unread {m : KnownPeers} {answer : PeerAnswer} (added : answer ≠ .added true)
    (failed : ∀ e, answer ≠ .failed (.io e)) :
    (PeerAnswer.ofAdded (m.add false appended deviceId publicKeyHex)).1 ≠ answer := by
  rw [KnownPeers.add_new KnownPeers.get_unread]
  cases appended with
  | whole => exact added.symm
  | refused e => exact (failed e).symm
  | partly e n => exact (failed e).symm

/-- The key of the call is compared with the one that is known, if that is found. -/
theorem trust_called (found : h.file.get true deviceId = some known)
    (there : h.map deviceId = some known) (reads readsAgain : Bool) (appended : Appended) :
    h.Called (.trustOnFirstUse deviceId publicKeyHex ⟨reads, readsAgain, appended⟩) := by
  have map : h.map.call (.trustOnFirstUse deviceId publicKeyHex ⟨reads, readsAgain, appended⟩) =
      if known = publicKeyHex then (.added false, h.map)
        else (.failed (.differentKey deviceId), h.map) := by
    show PeerAnswer.ofAdded (h.map.trustOnFirstUse appended deviceId publicKeyHex) = _
    rw [PeerMap.trust_known there]
    split
    · rfl
    · rfl
  cases reads with
  | true =>
      have file : h.file.call (.trustOnFirstUse deviceId publicKeyHex ⟨true, readsAgain, appended⟩) =
          if known = publicKeyHex then (.added false, h.file)
            else (.failed (.differentKey deviceId), h.file) := by
        show PeerAnswer.ofAdded (h.file.trustOnFirstUse _ deviceId publicKeyHex) = _
        rw [KnownPeers.trustOnFirstUse, found]
        simp only
        split
        · rfl
        · rfl
      have storable : h.Storable (.trustOnFirstUse deviceId publicKeyHex ⟨true, readsAgain, appended⟩) := by
        rw [Storable, found]
        exact .inl rfl
      by_cases same : known = publicKeyHex
      · rw [if_pos same] at file map
        exact .stays storable (congrArg (fun out => out.2.getD []) file) (congrArg Prod.snd map)
          ((congrArg Prod.fst file).trans (congrArg Prod.fst map).symm)
      · rw [if_neg same] at file map
        exact .stays storable (congrArg (fun out => out.2.getD []) file) (congrArg Prod.snd map)
          ((congrArg Prod.fst file).trans (congrArg Prod.fst map).symm)
  | false =>
      have file : h.file.call (.trustOnFirstUse deviceId publicKeyHex ⟨false, readsAgain, appended⟩) =
          PeerAnswer.ofAdded (h.file.add readsAgain appended deviceId publicKeyHex) := rfl
      have asks : h.Storable (.trustOnFirstUse deviceId publicKeyHex ⟨false, readsAgain, appended⟩) ↔
          readsAgain = true ∧ known = publicKeyHex := by
        rw [Storable, found]
        exact or_iff_right Bool.false_ne_true
      cases readsAgain with
      | true =>
          rw [KnownPeers.add_known found] at file
          by_cases same : known = publicKeyHex
          · rw [if_pos same] at map
            exact .stays (asks.mpr ⟨rfl, same⟩) (congrArg (fun out => out.2.getD []) file)
              (congrArg Prod.snd map) ((congrArg Prod.fst file).trans (congrArg Prod.fst map).symm)
          · rw [if_neg same] at map
            refine .misses (fun storable => same (asks.mp storable).2) ?_
            rw [file, map]
            exact nofun
      | false =>
          refine .misses (fun storable => Bool.false_ne_true (asks.mp storable).1) ?_
          rw [file, map]
          split
          · exact added_unread nofun fun _ => nofun
          · exact added_unread nofun fun _ => nofun

theorem call_cases (agrees : ∀ id, h.file.get true id = h.map id) (c : PeerCall) : h.Called c := by
  cases c with
  | get deviceId reads =>
      cases reads with
      | true =>
          exact .stays (fun _ => rfl) rfl rfl (congrArg PeerAnswer.key (agrees deviceId))
      | false =>
          cases found : h.file.get true deviceId with
          | none =>
              refine .stays (fun known => ?_) rfl rfl (congrArg PeerAnswer.key ?_)
              · rw [found] at known
                cases known
              · exact found.symm.trans (agrees deviceId)
          | some known =>
              refine .misses (fun reads => ?_) (fun same => ?_)
              · cases reads (by rw [found]; rfl)
              · have none_ := PeerAnswer.key.inj same
                cases none_.trans ((agrees deviceId).symm.trans found)
  | add deviceId publicKeyHex reads appended =>
      cases found : h.file.get true deviceId with
      | none =>
          exact called_new found (agrees deviceId) (by rw [Storable, found]) rfl rfl rfl
      | some known =>
          have there := (agrees deviceId).symm.trans found
          have map : h.map.call (.add deviceId publicKeyHex reads appended) = (.added false, h.map) :=
            congrArg PeerAnswer.ofAdded (PeerMap.add_known there appended)
          cases reads with
          | true =>
              have file : h.file.call (.add deviceId publicKeyHex true appended) =
                  (.added false, h.file) := congrArg PeerAnswer.ofAdded (KnownPeers.add_known found)
              refine .stays (by rw [Storable, found]) (congrArg (fun out => out.2.getD []) file)
                (congrArg Prod.snd map) ((congrArg Prod.fst file).trans (congrArg Prod.fst map).symm)
          | false =>
              refine .misses (fun storable => ?_) ?_
              · rw [Storable, found] at storable
                cases storable
              · rw [map]
                exact added_unread nofun fun _ => nofun
  | trustOnFirstUse deviceId publicKeyHex io =>
      obtain ⟨reads, readsAgain, appended⟩ := io
      cases found : h.file.get true deviceId with
      | none =>
          have new := (agrees deviceId).symm.trans found
          have file : h.file.call (.trustOnFirstUse deviceId publicKeyHex
              ⟨reads, readsAgain, appended⟩) =
                PeerAnswer.ofAdded (h.file.add readsAgain appended deviceId publicKeyHex) := by
            apply congrArg PeerAnswer.ofAdded
            rw [KnownPeers.trustOnFirstUse, KnownPeers.get_of_unknown found reads]
          exact called_new found (agrees deviceId) (by rw [Storable, found]) rfl file
            (congrArg PeerAnswer.ofAdded (PeerMap.trust_new new _))
      | some known =>
          have there := (agrees deviceId).symm.trans found
          exact trust_called found there reads readsAgain appended

end

/-- The file stands for the map, and is a text that ends with the end of a line. -/
structure Stands (h : TrustHistory) : Prop where
  isMap : h.IsMap
  text : ∃ content, h.file.Holds content ∧ KnownPeers.Closed content

section
variable {c : PeerCall} {deviceId publicKeyHex : String}

theorem isMap_called (isMap : h.IsMap) (get : ∀ id, (h.called c).file.get true id = (h.called c).map id)
    (answers : (h.file.call c).1 = (h.map.call c).1) : (h.called c).IsMap := by
  refine ⟨get, fun answer listed => ?_⟩
  obtain rfl | old := List.mem_cons.mp listed
  · exact answers
  · exact isMap.answers answer old

/-- The file with a further line is the map with a further entry exactly when the line can be
read. -/
theorem Stands.adds_iff (s : h.Stands) (new : h.file.get true deviceId = none)
    (file : (h.called c).file =
      some (h.file.getD [] ++ KnownPeers.lineBytes deviceId publicKeyHex))
    (map : (h.called c).map = Function.update h.map deviceId (some publicKeyHex)) :
    (∀ id, (h.called c).file.get true id = (h.called c).map id) ↔
      PlainId deviceId ∧ PlainKey publicKeyHex := by
  obtain ⟨isMap, content, holds, closed⟩ := s
  have longer := holds.append (KnownPeers.line deviceId publicKeyHex)
  have looked (id : String) : (h.called c).file.get true id =
      (KnownPeers.lookup content id).or
        (KnownPeers.lookup (KnownPeers.line deviceId publicKeyHex) id) := by
    rw [file, KnownPeers.lineBytes, longer.get, KnownPeers.lookup_append closed]
  rw [holds.get] at new
  constructor
  · intro same
    have written := same deviceId
    rw [looked, new, Option.none_or, map, Function.update_self] at written
    exact KnownPeers.lookup_plain written
  · rintro ⟨plainId, plainKey⟩ id
    rw [looked, map, KnownPeers.lookup_line plainId plainKey]
    by_cases named : id = deviceId
    · subst named
      rw [new, if_pos rfl, Function.update_self]
      rfl
    · rw [if_neg named, Option.or_none, Function.update_of_ne named, ← holds.get]
      exact isMap.get id

theorem Stands.step (s : h.Stands) (storable : h.Storable c) : (h.called c).Stands := by
  obtain ⟨content, holds, closed⟩ := s.text
  cases call_cases s.isMap.get c with
  | stays _ file map answers =>
      have same : (h.called c).file.Holds content := file.trans holds
      refine ⟨isMap_called s.isMap (fun id => ?_) answers, content, same, closed⟩
      rw [same.get, ← holds.get, map]
      exact s.isMap.get id
  | adds deviceId publicKeyHex asks new file map answers =>
      refine ⟨isMap_called s.isMap ((s.adds_iff new file map).mpr (asks.mp storable)) answers,
        content ++ KnownPeers.line deviceId publicKeyHex, ?_, KnownPeers.closed_line ..⟩
      rw [file]
      exact holds.append _
  | misses overlooked answers => exact absurd storable overlooked
  | breaks left_ overlooked => exact absurd storable overlooked

/-- Where no write breaks off, a call leaves a map exactly when it meets the condition. -/
theorem Stands.exact (s : h.Stands) (whole : c.breaksOff = false) :
    (h.called c).IsMap ↔ h.Storable c := by
  refine ⟨fun isMap => ?_, fun storable => (s.step storable).isMap⟩
  cases call_cases s.isMap.get c with
  | stays storable file map answers => exact storable
  | adds deviceId publicKeyHex asks new file map answers =>
      exact asks.mpr ((s.adds_iff new file map).mp isMap.get)
  | misses overlooked answers => exact absurd (isMap.answers _ List.mem_cons_self) answers
  | breaks left_ overlooked => exact absurd (whole.symm.trans left_) Bool.false_ne_true

end

theorem stands (run : machine.ReachableBy Storable h) : h.Stands := by
  refine run.invariant (I := Stands) ?_ ?_
  · rintro h ⟨text, map, answers⟩
    refine ⟨⟨fun id => by rw [map], fun answer => ?_⟩, text⟩
    rw [answers]
    exact nofun
  · rintro h c h' s storable ⟨⟩
    exact s.step storable

/-- What is claimed of the file in a state. -/
structure FirstWriteWins (h : TrustHistory) : Prop where
  isMap : h.IsMap
  /-- A key that is stored stays. -/
  kept : ∀ h', (machine.startingAt h).ReachableBy Storable h' →
    ∀ deviceId key, h.file.get true deviceId = some key → h'.file.get true deviceId = some key
  refused : ∀ deviceId publicKeyHex known io, h.file.get true deviceId = some known →
    io.reads = true → h.file.trustOnFirstUse io deviceId publicKeyHex =
      if known = publicKeyHex then (.ok false, h.file)
      else (.error (.differentKey deviceId), h.file)
  others : ∀ c, h.Storable c → ∀ id, id ≠ c.deviceId →
    (h.called c).file.get true id = h.file.get true id
  /-- The next call leaves a map exactly when it meets the condition, if no write breaks off. -/
  exact : ∀ c, c.breaksOff = false → ((h.called c).IsMap ↔ h.Storable c)

theorem map_extends {h h' : TrustHistory} (run : (machine.startingAt h).ReachableBy Storable h') :
    FirstWrite.Extends h.map h'.map := by
  refine run.invariant (I := fun h' => FirstWrite.Extends h.map h'.map) ?_ ?_
  · rintro g rfl
    exact FirstWrite.Extends.refl g.map
  · rintro h' c _ longer - ⟨⟩
    exact longer.trans (PeerMap.extends_call c)

/-- In a run in which each known key that is looked up is read, each id and key that is added can be
held by a line and no write leaves a part of one, the file is a map whose first entries stay. -/
theorem first_write_wins (run : machine.ReachableBy Storable h) : h.FirstWriteWins := by
  have s := stands run
  refine ⟨s.isMap, fun h' more deviceId key found => ?_,
    fun deviceId publicKeyHex known io found reads => ?_, fun c storable id other => ?_,
    fun c => s.exact⟩
  · have there := (s.isMap.get deviceId).symm.trans found
    have s' := stands (run.append more)
    exact (s'.isMap.get deviceId).trans (map_extends more deviceId key there)
  · rw [KnownPeers.trustOnFirstUse, reads, found]
  · rw [s.isMap.get, (s.step storable).isMap.get]
    exact PeerMap.call_other c other

instance (deviceId : String) : Decidable (PlainId deviceId) :=
  inferInstanceAs (Decidable (_ ∧ _))

instance (publicKeyHex : String) : Decidable (PlainKey publicKeyHex) :=
  inferInstanceAs (Decidable (_ ∧ _))

instance (deviceId publicKeyHex : String) : (a : Appended) →
    Decidable (a.Storable deviceId publicKeyHex)
  | .whole => inferInstanceAs (Decidable (_ ∧ _))
  | .refused _ => .isTrue trivial
  | .partly _ n => inferInstanceAs (Decidable (n = 0))

instance (h : TrustHistory) : ∀ c, Decidable (h.Storable c)
  | .get .. => inferInstanceAs (Decidable (_ → _))
  | .add deviceId publicKeyHex reads appended =>
    match found : h.file.get true deviceId with
    | some _ => decidable_of_iff (reads = true) (by rw [Storable, found])
    | none =>
      decidable_of_iff (appended.Storable deviceId publicKeyHex) (by rw [Storable, found])
  | .trustOnFirstUse deviceId publicKeyHex io =>
    match found : h.file.get true deviceId with
    | some known =>
      decidable_of_iff (io.reads = true ∨ io.readsAgain = true ∧ known = publicKeyHex)
        (by rw [Storable, found])
    | none =>
      decidable_of_iff (io.appended.Storable deviceId publicKeyHex) (by rw [Storable, found])

def noPeers : TrustHistory := ⟨none, fun _ => none, []⟩

theorem noPeers_start : machine.init noPeers := ⟨⟨[], KnownPeers.holds_nil, .inl rfl⟩, rfl, rfl⟩

/-- A key that has changed is refused. -/
theorem first_write_wins_changed : ∃ h, machine.ReachableBy Storable h ∧
    h.file.get true "dev1" = some "keyAAA" ∧ h.FirstWriteWins := by
  obtain ⟨h, run, found⟩ := Machine.exists_reachableBy machine Storable noPeers_start
    [.trustOnFirstUse "dev1" "keyAAA" goodIo, .trustOnFirstUse "dev1" "keyBBB" goodIo,
      .add "dev2" "keyCCC" true (.refused "disk full"), .get "dev1" true]
    (fun h => h.file.get true "dev1" = some "keyAAA") (by decide)
  exact ⟨h, run, found, first_write_wins run⟩

/-- An id with a blank is new each time, whatever its key, and gives a key to another id. -/
def blankInId : List PeerCall :=
  [.trustOnFirstUse "a b" "k" goodIo, .trustOnFirstUse "a b" "other" goodIo]

/-- A part of a line gives a key to an id that nobody has. -/
def brokenOff : List PeerCall :=
  [.trustOnFirstUse "dev1" "k" ⟨true, true, .partly "disk full" 4⟩,
    .trustOnFirstUse "dev2" "k" goodIo]

/-- A file that cannot be read has no key that could differ. -/
def unread : List PeerCall :=
  [.trustOnFirstUse "dev1" "k" goodIo, .trustOnFirstUse "dev1" "other" ⟨false, false, .whole⟩]

theorem first_write_lost :
    (∃ h, machine.Reachable h ∧
      h.answers = [(.added true, .failed (.differentKey "a b")), (.added true, .added true)] ∧
      h.file.get true "a b" = none ∧ h.file.get true "a" = some "b k" ∧ ¬ h.FirstWriteWins) ∧
    (∃ h, machine.Reachable h ∧ h.file.get true "dev2" = none ∧
      h.file.get true "dev1dev2" = some "k" ∧ ¬ h.FirstWriteWins) ∧
    ∃ h, machine.Reachable h ∧
      h.answers = [(.added true, .failed (.differentKey "dev1")), (.added true, .added true)] ∧
      ¬ h.FirstWriteWins := by
  refine ⟨?_, ?_, ?_⟩
  · obtain ⟨h, run, answers, lost, given⟩ := Machine.exists_reachableBy machine Machine.Always
      noPeers_start blankInId
      (fun h => h.answers = [(.added true, .failed (.differentKey "a b")),
        (.added true, .added true)] ∧ h.file.get true "a b" = none ∧
          h.file.get true "a" = some "b k") (by decide)
    refine ⟨h, run, answers, lost, given, fun wins => ?_⟩
    have same := wins.isMap.answers (.added true, .failed (.differentKey "a b"))
    rw [answers] at same
    cases same List.mem_cons_self
  · obtain ⟨h, run, lost, given, mapped⟩ := Machine.exists_reachableBy machine Machine.Always
      noPeers_start brokenOff
      (fun h => h.file.get true "dev2" = none ∧ h.file.get true "dev1dev2" = some "k" ∧
        h.map "dev2" = some "k") (by decide)
    refine ⟨h, run, lost, given, fun wins => ?_⟩
    have same := wins.isMap.get "dev2"
    rw [lost, mapped] at same
    cases same
  · obtain ⟨h, run, answers⟩ := Machine.exists_reachableBy machine Machine.Always noPeers_start
      unread (fun h => h.answers = [(.added true, .failed (.differentKey "dev1")),
        (.added true, .added true)]) (by decide)
    refine ⟨h, run, answers, fun wins => ?_⟩
    have same := wins.isMap.answers (.added true, .failed (.differentKey "dev1"))
    rw [answers] at same
    cases same List.mem_cons_self

end TrustHistory
end ReachMyDevice
