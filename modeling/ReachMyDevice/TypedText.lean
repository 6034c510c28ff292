import ReachMyDevice.OnScreenKeyboard

/-!
# What is typed against what was meant

The key tables agree with a US keyboard on every key of the on-screen one. What
differs between the backends is whether the modifier bits reach the host.
-/
namespace ReachMyDevice

/-- The keys of the on-screen keyboard. -/
def usageCaps : List (Nat × KeyCap) :=
  [(0x04, .char 'a'), (0x05, .char 'b'), (0x06, .char 'c'), (0x07, .char 'd'), (0x08, .char 'e'),
   (0x09, .char 'f'), (0x0A, .char 'g'), (0x0B, .char 'h'), (0x0C, .char 'i'), (0x0D, .char 'j'),
   (0x0E, .char 'k'), (0x0F, .char 'l'), (0x10, .char 'm'), (0x11, .char 'n'), (0x12, .char 'o'),
   (0x13, .char 'p'), (0x14, .char 'q'), (0x15, .char 'r'), (0x16, .char 's'), (0x17, .char 't'),
   (0x18, .char 'u'), (0x19, .char 'v'), (0x1A, .char 'w'), (0x1B, .char 'x'), (0x1C, .char 'y'),
   (0x1D, .char 'z'), (0x1E, .char '1'), (0x1F, .char '2'), (0x20, .char '3'), (0x21, .char '4'),
   (0x22, .char '5'), (0x23, .char '6'), (0x24, .char '7'), (0x25, .char '8'), (0x26, .char '9'),
   (0x27, .char '0'), (0x28, .char '\n'), (0x29, .escape), (0x2A, .backspace), (0x2B, .char '\t'),
   (0x2C, .char ' '), (0x2D, .char '-'), (0x2E, .char '='), (0x2F, .char '['), (0x30, .char ']'),
   (0x31, .char '\x5c'), (0x33, .char ';'), (0x34, .char '\x27'), (0x35, .char '\x60'),
   (0x36, .char ','), (0x37, .char '.'), (0x38, .char '/'), (0x4C, .delete), (0x4F, .right),
   (0x50, .left), (0x51, .down), (0x52, .up)]

namespace KeyPress

/-- A key of the table, with the four bits that have a key. -/
def Listed (p : KeyPress) : Prop := (∃ key, usageCaps.lookup p.hid = some key) ∧ p.mods < 16

/-- What a press asks for. -/
def asks (p : KeyPress) : Stroke where
  key := .ofTable usageCaps p.hid
  held := .ofMask p.mods

end KeyPress

/-! ## The backends -/

namespace Backend

/-- What becomes of a stroke: on Linux the modifier bits are not applied. -/
def carry : Backend → Stroke → Stroke
  | .mac, s => s
  | _, s => { s with held := {} }

/-- What a backend makes of a usage. -/
def code : Backend → Nat → Option Nat
  | .uinput => Keymap.tables.hidToEvdev
  | .x11 => Keymap.tables.hidToXKeycode
  | .mac => Keymap.tables.hidToMacos

theorem keyCap_code (b : Backend) {hid : Nat} {key : KeyCap}
    (listed : usageCaps.lookup hid = some key) :
    ∃ code, b.code hid = some code ∧ b.keyCap code = key ∧ key.isModifier = false := by
  have tables : ∀ b ∈ [Backend.uinput, .x11, .mac], ∀ e ∈ usageCaps,
      (b.code e.1).map b.keyCap = some e.2 ∧ e.2.isModifier = false := by decide +kernel
  obtain ⟨before, after, table, -⟩ := List.lookup_eq_some_iff.mp listed
  have member : (hid, key) ∈ usageCaps := table ▸ by simp
  have known : b ∈ [Backend.uinput, .x11, .mac] := by cases b <;> decide
  obtain ⟨found, plain⟩ := tables b known (hid, key) member
  obtain ⟨code, found, cap⟩ := Option.map_eq_some_iff.mp found
  exact ⟨code, found, cap, plain⟩

end Backend

theorem ofMask_mod (mods : Nat) : Modifiers.ofMask (mods % 32) = .ofMask mods := by
  have bit : ∀ n < 5, (mods % 2 ^ 5).testBit n = mods.testBit n := by
    intro n small
    rw [Nat.testBit_mod_two_pow, decide_eq_true small, Bool.true_and]
  simp only [Modifiers.ofMask, show (32 : Nat) = 2 ^ 5 from rfl, bit _ (by decide : 0 < 5),
    bit _ (by decide : 1 < 5), bit _ (by decide : 2 < 5), bit _ (by decide : 3 < 5)]

/-- The events of the operating system for one key. -/
def Backend.edge : Backend → Nat → Bool → Nat → OsEvent
  | .mac, code, down, mods => .cgKey code down (MacInjector.cgFlags mods)
  | _, code, down, _ => keyEdge code down

theorem inject_key (i : Injector) {k : KeyEvent} {code : Nat}
    (found : i.backend.code k.hidUsage = some code) :
    (i.inject .tables (fun _ => true) (.key k)).2 = [i.backend.edge code k.pressed k.modifiers] ∧
      (i.inject .tables (fun _ => true) (.key k)).1.backend = i.backend := by
  cases i with
  | uinput s =>
      have found : Keymap.tables.hidToEvdev k.hidUsage = some code := found
      simp [Injector.inject, UinputInjector.inject, found, Injector.backend, Backend.edge]
  | x11 s =>
      have found : Keymap.tables.hidToXKeycode k.hidUsage = some code := found
      simp [Injector.inject, X11Injector.inject, X11Injector.calls, found, Injector.backend,
        Backend.edge]
  | mac s =>
      have found : Keymap.tables.hidToMacos k.hidUsage = some code := found
      simp [Injector.inject, MacInjector.inject, found, Injector.backend, Backend.edge]

/-- A key that goes down and up again types one stroke. -/
theorem typed_press (b : Backend) {p : KeyPress} {code : Nat} {key : KeyCap}
    (listed : usageCaps.lookup p.hid = some key) (cap : b.keyCap code = key)
    (plain : key.isModifier = false) (evs : List OsEvent) :
    b.typed [] (b.edge code true p.mods :: b.edge code false p.mods :: evs) =
      b.carry p.asks :: b.typed [] evs := by
  cases b <;>
    simp [Backend.typed, Backend.edge, keyEdge, cap, plain, Backend.carry, KeyPress.asks,
      KeyCap.ofTable, listed, Modifiers.ofHeld, MacInjector.cgFlags, ofMask_mod]

/-- The injectors type what the presses ask for, as far as they carry it. -/
theorem types_presses (i : Injector) (presses : List KeyPress)
    (listed : ∀ p ∈ presses, p.Listed) :
    i.types (presses.flatMap KeyPress.events) =
      presses.map fun p => i.backend.carry p.asks := by
  induction presses generalizing i with
  | nil => rfl
  | cons p presses ih =>
      obtain ⟨⟨key, known⟩, -⟩ := listed p List.mem_cons_self
      obtain ⟨code, found, cap, plain⟩ := i.backend.keyCap_code known
      obtain ⟨down, same⟩ := inject_key i (k := ⟨p.hid, true, p.mods⟩) found
      obtain ⟨j, pressed⟩ : ∃ j,
          (i.inject .tables (fun _ => true) (.key ⟨p.hid, true, p.mods⟩)).1 = j :=
        ⟨_, rfl⟩
      rw [pressed] at same
      rw [← same] at found
      obtain ⟨up, again⟩ := inject_key j (k := ⟨p.hid, false, p.mods⟩) found
      have rest := ih (j.inject .tables (fun _ => true) (.key ⟨p.hid, false, p.mods⟩)).1
        fun q member => listed q (List.mem_cons_of_mem _ member)
      simp only [Injector.types, again, same] at rest
      simp only [Injector.types, List.flatMap_cons, KeyPress.events, List.cons_append,
        List.nil_append, Injector.processed, pressed, down, up, same, List.map_cons]
      rw [typed_press _ known cap plain, rest]

/-! ## Characters -/

theorem toNat_lt_of_le {c d : Char} (h : c ≤ d) : c.toNat ≤ d.toNat := h

theorem typable_ascii {c : Char} (typable : (charToHid c).isSome) : c.toNat < 128 := by
  unfold charToHid at typable
  split at typable
  next lower => exact lt_of_le_of_lt (toNat_lt_of_le lower.2) (by decide)
  next =>
    split at typable
    next upper => exact lt_of_le_of_lt (toNat_lt_of_le upper.2) (by decide)
    next =>
      have ascii : ∀ e ∈ charTable, e.1.toNat < 128 := by decide +kernel
      obtain ⟨e, found⟩ := Option.isSome_iff_exists.mp typable
      obtain ⟨before, after, table, -⟩ := List.lookup_eq_some_iff.mp found
      exact ascii (c, e) (table ▸ by simp)

/-- What holds of the first 128 characters that can be typed holds of all. -/
theorem typable_cases {P : Char → Prop}
    (ascii : ∀ n < 128, (charToHid (.ofNat n)).isSome → P (.ofNat n))
    {c : Char} (typable : (charToHid c).isSome) : P c := by
  have here := ascii c.toNat (typable_ascii typable)
  rw [Char.ofNat_toNat] at here
  exact here typable

/-- The usage of a character is that of the key which types it, with Shift where that needs it. -/
def AsksFor (c : Char) : Prop :=
  ∃ e ∈ charToHid c, ∃ key ∈ usageCaps.lookup e.1, strokeOf c = { key, held := { shift := e.2 } }

instance (c : Char) : Decidable (AsksFor c) :=
  inferInstanceAs (Decidable (∃ e ∈ charToHid c, ∃ key ∈ usageCaps.lookup e.1, _))

theorem charToHid_spec {c : Char} (typable : (charToHid c).isSome) :
    ∃ hid key, charToHid c = some (hid, shifted c) ∧ usageCaps.lookup hid = some key ∧
      strokeOf c = { key, held := { shift := shifted c } } := by
  have asksFor : AsksFor c := typable_cases (P := AsksFor) (by decide +kernel) typable
  obtain ⟨⟨hid, shift⟩, found, key, listed, stroke⟩ := asksFor
  have same : shifted c = shift := by simp [shifted, Option.mem_def.mp found]
  exact ⟨hid, key, same ▸ found, listed, same ▸ stroke⟩

theorem char_strokeOf {c : Char} (typable : (charToHid c).isSome) :
    (strokeOf c).char = some (entered c) :=
  typable_cases (P := fun c => (strokeOf c).char = some (entered c)) (by decide +kernel) typable

theorem letter_typable (l : Letter) : (charToHid l.val).isSome := by
  simp [charToHid, l.property]

theorem letter_unshifted (l : Letter) : shifted l.val = false := by
  simp [shifted, charToHid, l.property]

/-! ## The viewer -/

namespace Modifiers

def mask (m : Modifiers) : Nat :=
  (if m.shift then modifiers.shift else 0) ||| (if m.control then modifiers.control else 0) |||
    (if m.alt then modifiers.alt else 0) ||| (if m.super then modifiers.metaKey else 0)

theorem ofMask_mask (m : Modifiers) : ofMask m.mask = m := by
  obtain ⟨_ | _, _ | _, _ | _, _ | _⟩ := m <;> rfl

theorem mask_empty : mask {} = 0 := by decide

theorem mask_lt (m : Modifiers) : m.mask < 16 := by
  obtain ⟨_ | _, _ | _, _ | _, _ | _⟩ := m <;> decide

theorem ofMask_eq_empty {mods : Nat} (small : mods < 16) : ofMask mods = {} ↔ mods = 0 := by
  have all : ∀ mods < 16, ofMask mods = {} ↔ mods = 0 := by decide
  exact all mods small

theorem ofMask_shift (m : Modifiers) :
    ofMask (m.mask ||| modBit "shift") = { m with shift := true } := by
  obtain ⟨_ | _, _ | _, _ | _, _ | _⟩ := m <;> decide

theorem mask_toggle (m : Modifiers) (k : StickyKey) :
    (if m.mask &&& modBit k.name ≠ 0 then m.mask - modBit k.name else m.mask ||| modBit k.name) =
      (m.toggle k).mask := by
  cases k <;> obtain ⟨_ | _, _ | _, _ | _, _ | _⟩ := m <;> decide

end Modifiers

theorem or_shift {mods : Nat} (small : mods < 16) :
    mods ||| modBit "shift" < 16 ∧ mods ||| modBit "shift" ≠ 0 := by
  have all : ∀ mods < 16, mods ||| modBit "shift" < 16 ∧ mods ||| modBit "shift" ≠ 0 := by decide
  exact all mods small

namespace OnScreenKeyboard
open Intent

theorem charPress_listed {mods : Nat} (small : mods < 16) {c : Char}
    (typable : (charToHid c).isSome) (upper : Bool) :
    ∃ p, charPress mods upper c = [p] ∧ p.Listed ∧
      (p.mods = 0 ↔ mods = 0 ∧ shifted c = false ∧ upper = false) := by
  obtain ⟨hid, key, found, known, -⟩ := charToHid_spec typable
  refine ⟨_, by rw [charPress, found], ⟨⟨key, known⟩, ?_⟩, ?_⟩
  · split
    · exact (or_shift small).1
    · exact small
  · cases shifted c <;> cases upper <;> simp [(or_shift small).2]

theorem charPress_asks (m : Modifiers) {c : Char} (typable : (charToHid c).isSome)
    (upper : Bool) : (charPress m.mask upper c).map KeyPress.asks = [chord m upper c] := by
  obtain ⟨hid, key, found, known, stroke⟩ := charToHid_spec typable
  rw [charPress, found]
  cases shift : shifted c <;> cases upper <;>
    simp [KeyPress.asks, KeyCap.ofTable, known, chord, stroke, shift, Modifiers.ofMask_mask,
      Modifiers.ofMask_shift]

theorem chord_plain {c : Char} (typable : (charToHid c).isSome) :
    chord {} false c = strokeOf c := by
  obtain ⟨hid, key, -, -, stroke⟩ := charToHid_spec typable
  simp [chord, stroke]

/-- The presses of some text, whose characters can all be typed. -/
theorem text_listed {T : Type} (char : T → Char) (typable : ∀ a, (charToHid (char a)).isSome)
    (text : List T) (upper : Bool) :
    (∀ p ∈ text.flatMap (fun a => charPress 0 upper (char a)), p.Listed) ∧
      ((∀ p ∈ text.flatMap (fun a => charPress 0 upper (char a)), p.mods = 0) ↔
        ∀ a ∈ text, shifted (char a) = false ∧ upper = false) ∧
      (text.flatMap (fun a => charPress 0 upper (char a))).map KeyPress.asks =
        text.map fun a => chord {} upper (char a) := by
  induction text with
  | nil => simp
  | cons a text ih =>
      obtain ⟨listed, plain, asks⟩ := ih
      have small : 0 < 16 := by decide
      obtain ⟨p, press, known, zero⟩ := charPress_listed small (typable a) upper
      have asked : (charPress 0 upper (char a)).map KeyPress.asks = [chord {} upper (char a)] :=
        charPress_asks {} (typable a) upper
      rw [press] at asked
      have asked : p.asks = chord {} upper (char a) := List.singleton_inj.mp asked
      refine ⟨?_, ?_, ?_⟩
      · simpa [press, known] using listed
      · simp only [List.flatMap_cons, press, List.singleton_append, List.forall_mem_cons, plain,
          zero, true_and]
      · simp only [List.flatMap_cons, press, List.singleton_append, List.map_cons, asked, asks]

theorem word_listed (word : SwipeWord) (caps : Bool) :
    (∀ p ∈ wordPresses word caps, p.Listed) ∧
      ((∀ p ∈ wordPresses word caps, p.mods = 0) ↔ caps = false) ∧
      (wordPresses word caps).map KeyPress.asks = wordStrokes word caps := by
  obtain ⟨listed, plain, asks⟩ := text_listed Subtype.val letter_typable word.letters caps
  obtain ⟨l, some_⟩ := List.exists_mem_of_length_pos (lt_of_lt_of_le Nat.two_pos word.long)
  refine ⟨?_, ?_, ?_⟩
  · have space : KeyPress.Listed ⟨0x2C, 0⟩ := ⟨⟨_, rfl⟩, by decide⟩
    simpa [wordPresses, or_imp, forall_and, space] using listed
  · rw [wordPresses, List.forall_mem_append, plain]
    constructor
    · exact fun h => (h.1 l some_).2
    · exact fun off => ⟨fun a _ => ⟨letter_unshifted a, off⟩, by simp⟩
  · rw [wordPresses, List.map_append, asks]
    rfl

/-- What every run keeps. -/
structure WellKept (kb : OnScreenKeyboard) : Prop where
  mods : kb.mods < 16
  repeating : ∀ p ∈ kb.repeating, p.Listed

/-- No modifier is in force, of those armed, of Caps Lock or of the characters themselves. -/
def Unmodified (kb : OnScreenKeyboard) : KeyboardEvent → Prop
  | .symbol c => kb.mods = 0 ∧ shifted c = false
  | .letter _ => kb.mods = 0 ∧ kb.caps = false
  | .swipe words => words = [] ∨ kb.caps = false
  | .suggestion _ => kb.caps = false
  | .ctrlAltDel => False
  | .named _ _ => kb.mods = 0
  | .dictate text => ∀ c ∈ text, shifted c = false
  | .repeats => ∀ p ∈ kb.repeating, p.mods = 0
  | .sticky _ | .capsLock | .lift => True

theorem code_eq_space {k : NamedKey} : k.code = "Space" ↔ k = .space := by
  cases k <;> decide

theorem named_listed (k : NamedKey) :
    ∃ hid, codeToHid k.code = some hid ∧ usageCaps.lookup hid = some k.cap := by
  cases k <;> exact ⟨_, rfl, rfl⟩

theorem WellKept.step {kb : OnScreenKeyboard} (h : kb.WellKept) (ev : KeyboardEvent) :
    (kb.step ev).1.WellKept ∧ ∀ p ∈ (kb.step ev).2, p.Listed := by
  have low : 0 < 16 := by decide
  cases ev with
  | sticky k =>
      refine ⟨⟨?_, fun _ empty => nomatch empty⟩, fun _ empty => nomatch empty⟩
      have all : ∀ mods < 16, (if mods &&& modBit k.name ≠ 0 then mods - modBit k.name
          else mods ||| modBit k.name) < 16 := by
        cases k <;> decide
      exact all kb.mods h.mods
  | capsLock => exact ⟨⟨h.mods, fun _ empty => nomatch empty⟩, fun _ empty => nomatch empty⟩
  | lift => exact ⟨⟨h.mods, fun _ empty => nomatch empty⟩, fun _ empty => nomatch empty⟩
  | symbol c =>
      obtain ⟨p, press, listed, -⟩ := charPress_listed h.mods c.property false
      simp only [OnScreenKeyboard.step, press]
      exact ⟨⟨low, by simpa using listed⟩, by simpa using listed⟩
  | letter l =>
      obtain ⟨p, press, listed, -⟩ := charPress_listed h.mods (letter_typable l) kb.caps
      simp only [OnScreenKeyboard.step, press]
      exact ⟨⟨low, h.repeating⟩, by simpa using listed⟩
  | swipe words =>
      cases words with
      | nil => exact ⟨⟨low, h.repeating⟩, fun _ empty => nomatch empty⟩
      | cons best words => exact ⟨⟨low, h.repeating⟩, (word_listed best kb.caps).1⟩
  | suggestion word =>
      refine ⟨⟨h.mods, h.repeating⟩, List.forall_mem_append.mpr ⟨?_, (word_listed word kb.caps).1⟩⟩
      intro p member
      obtain rfl := List.eq_of_mem_replicate member
      exact ⟨⟨_, rfl⟩, by decide⟩
  | ctrlAltDel =>
      refine ⟨⟨low, fun _ empty => nomatch empty⟩, ?_⟩
      intro p member
      obtain rfl := List.mem_singleton.mp member
      exact ⟨⟨_, rfl⟩, by decide⟩
  | named k now =>
      obtain ⟨hid, found, known⟩ := named_listed k
      simp only [OnScreenKeyboard.step, found]
      split
      · refine ⟨⟨low, fun _ empty => nomatch empty⟩, ?_⟩
        have three : ∀ p ∈ [⟨0x2A, 0⟩] ++ charPress 0 false '.' ++ [⟨0x2C, 0⟩], p.mods = 0 ∧
            (usageCaps.lookup p.hid).isSome := by decide
        intro p member
        obtain ⟨zero, some_⟩ := three p member
        exact ⟨Option.isSome_iff_exists.mp some_, by omega⟩
      · have listed : KeyPress.Listed ⟨hid, kb.mods⟩ := ⟨⟨_, known⟩, h.mods⟩
        exact ⟨⟨low, by simpa using listed⟩, by simpa using listed⟩
  | dictate text =>
      exact ⟨h, (text_listed Subtype.val Subtype.property text false).1⟩
  | repeats =>
      refine ⟨h, fun p member => h.repeating p ?_⟩
      exact Option.mem_toList.mp member

/-- The bits that are sent for an event, with a double tap only where no modifier is armed. -/
theorem WellKept.plain_iff {kb : OnScreenKeyboard} (h : kb.WellKept) {ev : KeyboardEvent}
    (space : ∀ now, ev = .named .space now → kb.doubleTap now → kb.mods = 0) :
    (∀ p ∈ (kb.step ev).2, p.mods = 0) ↔ kb.Unmodified ev := by
  cases ev with
  | sticky | capsLock | lift => exact iff_of_true (fun _ empty => nomatch empty) trivial
  | symbol c =>
      obtain ⟨p, press, -, zero⟩ := charPress_listed h.mods c.property false
      simp only [OnScreenKeyboard.step, press, List.mem_singleton, forall_eq, zero, and_true,
        Unmodified]
  | letter l =>
      obtain ⟨p, press, -, zero⟩ := charPress_listed h.mods (letter_typable l) kb.caps
      simp only [OnScreenKeyboard.step, press, List.mem_singleton, forall_eq, zero,
        letter_unshifted, true_and, Unmodified]
  | swipe words =>
      cases words with
      | nil => exact iff_of_true (fun _ empty => nomatch empty) (.inl rfl)
      | cons best words =>
          refine (word_listed best kb.caps).2.1.trans ?_
          simp [Unmodified]
  | suggestion word =>
      simp only [OnScreenKeyboard.step, List.forall_mem_append, (word_listed word kb.caps).2.1,
        Unmodified, and_iff_right_iff_imp]
      intro _ p member
      obtain rfl := List.eq_of_mem_replicate member
      rfl
  | ctrlAltDel =>
      exact iff_of_false (fun none_ => absurd (none_ _ List.mem_cons_self) (by decide)) id
  | named k now =>
      obtain ⟨hid, found, -⟩ := named_listed k
      simp only [OnScreenKeyboard.step, found, Unmodified]
      split
      next twice =>
        obtain ⟨isSpace, twice⟩ := twice
        obtain rfl := code_eq_space.mp isSpace
        have three : ∀ p ∈ [⟨0x2A, 0⟩] ++ charPress 0 false '.' ++ [⟨0x2C, 0⟩], p.mods = 0 := by
          decide
        exact iff_of_true three (space now rfl twice)
      next => simp
  | dictate text =>
      have plain := (text_listed Subtype.val Subtype.property text false).2.1
      simpa [OnScreenKeyboard.step, Unmodified] using plain
  | repeats => simp [OnScreenKeyboard.step, Unmodified]

/-- The keyboard against what is meant. -/
structure Agrees (kb : OnScreenKeyboard) (i : Intent) : Prop where
  mods : kb.mods = i.armed.mask
  caps : kb.caps = i.caps
  word : kb.lastWordLen = i.word
  tapped : ∀ t ∈ i.tapped, 0 < t ∧ kb.lastSpace = t
  repeating : kb.repeating.map KeyPress.asks = i.repeating

/-- A double tap is one of two Spaces in a row, with no modifier armed. -/
def SpaceSafe (kb : OnScreenKeyboard) (i : Intent) (ev : KeyboardEvent) : Prop :=
  ∀ now, ev = .named .space now → kb.doubleTap now → i.doubleTap now

theorem Agrees.doubleTap {kb : OnScreenKeyboard} {i : Intent} (h : Agrees kb i) {now : Rat}
    (twice : i.doubleTap now) : kb.doubleTap now := by
  obtain ⟨-, any⟩ := twice
  cases tapped : i.tapped with
  | none => simp [tapped] at any
  | some t =>
      obtain ⟨positive, last⟩ := h.tapped t tapped
      rw [tapped] at any
      exact ⟨last ▸ positive, last ▸ of_decide_eq_true any⟩

/-- A key with a name; Space may be the second of two. -/
theorem Agrees.named {kb : OnScreenKeyboard} {i : Intent} (h : Agrees kb i) (k : NamedKey)
    (now : Rat) (space : SpaceSafe kb i (.named k now)) :
    (kb.step (.named k now)).2.map KeyPress.asks = (i.step (.named k now)).2 ∧
      Agrees (kb.step (.named k now)).1 (i.step (.named k now)).1 := by
  obtain ⟨mods, caps, word, tapped, repeating⟩ := h
  obtain ⟨hid, found, known⟩ := named_listed k
  have asked : KeyPress.asks ⟨hid, i.armed.mask⟩ = { key := k.cap, held := i.armed } := by
    simp [KeyPress.asks, KeyCap.ofTable, known, Modifiers.ofMask_mask]
  by_cases isSpace : k = .space
  · obtain rfl := isSpace
    by_cases twice : i.doubleTap now
    · have both := Agrees.doubleTap ⟨mods, caps, word, tapped, repeating⟩ twice
      simp only [OnScreenKeyboard.step, Intent.step, found, code_eq_space, both, twice,
        and_self, if_true]
      exact ⟨by decide, ⟨Modifiers.mask_empty.symm, caps, word, fun _ none_ => (nomatch none_),
        rfl⟩⟩
    · have alone : ¬ kb.doubleTap now := fun both => twice (space now rfl both)
      simp only [OnScreenKeyboard.step, Intent.step, found, code_eq_space, alone, twice,
        and_false, if_true, if_false, mods]
      refine ⟨congrArg (· :: []) asked, ⟨Modifiers.mask_empty.symm, caps, word, ?_,
        congrArg some asked⟩⟩
      intro t member
      simp only [Option.mem_def, Option.ite_none_right_eq_some, Option.some.injEq] at member
      obtain ⟨⟨-, positive⟩, rfl⟩ := member
      exact ⟨positive, rfl⟩
  · simp only [OnScreenKeyboard.step, Intent.step, found, code_eq_space, isSpace, false_and,
      if_false, mods]
    exact ⟨congrArg (· :: []) asked, ⟨Modifiers.mask_empty.symm, caps, word,
      fun _ none_ => (nomatch none_), congrArg some asked⟩⟩

/-- An event asks for what is meant by it. -/
theorem Agrees.step {kb : OnScreenKeyboard} {i : Intent} (h : Agrees kb i) {ev : KeyboardEvent}
    (space : SpaceSafe kb i ev) :
    (kb.step ev).2.map KeyPress.asks = (i.step ev).2 ∧ Agrees (kb.step ev).1 (i.step ev).1 := by
  have named := h.named
  obtain ⟨mods, caps, word, tapped, repeating⟩ := h
  cases ev with
  | sticky k =>
      refine ⟨rfl, ⟨?_, caps, word, tapped, rfl⟩⟩
      simp only [OnScreenKeyboard.step, mods]
      exact Modifiers.mask_toggle i.armed k
  | capsLock => exact ⟨rfl, ⟨mods, congrArg not caps, word, tapped, rfl⟩⟩
  | lift => exact ⟨rfl, ⟨mods, caps, word, tapped, rfl⟩⟩
  | symbol c =>
      have asks := charPress_asks i.armed c.property false
      obtain ⟨p, press, -⟩ := charPress_listed i.armed.mask_lt c.property false
      rw [press] at asks
      simp only [OnScreenKeyboard.step, mods, press]
      exact ⟨asks, ⟨Modifiers.mask_empty.symm, caps, word, fun _ none_ => (nomatch none_),
        congrArg some (List.singleton_inj.mp asks)⟩⟩
  | letter l =>
      have asks := charPress_asks i.armed (letter_typable l) i.caps
      simp only [OnScreenKeyboard.step, mods, caps]
      exact ⟨asks,
        ⟨Modifiers.mask_empty.symm, rfl, word, fun _ none_ => (nomatch none_), repeating⟩⟩
  | swipe words =>
      cases words with
      | nil => exact ⟨rfl, ⟨Modifiers.mask_empty.symm, caps, word, tapped, repeating⟩⟩
      | cons best words =>
          simp only [OnScreenKeyboard.step, caps]
          exact ⟨(word_listed best i.caps).2.2,
            ⟨Modifiers.mask_empty.symm, rfl, rfl, fun _ none_ => (nomatch none_), repeating⟩⟩
  | suggestion best =>
      simp only [OnScreenKeyboard.step, caps, word, List.map_append, List.map_replicate,
        (word_listed best i.caps).2.2]
      exact ⟨rfl, ⟨mods, rfl, rfl, fun _ none_ => (nomatch none_), repeating⟩⟩
  | ctrlAltDel =>
      exact ⟨rfl, ⟨Modifiers.mask_empty.symm, caps, word, fun _ none_ => (nomatch none_), rfl⟩⟩
  | named k now => exact named k now space
  | dictate text =>
      have asks := (text_listed Subtype.val Subtype.property text false).2.2
      refine ⟨asks.trans (List.map_congr_left fun c _ => chord_plain c.property),
        ⟨mods, caps, word, ?_, repeating⟩⟩
      intro t member
      simp only [Intent.step] at member
      split at member
      · exact tapped t member
      · cases member
  | repeats =>
      refine ⟨?_, ⟨mods, caps, word, ?_, repeating⟩⟩
      · simp only [OnScreenKeyboard.step, Intent.step, ← repeating]
        cases kb.repeating <;> rfl
      · intro t member
        simp only [Intent.step] at member
        split at member
        · cases member
        · exact tapped t member

/-! ## Runs -/

theorem carry_key (b : Backend) (s : Stroke) : (b.carry s).key = s.key := by
  cases b <;> rfl

theorem carry_eq (b : Backend) (s : Stroke) : b.carry s = s ↔ b = .mac ∨ s.held = {} := by
  obtain ⟨key, held⟩ := s
  cases b <;> simp [Backend.carry, eq_comm]

theorem map_carry_eq (b : Backend) (strokes : List Stroke) :
    strokes.map b.carry = strokes ↔ b = .mac ∨ ∀ s ∈ strokes, s.held = {} := by
  have pointwise : strokes.map b.carry = strokes ↔ ∀ s ∈ strokes, b.carry s = s := by
    have maps := List.map_inj_left (l := strokes) (f := b.carry) (g := id)
    rwa [List.map_id] at maps
  rw [pointwise]
  simp only [carry_eq]
  by_cases mac : b = .mac
  · simp [mac]
  · simp [mac]

theorem asks_plain {p : KeyPress} (listed : p.Listed) : p.asks.held = {} ↔ p.mods = 0 :=
  Modifiers.ofMask_eq_empty listed.2

/-- What a backend needs of an event. -/
def Safe (b : Backend) (kb : OnScreenKeyboard) (i : Intent) (ev : KeyboardEvent) : Prop :=
  SpaceSafe kb i ev ∧ (b = .mac ∨ kb.Unmodified ev)

def SafeRun (b : Backend) : OnScreenKeyboard → Intent → List KeyboardEvent → Prop
  | _, _, [] => True
  | kb, i, ev :: evs => Safe b kb i ev ∧ SafeRun b (kb.step ev).1 (i.step ev).1 evs

theorem WellKept.presses {kb : OnScreenKeyboard} (h : kb.WellKept) (evs : List KeyboardEvent) :
    ∀ p ∈ kb.presses evs, p.Listed := by
  induction evs generalizing kb with
  | nil => exact fun _ empty => nomatch empty
  | cons ev evs ih =>
      obtain ⟨kept, listed⟩ := h.step ev
      exact List.forall_mem_append.mpr ⟨listed, ih kept⟩

/-- A Space that is taken for the second of a double tap sends a Backspace first. -/
theorem spoiled {kb : OnScreenKeyboard} {i : Intent} {now : Rat} (both : kb.doubleTap now)
    (alone : ¬ i.doubleTap now) (b : Backend) (xs ys : List Stroke) :
    ((kb.step (.named .space now)).2.map fun p => b.carry p.asks) ++ xs ≠
      (i.step (.named .space now)).2 ++ ys := by
  have found : codeToHid NamedKey.space.code = some 0x2C := rfl
  have sent : (kb.step (.named .space now)).2 =
      ⟨0x2A, 0⟩ :: (charPress 0 false '.' ++ [⟨0x2C, 0⟩]) := by
    simp only [OnScreenKeyboard.step, found, code_eq_space, both, and_self, if_true]
    rfl
  have meant : (i.step (.named .space now)).2 = [{ key := .char ' ', held := i.armed }] := by
    simp only [Intent.step, alone, if_true, if_false]
    rfl
  rw [sent, meant]
  intro same
  have head := congrArg (fun strokes => strokes.head?.map Stroke.key) same
  simp only [List.map_cons, List.cons_append, List.head?_cons, Option.map_some, carry_key] at head
  exact absurd head (by decide)

theorem carried_iff {kb : OnScreenKeyboard} {i : Intent} (kept : kb.WellKept)
    (agrees : Agrees kb i) (b : Backend) (evs : List KeyboardEvent) :
    (kb.presses evs).map (fun p => b.carry p.asks) = i.strokes evs ↔ SafeRun b kb i evs := by
  induction evs generalizing kb i with
  | nil => exact iff_of_true rfl trivial
  | cons ev evs ih =>
      simp only [OnScreenKeyboard.presses, Intent.strokes, List.map_append, SafeRun, Safe]
      by_cases space : SpaceSafe kb i ev
      · obtain ⟨asks, next⟩ := agrees.step space
        have unarmed : ∀ now, ev = .named .space now → kb.doubleTap now → kb.mods = 0 := by
          intro now here both
          rw [agrees.mods, (space now here both).1]
          rfl
        have plain : (∀ s ∈ (i.step ev).2, s.held = {}) ↔ kb.Unmodified ev := by
          rw [← asks, List.forall_mem_map, ← kept.plain_iff unarmed]
          exact forall₂_congr fun p member => asks_plain ((kept.step ev).2 p member)
        have carried : (kb.step ev).2.map (fun p => b.carry p.asks) =
            (i.step ev).2.map b.carry := by
          rw [← asks, List.map_map]
          rfl
        rw [carried, ← ih (kept.step ev).1 next, ← plain, ← map_carry_eq]
        constructor
        · intro same
          obtain ⟨here, rest⟩ := List.append_inj same (List.length_map ..)
          exact ⟨⟨space, here⟩, rest⟩
        · rintro ⟨⟨-, here⟩, rest⟩
          rw [here, rest]
      · refine iff_of_false ?_ fun h => space h.1.1
        simp only [SpaceSafe, not_forall] at space
        obtain ⟨now, rfl, both, alone⟩ := space
        exact spoiled both alone b _ _

theorem wellKept_start : WellKept {} := ⟨by decide, fun _ empty => nomatch empty⟩

theorem agrees_start : Agrees {} {} :=
  ⟨by decide, rfl, rfl, fun _ empty => (nomatch empty), rfl⟩

/-- What a run types is what is meant exactly if every Space that is taken for the second of a
double tap is one, and, on Linux, no modifier is in force at any time. -/
theorem typed_exact_iff (inj : Injector) :
    (∀ evs : List KeyboardEvent,
      inj.types (sends {} evs) = Intent.strokes {} evs ↔ SafeRun inj.backend {} {} evs) ∧
    ∀ text : List Typable,
      (inj.types (sends {} [.dictate text])).map Stroke.char =
          text.map (fun c => some (entered c.val)) ↔
        inj.backend = .mac ∨ ∀ c ∈ text, shifted c.val = false := by
  have types : ∀ evs, inj.types (sends {} evs) =
      (presses {} evs).map fun p => inj.backend.carry p.asks :=
    fun evs => types_presses inj _ (wellKept_start.presses evs)
  refine ⟨fun evs => ?_, fun text => ?_⟩
  · rw [types, carried_iff wellKept_start agrees_start]
  · have asks := (text_listed Subtype.val Subtype.property text false).2.2
    have typed : inj.types (sends {} [.dictate text]) =
        text.map fun c => inj.backend.carry (strokeOf c.val) := by
      rw [types]
      have sent : presses {} [.dictate text] = text.flatMap fun c => charPress 0 false c.val :=
        List.append_nil _
      rw [sent, show (fun p : KeyPress => inj.backend.carry p.asks) =
        inj.backend.carry ∘ KeyPress.asks from rfl, ← List.map_map, asks, List.map_map]
      exact List.map_congr_left fun c _ => congrArg _ (chord_plain c.property)
    have bare : ∀ c : Char, (charToHid c).isSome →
        (({ strokeOf c with held := {} } : Stroke).char = some (entered c) ↔ shifted c = false) :=
      fun c => typable_cases (P := fun c => ({ strokeOf c with held := {} } : Stroke).char =
        some (entered c) ↔ shifted c = false) (by decide +kernel)
    rw [typed, List.map_map, List.map_inj_left]
    cases inj with
    | mac s => exact iff_of_true (fun c _ => char_strokeOf c.property) (.inl rfl)
    | uinput s | x11 s =>
        simp only [Injector.backend, reduceCtorEq, false_or]
        exact forall₂_congr fun c _ => bare c.val c.property

/-- Dictation of a capital letter and a chord on Linux; a letter between two quick Spaces. -/
theorem typed_differently :
    ((Injector.uinput (.new none)).types (sends {} [.dictate [⟨'A', rfl⟩]])).map Stroke.char =
      [some 'a'] ∧
    (Injector.x11 (.new (.fin 800) (.fin 600))).types
        (sends {} [.sticky .ctrl, .letter ⟨'c', by decide⟩]) =
      [{ key := .char 'c', held := {} }] ∧
    Intent.strokes {} [.sticky .ctrl, .letter ⟨'c', by decide⟩] =
      [{ key := .char 'c', held := { control := true } }] ∧
    (Injector.mac (.new (.fin 800) (.fin 600))).types
        (sends {} [.named .space 1000, .letter ⟨'a', by decide⟩, .named .space 1200]) =
      [strokeOf ' ', strokeOf 'a', backspace, strokeOf '.', strokeOf ' '] ∧
    Intent.strokes {} [.named .space 1000, .letter ⟨'a', by decide⟩, .named .space 1200] =
      [strokeOf ' ', strokeOf 'a', strokeOf ' '] := by
  refine ⟨?_, ?_, ?_, ?_, ?_⟩ <;> decide +kernel

end OnScreenKeyboard
end ReachMyDevice
