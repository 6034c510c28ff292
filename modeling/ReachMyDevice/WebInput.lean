import ReachMyDevice.Input

/-!
# What the web viewer makes of keys and buttons

The encoders of the browser: characters, `KeyboardEvent.code` and
`MouseEvent.button` become HID usages, modifier bits and protocol buttons.
-/
namespace ReachMyDevice

namespace modifiers

def shift : Nat := 1 <<< 0
def control : Nat := 1 <<< 1
def alt : Nat := 1 <<< 2
def metaKey : Nat := 1 <<< 3
def capsLock : Nat := 1 <<< 4

end modifiers

/-- The bit for the name of a key of the modifier bar. -/
def modBit (name : String) : Nat :=
  if name = "ctrl" then modifiers.control
  else if name = "alt" then modifiers.alt
  else if name = "super" ∨ name = "meta" then modifiers.metaKey
  else if name = "shift" then modifiers.shift
  else 0

/-- The characters that are not letters, with the usage of their key and whether Shift is held. -/
def charTable : List (Char × Nat × Bool) :=
  [('1', 0x1E, false), ('2', 0x1F, false), ('3', 0x20, false), ('4', 0x21, false),
   ('5', 0x22, false), ('6', 0x23, false), ('7', 0x24, false), ('8', 0x25, false),
   ('9', 0x26, false), ('0', 0x27, false), ('!', 0x1E, true), ('@', 0x1F, true), ('#', 0x20, true),
   ('$', 0x21, true), ('%', 0x22, true), ('^', 0x23, true), ('&', 0x24, true), ('*', 0x25, true),
   ('(', 0x26, true), (')', 0x27, true), (' ', 0x2C, false), ('\n', 0x28, false),
   ('\r', 0x28, false), ('\t', 0x2B, false), ('-', 0x2D, false), ('_', 0x2D, true),
   ('=', 0x2E, false), ('+', 0x2E, true), ('[', 0x2F, false), ('\x7b', 0x2F, true),
   (']', 0x30, false), ('\x7d', 0x30, true), ('\x5c', 0x31, false), ('|', 0x31, true),
   (';', 0x33, false), (':', 0x33, true), ('\x27', 0x34, false), ('\x22', 0x34, true),
   ('\x60', 0x35, false), ('~', 0x35, true), (',', 0x36, false), ('<', 0x36, true),
   ('.', 0x37, false), ('>', 0x37, true), ('/', 0x38, false), ('?', 0x38, true)]

/-- The usage that types a character on a US keyboard, and whether Shift is held. -/
def charToHid (c : Char) : Option (Nat × Bool) :=
  if 'a' ≤ c ∧ c ≤ 'z' then some (0x04 + (c.toNat - 'a'.toNat), false)
  else if 'A' ≤ c ∧ c ≤ 'Z' then some (0x04 + (c.toNat - 'A'.toNat), true)
  else charTable.lookup c

def codeTable : List (String × Nat) :=
  [("KeyA", 0x04), ("KeyB", 0x05), ("KeyC", 0x06), ("KeyD", 0x07), ("KeyE", 0x08), ("KeyF", 0x09),
   ("KeyG", 0x0A), ("KeyH", 0x0B), ("KeyI", 0x0C), ("KeyJ", 0x0D), ("KeyK", 0x0E), ("KeyL", 0x0F),
   ("KeyM", 0x10), ("KeyN", 0x11), ("KeyO", 0x12), ("KeyP", 0x13), ("KeyQ", 0x14), ("KeyR", 0x15),
   ("KeyS", 0x16), ("KeyT", 0x17), ("KeyU", 0x18), ("KeyV", 0x19), ("KeyW", 0x1A), ("KeyX", 0x1B),
   ("KeyY", 0x1C), ("KeyZ", 0x1D), ("Digit1", 0x1E), ("Digit2", 0x1F), ("Digit3", 0x20),
   ("Digit4", 0x21), ("Digit5", 0x22), ("Digit6", 0x23), ("Digit7", 0x24), ("Digit8", 0x25),
   ("Digit9", 0x26), ("Digit0", 0x27), ("Enter", 0x28), ("Escape", 0x29), ("Backspace", 0x2A),
   ("Tab", 0x2B), ("Space", 0x2C), ("Minus", 0x2D), ("Equal", 0x2E), ("BracketLeft", 0x2F),
   ("BracketRight", 0x30), ("Backslash", 0x31), ("Semicolon", 0x33), ("Quote", 0x34),
   ("Backquote", 0x35), ("Comma", 0x36), ("Period", 0x37), ("Slash", 0x38), ("CapsLock", 0x39),
   ("F1", 0x3A), ("F2", 0x3B), ("F3", 0x3C), ("F4", 0x3D), ("F5", 0x3E), ("F6", 0x3F), ("F7", 0x40),
   ("F8", 0x41), ("F9", 0x42), ("F10", 0x43), ("F11", 0x44), ("F12", 0x45), ("PrintScreen", 0x46),
   ("ScrollLock", 0x47), ("Pause", 0x48), ("Insert", 0x49), ("Home", 0x4A), ("PageUp", 0x4B),
   ("Delete", 0x4C), ("End", 0x4D), ("PageDown", 0x4E), ("ArrowRight", 0x4F), ("ArrowLeft", 0x50),
   ("ArrowDown", 0x51), ("ArrowUp", 0x52), ("ControlLeft", 0xE0), ("ShiftLeft", 0xE1),
   ("AltLeft", 0xE2), ("MetaLeft", 0xE3), ("ControlRight", 0xE4), ("ShiftRight", 0xE5),
   ("AltRight", 0xE6), ("MetaRight", 0xE7)]

def codeToHid (code : String) : Option Nat := codeTable.lookup code

/-- `Left`, `Middle` and `Right`; any other button of the page is `Unspecified`. -/
def domButtonToProto (button : Int) : Int :=
  if button = 0 then 1 else if button = 1 then 3 else if button = 2 then 2 else 0

/-- One `kb_send`: the usage and the modifier bits. -/
structure KeyPress where
  hid : Nat
  mods : Nat
  deriving DecidableEq, Repr

/-- The key goes down and up, with the same bits. -/
def KeyPress.events (p : KeyPress) : List InputEvent :=
  [.key { hidUsage := p.hid, pressed := true, modifiers := p.mods },
    .key { hidUsage := p.hid, pressed := false, modifiers := p.mods }]

/-- The character is typed with Shift. -/
def shifted (c : Char) : Bool := (charToHid c).any (·.2)

end ReachMyDevice
