import Mathlib.Data.Rat.Defs
import Mathlib.Algebra.Order.Ring.Rat
import ReachMyDevice.UsLayout

/-!
# The on-screen keyboard

What `attach_keyboard`, `attach_swipe` and `attach_dictation` send for a run of
touches, and what the one who touches means by it.
-/
namespace ReachMyDevice

/-- The characters that can be typed. -/
abbrev Typable := { c : Char // (charToHid c).isSome }

abbrev Letter := { c : Char // 'a' ≤ c ∧ c ≤ 'z' }

/-- A word of the swipe decoder. -/
structure SwipeWord where
  letters : List Letter
  long : 2 ≤ letters.length
  deriving DecidableEq

inductive StickyKey
  | ctrl | alt | super | shift
  deriving DecidableEq, Repr

/-- The keys with a `data-code`. -/
inductive NamedKey
  | escape | backspace | tab | arrowUp | arrowLeft | arrowDown | arrowRight | space | enter
  deriving DecidableEq, Repr

def StickyKey.name : StickyKey → String
  | .ctrl => "ctrl"
  | .alt => "alt"
  | .super => "super"
  | .shift => "shift"

def NamedKey.code : NamedKey → String
  | .escape => "Escape"
  | .backspace => "Backspace"
  | .tab => "Tab"
  | .arrowUp => "ArrowUp"
  | .arrowLeft => "ArrowLeft"
  | .arrowDown => "ArrowDown"
  | .arrowRight => "ArrowRight"
  | .space => "Space"
  | .enter => "Enter"

/-- `now` is the clock of the page, in milliseconds. -/
inductive KeyboardEvent
  | sticky (k : StickyKey)
  | capsLock
  /-- A character key outside of the letter layer. -/
  | symbol (c : Typable)
  | letter (l : Letter)
  /-- A swipe with the candidates that were decoded, best first. -/
  | swipe (words : List SwipeWord)
  | suggestion (word : SwipeWord)
  | ctrlAltDel
  | named (k : NamedKey) (now : Rat)
  | dictate (text : List Typable)
  /-- The key that is held down repeats. -/
  | repeats
  | lift
  deriving DecidableEq

/-- A second Space within this time is a double tap. -/
def doubleSpaceMs : Rat := 350

structure OnScreenKeyboard where
  mods : Nat := 0
  caps : Bool := false
  lastSpace : Rat := 0
  lastWordLen : Nat := 0
  repeating : Option KeyPress := none
  deriving DecidableEq

namespace OnScreenKeyboard

/-- The usage of a character, with Shift if the character or `upper` asks for it. -/
def charPress (mods : Nat) (upper : Bool) (c : Char) : List KeyPress :=
  match charToHid c with
  | some (hid, shift) => [⟨hid, if shift || upper then mods ||| modBit "shift" else mods⟩]
  | none => []

/-- `kb_send_word`: the word and a space. -/
def wordPresses (word : SwipeWord) (caps : Bool) : List KeyPress :=
  word.letters.flatMap (fun l => charPress 0 caps l.val) ++ [⟨0x2C, 0⟩]

def doubleTap (kb : OnScreenKeyboard) (now : Rat) : Prop :=
  0 < kb.lastSpace ∧ now - kb.lastSpace < doubleSpaceMs

instance (kb : OnScreenKeyboard) (now : Rat) : Decidable (kb.doubleTap now) :=
  inferInstanceAs (Decidable (_ ∧ _))

def step (kb : OnScreenKeyboard) : KeyboardEvent → OnScreenKeyboard × List KeyPress
  | .sticky k =>
    let bit := modBit k.name
    -- `mods & !bit` when the bit is set.
    let mods := if kb.mods &&& bit ≠ 0 then kb.mods - bit else kb.mods ||| bit
    ({ kb with mods, repeating := none }, [])
  | .capsLock => ({ kb with caps := !kb.caps, repeating := none }, [])
  | .symbol c =>
    let presses := charPress kb.mods false c
    ({ kb with mods := 0, repeating := presses.head? }, presses)
  | .letter l => ({ kb with mods := 0 }, charPress kb.mods kb.caps l)
  | .swipe words =>
    match words with
    | [] => ({ kb with mods := 0 }, [])
    | best :: _ =>
      ({ kb with mods := 0, lastWordLen := best.letters.length + 1 }, wordPresses best kb.caps)
  | .suggestion word =>
    ({ kb with lastWordLen := word.letters.length + 1 },
      List.replicate kb.lastWordLen ⟨0x2A, 0⟩ ++ wordPresses word kb.caps)
  | .ctrlAltDel =>
    ({ kb with mods := 0, repeating := none }, [⟨0x4C, modBit "ctrl" ||| modBit "alt"⟩])
  | .named k now =>
    match codeToHid k.code with
    | none => ({ kb with mods := 0, repeating := none }, [])
    | some hid =>
      if k.code = "Space" ∧ kb.doubleTap now then
        ({ kb with mods := 0, lastSpace := 0, repeating := none },
          [⟨0x2A, 0⟩] ++ charPress 0 false '.' ++ [⟨0x2C, 0⟩])
      else
        ({ kb with
            mods := 0
            lastSpace := if k.code = "Space" then now else kb.lastSpace
            repeating := some ⟨hid, kb.mods⟩ },
          [⟨hid, kb.mods⟩])
  | .dictate text => (kb, text.flatMap fun c => charPress 0 false c.val)
  | .repeats => (kb, kb.repeating.toList)
  | .lift => ({ kb with repeating := none }, [])

def presses : OnScreenKeyboard → List KeyboardEvent → List KeyPress
  | _, [] => []
  | kb, ev :: evs => (kb.step ev).2 ++ presses (kb.step ev).1 evs

/-- What a run sends on the data channel. -/
def sends (kb : OnScreenKeyboard) (evs : List KeyboardEvent) : List InputEvent :=
  (kb.presses evs).flatMap KeyPress.events

end OnScreenKeyboard

def Modifiers.toggle (m : Modifiers) : StickyKey → Modifiers
  | .ctrl => { m with control := !m.control }
  | .alt => { m with alt := !m.alt }
  | .super => { m with super := !m.super }
  | .shift => { m with shift := !m.shift }

def NamedKey.cap : NamedKey → KeyCap
  | .escape => .escape
  | .backspace => .backspace
  | .tab => .char '\t'
  | .arrowUp => .up
  | .arrowLeft => .left
  | .arrowDown => .down
  | .arrowRight => .right
  | .space => .char ' '
  | .enter => .char '\n'

/-- What is meant by the touches. `tapped` is the time of a Space that was the last thing typed. -/
structure Intent where
  armed : Modifiers := {}
  caps : Bool := false
  tapped : Option Rat := none
  word : Nat := 0
  repeating : Option Stroke := none
  deriving DecidableEq

namespace Intent

/-- A character with the modifiers that are held. -/
def chord (held : Modifiers) (upper : Bool) (c : Char) : Stroke where
  key := (strokeOf c).key
  held := { held with shift := (strokeOf c).held.shift || held.shift || upper }

def wordStrokes (word : SwipeWord) (caps : Bool) : List Stroke :=
  word.letters.map (fun l => chord {} caps l.val) ++ [strokeOf ' ']

def backspace : Stroke := { key := .backspace, held := {} }

def doubleTap (i : Intent) (now : Rat) : Prop :=
  i.armed = {} ∧ i.tapped.any (fun t => now - t < doubleSpaceMs) = true

instance (i : Intent) (now : Rat) : Decidable (i.doubleTap now) :=
  inferInstanceAs (Decidable (_ ∧ _))

def step (i : Intent) : KeyboardEvent → Intent × List Stroke
  | .sticky k => ({ i with armed := i.armed.toggle k, repeating := none }, [])
  | .capsLock => ({ i with caps := !i.caps, repeating := none }, [])
  | .symbol c =>
    let stroke := chord i.armed false c
    ({ i with armed := {}, tapped := none, repeating := some stroke }, [stroke])
  | .letter l => ({ i with armed := {}, tapped := none }, [chord i.armed i.caps l])
  | .swipe [] => ({ i with armed := {} }, [])
  | .swipe (best :: _) =>
    ({ i with armed := {}, tapped := none, word := best.letters.length + 1 },
      wordStrokes best i.caps)
  -- The last word and its space give way to the candidate.
  | .suggestion word =>
    ({ i with tapped := none, word := word.letters.length + 1 },
      List.replicate i.word backspace ++ wordStrokes word i.caps)
  | .ctrlAltDel =>
    ({ i with armed := {}, tapped := none, repeating := none },
      [{ key := .delete, held := { control := true, alt := true } }])
  | .named k now =>
    let stroke := { key := k.cap, held := i.armed }
    if k = .space then
      -- Twice in a row: the space that was typed becomes a period and a space.
      if i.doubleTap now then
        ({ i with armed := {}, tapped := none, repeating := none },
          [backspace, strokeOf '.', strokeOf ' '])
      else
        ({ i with
            armed := {}
            tapped := if i.armed = {} ∧ 0 < now then some now else none
            repeating := some stroke },
          [stroke])
    else ({ i with armed := {}, tapped := none, repeating := some stroke }, [stroke])
  | .dictate text =>
    ({ i with tapped := if text = [] then i.tapped else none }, text.map fun c => strokeOf c.val)
  | .repeats =>
    ({ i with tapped := if i.repeating.isSome then none else i.tapped }, i.repeating.toList)
  | .lift => ({ i with repeating := none }, [])

def strokes : Intent → List KeyboardEvent → List Stroke
  | _, [] => []
  | i, ev :: evs => (i.step ev).2 ++ strokes (i.step ev).1 evs

end Intent
end ReachMyDevice
