import ReachMyDevice.Keymaps
import ReachMyDevice.WebInput

/-!
# What a host with a US keyboard types

A stroke is a key with the modifiers that are in force. On Linux the keys that
are held are in force, on macOS the flags of the event.
-/
namespace ReachMyDevice

/-- A key of the keyboard, by what it types without a modifier. -/
inductive KeyCap
  | char (c : Char)
  | escape | backspace | delete | left | right | up | down
  | shift | control | alt | super
  | other (code : Nat)
  deriving DecidableEq, Repr

structure Modifiers where
  shift : Bool := false
  control : Bool := false
  alt : Bool := false
  super : Bool := false
  deriving DecidableEq, Repr

structure Stroke where
  key : KeyCap
  held : Modifiers
  deriving DecidableEq, Repr

namespace Modifiers

def ofMask (mask : Nat) : Modifiers where
  shift := mask.testBit 0
  control := mask.testBit 1
  alt := mask.testBit 2
  super := mask.testBit 3

def ofHeld (held : List KeyCap) : Modifiers where
  shift := held.contains .shift
  control := held.contains .control
  alt := held.contains .alt
  super := held.contains .super

end Modifiers

namespace KeyCap

def isModifier : KeyCap → Bool
  | .shift | .control | .alt | .super => true
  | _ => false

/-- Linux key codes. -/
def evdevCaps : List (Nat × KeyCap) :=
  [(1, .escape), (2, .char '1'), (3, .char '2'), (4, .char '3'), (5, .char '4'), (6, .char '5'),
   (7, .char '6'), (8, .char '7'), (9, .char '8'), (10, .char '9'), (11, .char '0'),
   (12, .char '-'), (13, .char '='), (14, .backspace), (15, .char '\t'), (16, .char 'q'),
   (17, .char 'w'), (18, .char 'e'), (19, .char 'r'), (20, .char 't'), (21, .char 'y'),
   (22, .char 'u'), (23, .char 'i'), (24, .char 'o'), (25, .char 'p'), (26, .char '['),
   (27, .char ']'), (28, .char '\n'), (29, .control), (30, .char 'a'), (31, .char 's'),
   (32, .char 'd'), (33, .char 'f'), (34, .char 'g'), (35, .char 'h'), (36, .char 'j'),
   (37, .char 'k'), (38, .char 'l'), (39, .char ';'), (40, .char '\x27'), (41, .char '\x60'),
   (42, .shift), (43, .char '\x5c'), (44, .char 'z'), (45, .char 'x'), (46, .char 'c'),
   (47, .char 'v'), (48, .char 'b'), (49, .char 'n'), (50, .char 'm'), (51, .char ','),
   (52, .char '.'), (53, .char '/'), (54, .shift), (56, .alt), (57, .char ' '), (97, .control),
   (100, .alt), (103, .up), (105, .left), (106, .right), (108, .down), (111, .delete),
   (125, .super), (126, .super)]

/-- Virtual key codes of an ANSI keyboard. -/
def macCaps : List (Nat × KeyCap) :=
  [(0, .char 'a'), (1, .char 's'), (2, .char 'd'), (3, .char 'f'), (4, .char 'h'), (5, .char 'g'),
   (6, .char 'z'), (7, .char 'x'), (8, .char 'c'), (9, .char 'v'), (11, .char 'b'), (12, .char 'q'),
   (13, .char 'w'), (14, .char 'e'), (15, .char 'r'), (16, .char 'y'), (17, .char 't'),
   (18, .char '1'), (19, .char '2'), (20, .char '3'), (21, .char '4'), (22, .char '6'),
   (23, .char '5'), (24, .char '='), (25, .char '9'), (26, .char '7'), (27, .char '-'),
   (28, .char '8'), (29, .char '0'), (30, .char ']'), (31, .char 'o'), (32, .char 'u'),
   (33, .char '['), (34, .char 'i'), (35, .char 'p'), (36, .char '\n'), (37, .char 'l'),
   (38, .char 'j'), (39, .char '\x27'), (40, .char 'k'), (41, .char ';'), (42, .char '\x5c'),
   (43, .char ','), (44, .char '/'), (45, .char 'n'), (46, .char 'm'), (47, .char '.'),
   (48, .char '\t'), (49, .char ' '), (50, .char '\x60'), (51, .backspace), (53, .escape),
   (54, .super), (55, .super), (56, .shift), (58, .alt), (59, .control), (60, .shift), (61, .alt),
   (62, .control), (117, .delete), (123, .left), (124, .right), (125, .down), (126, .up)]

def ofTable (table : List (Nat × KeyCap)) (code : Nat) : KeyCap :=
  (table.lookup code).getD (.other code)

end KeyCap

inductive Backend
  | uinput | x11 | mac
  deriving DecidableEq, Repr

namespace Backend

def keyCap : Backend → Nat → KeyCap
  | .uinput, code => .ofTable KeyCap.evdevCaps code
  -- The keycodes of an X server are those of Linux and 8.
  | .x11, code => .ofTable KeyCap.evdevCaps (code - 8)
  | .mac, code => .ofTable KeyCap.macCaps code

/-- What is typed by a run of events, from a state of the host where `held` is down. -/
def typed (b : Backend) : List KeyCap → List OsEvent → List Stroke
  | held, .press (.key code) :: evs =>
    let key := b.keyCap code
    if key.isModifier then b.typed (held.insert key) evs
    else { key, held := .ofHeld held } :: b.typed held evs
  | held, .release (.key code) :: evs => b.typed (held.erase (b.keyCap code)) evs
  | held, .cgKey code true flags :: evs =>
    let key := b.keyCap code
    if key.isModifier then b.typed held evs
    else { key, held := .ofMask flags } :: b.typed held evs
  | held, _ :: evs => b.typed held evs
  | _, [] => []

end Backend

def Injector.backend : Injector → Backend
  | .uinput _ => .uinput
  | .x11 _ => .x11
  | .mac _ => .mac

/-- The events of the operating system for a run of input events, no call failing. -/
def Injector.processed (keymap : Keymap) (i : Injector) : List InputEvent → List OsEvent
  | [] => []
  | ev :: evs =>
    (i.inject keymap (fun _ => true) ev).2 ++
      Injector.processed keymap (i.inject keymap (fun _ => true) ev).1 evs

/-- What the host types, with no other key held. -/
def Injector.types (i : Injector) (evs : List InputEvent) : List Stroke :=
  i.backend.typed [] (i.processed .tables evs)

/-! ## Characters -/

/-- What a key types without Shift and with it. -/
def legends : List (Char × Char) :=
  [('\n', '\n'), ('\t', '\t'), (' ', ' '), ('\x60', '~'), ('1', '!'), ('2', '@'), ('3', '#'),
   ('4', '$'), ('5', '%'), ('6', '^'), ('7', '&'), ('8', '*'), ('9', '('), ('0', ')'), ('-', '_'),
   ('=', '+'), ('q', 'Q'), ('w', 'W'), ('e', 'E'), ('r', 'R'), ('t', 'T'), ('y', 'Y'), ('u', 'U'),
   ('i', 'I'), ('o', 'O'), ('p', 'P'), ('[', '\x7b'), (']', '\x7d'), ('\x5c', '|'), ('a', 'A'),
   ('s', 'S'), ('d', 'D'), ('f', 'F'), ('g', 'G'), ('h', 'H'), ('j', 'J'), ('k', 'K'), ('l', 'L'),
   (';', ':'), ('\x27', '\x22'), ('z', 'Z'), ('x', 'X'), ('c', 'C'), ('v', 'V'), ('b', 'B'),
   ('n', 'N'), ('m', 'M'), (',', '<'), ('.', '>'), ('/', '?')]

/-- A chord types no character. -/
def Stroke.char (s : Stroke) : Option Char :=
  match s.key with
  | .char c =>
    if s.held.control ∨ s.held.alt ∨ s.held.super then none
    else if s.held.shift then legends.lookup c
    else some c
  | _ => none

/-- The Enter key types a line feed, also where the text has a carriage return. -/
def entered (c : Char) : Char := if c = '\r' then '\n' else c

/-- The stroke that types a character. -/
def strokeOf (c : Char) : Stroke :=
  match legends.find? fun e => e.1 = entered c ∨ e.2 = entered c with
  | some e => { key := .char e.1, held := { shift := e.1 ≠ entered c } }
  | none => { key := .char c, held := {} }

end ReachMyDevice
