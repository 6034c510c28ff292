import ReachMyDevice.Lib.Exchange
import ReachMyDevice.Lib.Machine
import ReachMyDevice.Clipboard

/-!
# Two clipboards that are kept in sync

Each side runs the clipboard thread over its own clipboard, and the updates of
one travel to the other in order. Users copy at any time.
-/
namespace ReachMyDevice
open Machines Exchanges

/-- The text of an update, if it is one. -/
def ClipboardUpdate.text? (u : ClipboardUpdate) : Option String :=
  if u.kind = clipboardKindText then fromUtf8 u.data else none

def Envelope.clipboard? (env : Envelope) : Option ClipboardUpdate :=
  match env.payload with
  | some (.clipboard u) => some u
  | _ => none

/-- The text that `applyNext` hands to `set_text`, if that takes it. -/
def ClipboardSync.taken (c : ClipboardSync) (setText : Bool) : Option String :=
  if setText then c.incoming.head?.bind ClipboardUpdate.text? else none

/-- A text that a poll sends. -/
def ClipboardSync.Notices (c : ClipboardSync) (content : Option String) : Prop :=
  ∃ text ∈ content, text ≠ "" ∧ fnv1a (utf8 text) ≠ c.lastHash

structure ClipboardEnd where
  /-- What `get_text` returns; none when there is no text. -/
  clipboard : Option String
  sync : ClipboardSync := .new
  /-- The text that was set or sent last. -/
  known : Option String := none
  /-- The thread has found no more updates and looks at the clipboard next. -/
  drained : Bool := false
  /-- It has looked at the clipboard since that changed. -/
  polled : Bool := false
  deriving DecidableEq

structure ClipboardPair where
  ends : Side → ClipboardEnd
  channel : Side → List ClipboardUpdate := fun _ => []
  /-- The update that was sent last crossed one with another text. -/
  crossed : Bool := false

inductive ClipboardLabel
  | copy (x : Side) (content : Option String)
  | deliver (x : Side)
  | apply (x : Side) (setText : Bool)
  | drain (x : Side)
  | poll (x : Side) (readable : Bool)
  deriving DecidableEq

/-- An empty text is no text. -/
def ClipboardEnd.text (e : ClipboardEnd) : Option String := e.clipboard.filter (· ≠ "")

namespace ClipboardPair

def updateEnd (s : ClipboardPair) (x : Side) (e : ClipboardEnd) : ClipboardPair :=
  { s with ends := Function.update s.ends x e }

/-- The texts on the way to a side, in its channel or waiting for its thread. -/
def way (s : ClipboardPair) (x : Side) : List String :=
  ((s.ends x).sync.incoming ++ s.channel x).filterMap ClipboardUpdate.text?

/-- The clipboard is read, and an update sent if its text is another. -/
def polls (s : ClipboardPair) (x : Side) (content : Option String) : ClipboardPair :=
  let e := s.ends x
  let updates := (e.sync.poll content).2.filterMap Envelope.clipboard?
  let sent := updates.head?.bind ClipboardUpdate.text?
  { ends := Function.update s.ends x
      { e with sync := (e.sync.poll content).1, known := sent.or e.known }
    channel := Function.update s.channel x.other (s.channel x.other ++ updates)
    crossed :=
      match sent with
      | none => s.crossed
      | some text => (s.way x).getLast?.any (· ≠ text) }

def step (s : ClipboardPair) : ClipboardLabel → Option ClipboardPair
  | .copy x content => some (s.updateEnd x { s.ends x with clipboard := content, polled := false })
  | .deliver x =>
    match s.channel x with
    | [] => none
    | u :: rest =>
      some { s.updateEnd x { s.ends x with sync := (s.ends x).sync.applyRemote u } with
        channel := Function.update s.channel x rest }
  | .apply x setText =>
    let e := s.ends x
    if e.drained ∨ e.sync.incoming = [] then none
    else
      let e' := { e with sync := e.sync.applyNext setText }
      match e.sync.taken setText with
      | none => some (s.updateEnd x e')
      | some text =>
        some (s.updateEnd x { e' with clipboard := some text, known := some text, polled := false })
  | .drain x =>
    if (s.ends x).drained ∨ (s.ends x).sync.incoming ≠ [] then none
    else some (s.updateEnd x { s.ends x with drained := true })
  | .poll x readable =>
    let e := s.ends x
    if e.drained then
      let s := s.updateEnd x { e with drained := false, polled := e.polled || readable }
      some (s.polls x (if readable then e.clipboard else none))
    else none

/-- Two clipboards with anything in them, before any thread has looked. -/
def machine : Machine ClipboardPair ClipboardLabel where
  init s := ∃ contents : Side → Option String, s = { ends := fun x => { clipboard := contents x } }
  step := step

/-- Nothing is on the way and both clipboards were looked at as they are. -/
def Quiet (s : ClipboardPair) : Prop :=
  ∀ x, s.channel x = [] ∧ (s.ends x).sync.incoming = [] ∧ (s.ends x).polled = true

/-- `set_text` fails only where a later update makes up for it, or where its text is there; and a
change that is looked at is one the thread can tell. -/
def Sound (s : ClipboardPair) : ClipboardLabel → Prop
  | .apply x false =>
    ∀ u ∈ (s.ends x).sync.incoming.head?, ∀ text ∈ u.text?,
      (s.way x).tail = [] → (s.ends x).known = some text
  | .poll x true =>
    (s.ends x).text = (s.ends x).known ∨ (s.ends x).sync.Notices (s.ends x).clipboard
  | _ => True

instance (c : ClipboardSync) (content : Option String) : Decidable (c.Notices content) :=
  inferInstanceAs (Decidable (∃ text ∈ content, text ≠ "" ∧ fnv1a (utf8 text) ≠ c.lastHash))

instance (s : ClipboardPair) : ∀ a, Decidable (Sound s a)
  | .apply x false =>
    inferInstanceAs (Decidable (∀ u ∈ (s.ends x).sync.incoming.head?, ∀ text ∈ u.text?,
      (s.way x).tail = [] → (s.ends x).known = some text))
  | .apply _ true => .isTrue trivial
  | .poll _ true => inferInstanceAs (Decidable (_ ∨ _))
  | .poll _ false => .isTrue trivial
  | .copy _ _ | .deliver _ | .drain _ => .isTrue trivial

end ClipboardPair
end ReachMyDevice
