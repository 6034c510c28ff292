import ReachMyDevice.Protocol

/-!
# The clipboard thread

What the operating system's clipboard returns and accepts is an argument.
-/
namespace ReachMyDevice

structure ClipboardSync where
  incoming : List ClipboardUpdate
  lastHash : UInt64
  seq : Nat
  deriving DecidableEq, Repr

namespace ClipboardSync

def new : ClipboardSync where
  incoming := []
  lastHash := 0
  seq := 0

def applyRemote (c : ClipboardSync) (u : ClipboardUpdate) : ClipboardSync :=
  { c with incoming := c.incoming ++ [u] }

/-- One remote update is set as the local text, when `setText` takes it. -/
def applyNext (c : ClipboardSync) (setText : Bool) : ClipboardSync :=
  match c.incoming with
  | [] => c
  | u :: rest =>
    if u.kind = clipboardKindText && (fromUtf8 u.data).isSome && setText then
      { c with incoming := rest, lastHash := u.originHash }
    else { c with incoming := rest }

/-- `none`: there is no text to read. -/
def poll (c : ClipboardSync) (text : Option String) : ClipboardSync × List Envelope :=
  match text with
  | none => (c, [])
  | some text =>
    if text = "" || fnv1a (utf8 text) = c.lastHash then (c, [])
    else
      ({ c with lastHash := fnv1a (utf8 text), seq := c.seq + 1 }, [clipboardText text (c.seq + 1)])

/-- What the thread sends is a clipboard text. -/
theorem poll_sends {c : ClipboardSync} {text : Option String} {env : Envelope}
    (sent : env ∈ (c.poll text).2) : ∃ text seq, env = clipboardText text seq := by
  unfold poll at sent
  split at sent
  · cases sent
  · split at sent
    · cases sent
    · exact ⟨_, _, List.mem_singleton.mp sent⟩

end ClipboardSync
end ReachMyDevice
