import ReachMyDevice.Lib.Histories
import ReachMyDevice.ClipboardConvergence

/-!
# What is sent was copied

One clipboard and its thread, against any peer that builds its updates with
`clipboardText`. The record of a run keeps what was put into the clipboard, by
the user or by the thread, and what was sent. What is there at the start was
put there by the user.
-/
namespace ReachMyDevice
open Machines Prompts Exchanges

inductive ClipboardEvent
  | copied (content : Option String)
  | set (text : String)
  | sent (env : Envelope)

namespace ClipboardEvent

def isCopied : ClipboardEvent → Bool
  | .copied _ => true
  | _ => false

def isSent : ClipboardEvent → Bool
  | .sent _ => true
  | _ => false

/-- The text that was copied is the text of the message. -/
def Answers (p e : ClipboardEvent) : Prop :=
  ∃ text seq, p = .copied (some text) ∧ e = .sent (clipboardText text seq)

end ClipboardEvent

/-- Each message stands directly after the user's change whose text it carries. -/
abbrev Echoless : List ClipboardEvent → Prop :=
  Prompted ClipboardEvent.isSent ClipboardEvent.Answers

structure SyncedClipboard where
  /-- What `get_text` returns; none when there is no text. -/
  clipboard : Option String
  sync : ClipboardSync := .new
  /-- The thread has found no more updates and looks at the clipboard next. -/
  drained : Bool := false

inductive SyncedLabel
  | copy (content : Option String)
  /-- An update of the peer's arrives. -/
  | receive (text : String) (seq : Nat)
  | apply (setText : Bool)
  | drain
  | poll (readable : Bool)

namespace SyncedClipboard

/-- What the thread can read. -/
def read (c : SyncedClipboard) (readable : Bool) : Option String :=
  if readable then c.clipboard else none

def receive (c : SyncedClipboard) (env : Envelope) : SyncedClipboard :=
  { c with sync := env.clipboard?.elim c.sync c.sync.applyRemote }

def step (c : SyncedClipboard) : SyncedLabel → Option SyncedClipboard
  | .copy content => some { c with clipboard := content }
  | .receive text seq => some (c.receive (clipboardText text seq))
  | .apply setText =>
    if c.drained ∨ c.sync.incoming = [] then none
    else some { c with
      clipboard := (c.sync.taken setText).or c.clipboard
      sync := c.sync.applyNext setText }
  | .drain =>
    if c.drained ∨ c.sync.incoming ≠ [] then none else some { c with drained := true }
  | .poll readable =>
    if c.drained then
      some { c with sync := (c.sync.poll (c.read readable)).1, drained := false }
    else none

def noted (c : SyncedClipboard) : SyncedLabel → List ClipboardEvent
  | .copy content => [.copied content]
  | .receive _ _ | .drain => []
  | .apply setText => (c.sync.taken setText).toList.map .set
  | .poll readable => (c.sync.poll (c.read readable)).2.map .sent

/-- A clipboard with anything in it, before its thread has looked. -/
def machine : Machine SyncedClipboard SyncedLabel where
  init c := ∃ content, c = { clipboard := content }
  step := step

def recorded : Machine (SyncedClipboard × List ClipboardEvent) SyncedLabel :=
  machine.recording (fun c => [.copied c.clipboard]) fun c a _ record => record ++ c.noted a

end SyncedClipboard

namespace ClipboardSync

/-- Every update that waits was built by `clipboardText`. -/
def Built (updates : List ClipboardUpdate) : Prop :=
  ∀ u ∈ updates, ∃ text seq, (clipboardText text seq).clipboard? = some u

/-- The hash that is kept with a text that was set is the text's own. -/
theorem applyNext_built {c : ClipboardSync} {u : ClipboardUpdate} {rest : List ClipboardUpdate}
    {text : String} {seq : Nat} (waits : c.incoming = u :: rest)
    (built : (clipboardText text seq).clipboard? = some u) (setText : Bool) :
    c.taken setText = (if setText then some text else none) ∧
      c.applyNext setText = { c with
        incoming := rest
        lastHash := if setText then fnv1a (utf8 text) else c.lastHash } := by
  obtain rfl := Option.some.inj built
  have taken : c.taken setText = (if setText then some text else none) := by
    simp [ClipboardSync.taken, waits, ClipboardUpdate.text?, fromUtf8_utf8]
  refine ⟨taken, ?_⟩
  rw [applyNext_eq waits, taken]
  cases setText <;> rfl

/-- Only a text that is noticed is sent, and its hash is kept. -/
theorem poll_cases (c : ClipboardSync) (content : Option String) :
    ¬ c.Notices content ∧ c.poll content = (c, []) ∨
    ∃ text, content = some text ∧ c.Notices content ∧ c.poll content =
      ({ c with lastHash := fnv1a (utf8 text), seq := c.seq + 1 },
        [clipboardText text (c.seq + 1)]) := by
  cases content with
  | none => exact .inl ⟨fun ⟨_, none_, _⟩ => (nomatch none_), rfl⟩
  | some text =>
      by_cases skipped : text = "" || fnv1a (utf8 text) = c.lastHash
      · refine .inl ⟨?_, if_pos skipped⟩
        rintro ⟨_, ⟨⟩, some_, other⟩
        simp [some_, other] at skipped
      · refine .inr ⟨text, rfl, ⟨text, rfl, ?_⟩, if_neg skipped⟩
        simpa using skipped

end ClipboardSync

namespace SyncedClipboard
open ClipboardSync ClipboardEvent

/-- A text that a poll would send was copied last. -/
structure Told (c : SyncedClipboard) (record : List ClipboardEvent) : Prop where
  built : Built c.sync.incoming
  echoless : Echoless record
  copied : c.sync.Notices c.clipboard → record.getLast? = some (.copied c.clipboard)

theorem told_start (content : Option String) :
    Told { clipboard := content } [.copied content] where
  built _ member := nomatch member
  echoless := prompted_singleton rfl
  copied _ := rfl

/-- Nothing was put into the clipboard, and nothing was sent. -/
theorem Told.quiet {c c' : SyncedClipboard} {record : List ClipboardEvent} (h : c.Told record)
    (built : Built c'.sync.incoming) (clipboard : c'.clipboard = c.clipboard)
    (lastHash : c'.sync.lastHash = c.sync.lastHash) : c'.Told (record ++ []) := by
  rw [List.append_nil]
  refine ⟨built, h.echoless, fun notices => ?_⟩
  rw [ClipboardSync.Notices, clipboard, lastHash] at notices
  rw [clipboard]
  exact h.copied notices

theorem Told.step {c c' : SyncedClipboard} {record : List ClipboardEvent} (h : c.Told record)
    {a : SyncedLabel} (step : c.step a = some c') : c'.Told (record ++ c.noted a) := by
  cases a with
  | copy content =>
      obtain rfl := Option.some.inj step
      exact ⟨h.built, h.echoless.concat (nomatch ·), fun _ => List.getLast?_concat ..⟩
  | receive text seq =>
      obtain rfl := Option.some.inj step
      refine h.quiet ?_ rfl rfl
      intro u member
      obtain before | here := List.mem_append.mp member
      · exact h.built u before
      · exact ⟨text, seq, congrArg some (List.mem_singleton.mp here).symm⟩
  | apply setText =>
      simp only [SyncedClipboard.step, Option.ite_none_left_eq_some, Option.some.injEq] at step
      obtain ⟨busy, rfl⟩ := step
      obtain ⟨u, rest, waits⟩ := List.exists_cons_of_ne_nil (not_or.mp busy).2
      obtain ⟨text, seq, built⟩ := h.built u (by simp [waits])
      obtain ⟨taken, applied⟩ := applyNext_built waits built setText
      have others : Built rest := fun v member => h.built v (by simp [waits, member])
      cases setText with
      | false =>
          simp only [noted, taken, applied]
          exact h.quiet others rfl rfl
      | true =>
          simp only [noted, taken, applied, if_true, Option.some_or]
          refine ⟨others, h.echoless.concat (nomatch ·), ?_⟩
          -- the text that was set is known
          rintro ⟨_, ⟨⟩, -, other⟩
          exact absurd rfl other
  | drain =>
      simp only [SyncedClipboard.step, Option.ite_none_left_eq_some, Option.some.injEq] at step
      obtain ⟨-, rfl⟩ := step
      exact h.quiet h.built rfl rfl
  | poll readable =>
      simp only [SyncedClipboard.step, Option.ite_none_right_eq_some, Option.some.injEq] at step
      obtain ⟨-, rfl⟩ := step
      obtain ⟨-, silent⟩ | ⟨text, content, notices, sends⟩ := c.sync.poll_cases (c.read readable)
      · simp only [noted, silent]
        exact h.quiet h.built rfl rfl
      · cases readable with
        | false => cases content
        | true =>
            have content : c.clipboard = some text := content
            simp only [noted, sends]
            refine ⟨h.built, h.echoless.concat fun _ => ?_, ?_⟩
            · exact ⟨_, h.copied notices, text, c.sync.seq + 1, by rw [content], rfl⟩
            · rintro ⟨_, same, -, other⟩
              obtain rfl := Option.some.inj (content.symm.trans same)
              exact absurd rfl other

theorem told_of_reachable {s : SyncedClipboard × List ClipboardEvent}
    (run : recorded.Reachable s) : s.1.Told s.2 := by
  refine run.invariant (I := fun s => s.1.Told s.2) ?_ ?_
  · rintro s ⟨⟨content, first⟩, noted⟩
    rw [noted, first]
    exact told_start content
  · intro s a s' h step
    obtain ⟨step, noted⟩ := Machine.recording_step_iff.mp step
    rw [noted]
    exact h.step step

end SyncedClipboard

/-! ## Both ends -/

def ClipboardEnd.synced (e : ClipboardEnd) : SyncedClipboard where
  clipboard := e.clipboard
  sync := e.sync
  drained := e.drained

def ClipboardLabel.side : ClipboardLabel → Side
  | .copy x _ | .deliver x | .apply x _ | .drain x | .poll x _ => x

def ClipboardLabel.copies : ClipboardLabel → Bool
  | .copy _ _ => true
  | _ => false

namespace ClipboardPair
open ClipboardSync SyncedClipboard

def events (s : ClipboardPair) : ClipboardLabel → List ClipboardEvent
  | .copy x content => (s.ends x).synced.noted (.copy content)
  | .deliver _ | .drain _ => []
  | .apply x setText => (s.ends x).synced.noted (.apply setText)
  | .poll x readable => (s.ends x).synced.noted (.poll readable)

def noted (s : ClipboardPair) (a : ClipboardLabel) (x : Side) : List ClipboardEvent :=
  if a.side = x then s.events a else []

def recorded : Machine (ClipboardPair × (Side → List ClipboardEvent)) ClipboardLabel :=
  machine.recording (fun s x => [.copied (s.ends x).clipboard])
    fun s a _ record x => record x ++ s.noted a x

variable {s s' : ClipboardPair} {a : ClipboardLabel}

theorem polls_built (c : ClipboardSync) (content : Option String) :
    Built ((c.poll content).2.filterMap Envelope.clipboard?) := by
  obtain ⟨-, silent⟩ | ⟨text, -, -, sends⟩ := c.poll_cases content
  · rw [silent]
    exact fun _ member => nomatch member
  · intro u member
    rw [sends] at member
    exact ⟨text, c.seq + 1, congrArg some (List.mem_singleton.mp member).symm⟩

/-- What travels was built by the peer's thread. -/
theorem built_step (built : ∀ x, Built (s.channel x)) (step : s.step a = some s') (x : Side) :
    Built (s'.channel x) := by
  cases a with
  | copy y content =>
      obtain rfl := Option.some.inj step
      exact built x
  | deliver y =>
      simp only [ClipboardPair.step] at step
      split at step
      next => cases step
      next u rest travels =>
        obtain rfl := Option.some.inj step
        by_cases same : x = y
        · obtain rfl := same
          simp only [Function.update_self]
          exact fun v member => built x v (by rw [travels]; exact List.mem_cons_of_mem u member)
        · simp only [Function.update_of_ne same]
          exact built x
  | apply y setText =>
      simp only [ClipboardPair.step] at step
      split at step
      next => cases step
      next =>
        split at step <;> obtain rfl := Option.some.inj step <;> exact built x
  | drain y =>
      simp only [ClipboardPair.step, Option.ite_none_left_eq_some, Option.some.injEq] at step
      obtain ⟨-, rfl⟩ := step
      exact built x
  | poll y readable =>
      simp only [ClipboardPair.step, Option.ite_none_right_eq_some, Option.some.injEq] at step
      obtain ⟨-, rfl⟩ := step
      by_cases same : x = y.other
      · obtain rfl := same
        simp only [polls, updateEnd, Function.update_self]
        intro u member
        obtain before | sent := List.mem_append.mp member
        · exact built _ u before
        · exact polls_built _ _ u sent
      · simp only [polls, updateEnd, Function.update_of_ne same]
        exact built x

/-- A step of the pair is a step of the side whose turn it is. -/
theorem synced_step (built : ∀ x, Built (s.channel x)) (step : s.step a = some s') :
    ∃ b, (s.ends a.side).synced.step b = some (s'.ends a.side).synced ∧
      (s.ends a.side).synced.noted b = s.events a := by
  cases a with
  | copy y content =>
      obtain rfl := Option.some.inj step
      exact ⟨.copy content, by simp [ClipboardLabel.side, updateEnd, ClipboardEnd.synced,
        SyncedClipboard.step], rfl⟩
  | deliver y =>
      simp only [ClipboardPair.step] at step
      split at step
      next => cases step
      next u rest travels =>
        obtain rfl := Option.some.inj step
        obtain ⟨text, seq, same⟩ := built y u (by simp [travels])
        exact ⟨.receive text seq, by simp [ClipboardLabel.side, updateEnd, ClipboardEnd.synced,
          SyncedClipboard.step, SyncedClipboard.receive, same], rfl⟩
  | apply y setText =>
      refine ⟨.apply setText, ?_, rfl⟩
      simp only [ClipboardPair.step] at step
      split at step
      next => cases step
      next busy =>
        split at step
        next taken =>
          obtain rfl := Option.some.inj step
          simp [ClipboardLabel.side, updateEnd, ClipboardEnd.synced, SyncedClipboard.step,
            not_or.mp busy, taken]
        next text taken =>
          obtain rfl := Option.some.inj step
          simp [ClipboardLabel.side, updateEnd, ClipboardEnd.synced, SyncedClipboard.step,
            not_or.mp busy, taken]
  | drain y =>
      refine ⟨.drain, ?_, rfl⟩
      simp only [ClipboardPair.step, Option.ite_none_left_eq_some, Option.some.injEq] at step
      obtain ⟨busy, rfl⟩ := step
      simp [ClipboardLabel.side, updateEnd, ClipboardEnd.synced, SyncedClipboard.step,
        not_or.mp busy]
  | poll y readable =>
      refine ⟨.poll readable, ?_, rfl⟩
      simp only [ClipboardPair.step, Option.ite_none_right_eq_some, Option.some.injEq] at step
      obtain ⟨drained, rfl⟩ := step
      simp only [ClipboardLabel.side, polls_self]
      simp [ClipboardEnd.synced, SyncedClipboard.step, SyncedClipboard.read, drained]

theorem step_other (step : s.step a = some s') {x : Side} (other : x ≠ a.side) :
    s'.ends x = s.ends x := by
  cases a with
  | copy y content =>
      obtain rfl := Option.some.inj step
      exact Function.update_of_ne other ..
  | deliver y =>
      simp only [ClipboardPair.step] at step
      split at step
      next => cases step
      next =>
        obtain rfl := Option.some.inj step
        exact Function.update_of_ne other ..
  | apply y setText =>
      simp only [ClipboardPair.step] at step
      split at step
      next => cases step
      next =>
        split at step <;> obtain rfl := Option.some.inj step <;>
          exact Function.update_of_ne other ..
  | drain y =>
      simp only [ClipboardPair.step, Option.ite_none_left_eq_some, Option.some.injEq] at step
      obtain ⟨-, rfl⟩ := step
      exact Function.update_of_ne other ..
  | poll y readable =>
      simp only [ClipboardPair.step, Option.ite_none_right_eq_some, Option.some.injEq] at step
      obtain ⟨-, rfl⟩ := step
      have other : x ≠ y := other
      simp only [polls, updateEnd, Function.update_of_ne other]

/-- Each end of the pair is a clipboard against a peer, with its own record. -/
theorem end_reachable {s : ClipboardPair × (Side → List ClipboardEvent)}
    (run : recorded.Reachable s) :
    (∀ x, Built (s.1.channel x)) ∧
      ∀ x, SyncedClipboard.recorded.Reachable ((s.1.ends x).synced, s.2 x) := by
  induction run with
  | start first =>
      obtain ⟨⟨contents, same⟩, record⟩ := first
      rw [record, same]
      refine ⟨fun _ _ member => (nomatch member), fun x => ?_⟩
      exact Machine.ReachableBy.start ⟨⟨contents x, rfl⟩, rfl⟩
  | @next s s' a _ _ step ih =>
      obtain ⟨built, ends⟩ := ih
      obtain ⟨step, noted⟩ := Machine.recording_step_iff.mp step
      refine ⟨built_step built step, fun x => ?_⟩
      rw [noted]
      by_cases own : x = a.side
      · obtain rfl := own
        obtain ⟨b, taken, same⟩ := synced_step built step
        simp only [ClipboardPair.noted, if_true, ← same]
        exact .next (ends _) trivial (Machine.recording_step_iff.mpr ⟨taken, rfl⟩)
      · have silent : s.1.noted a x = [] := if_neg (Ne.symm own)
        simp only [silent, List.append_nil, step_other step own]
        exact ends x

theorem not_copied_of_noted {x : Side} {e : ClipboardEvent} (still : a.copies = false)
    (now : e ∈ s.noted a x) : e.isCopied = false := by
  unfold ClipboardPair.noted at now
  split at now
  next =>
    cases a with
    | copy y content => cases still
    | deliver y | drain y => cases now
    | apply y setText | poll y readable =>
        obtain ⟨_, -, rfl⟩ := List.mem_map.mp now
        rfl
  next => cases now

/-- A record only grows, and without a copy it grows by no copy. -/
theorem record_grows {t t' : ClipboardPair × (Side → List ClipboardEvent)}
    (run : (recorded.startingAt t).ReachableBy (fun _ a => a.copies = false) t') (x : Side) :
    ∃ more, t'.2 x = t.2 x ++ more ∧ ∀ e ∈ more, e.isCopied = false := by
  induction run with
  | start here =>
      obtain rfl := here
      exact ⟨[], (List.append_nil _).symm, fun _ member => nomatch member⟩
  | @next s s' a _ still step ih =>
      obtain ⟨more, grown, none_⟩ := ih
      have taken : recorded.step s a = some s' := step
      obtain ⟨-, noted⟩ := Machine.recording_step_iff.mp taken
      refine ⟨more ++ s.1.noted a x, by simp only [noted, grown, List.append_assoc], ?_⟩
      intro e member
      obtain before | now := List.mem_append.mp member
      · exact none_ e before
      · exact not_copied_of_noted still now

/-- Whatever the users, the peers and the operating systems do, each message of a clipboard's
thread carries the text that its user copied last before it, with nothing sent or set since; so
that two ends send at most one message each after the last change. -/
theorem clipboard_echoless :
    (∀ s, SyncedClipboard.recorded.Reachable s → Echoless s.2) ∧
    ∀ s s', recorded.Reachable s →
      (recorded.startingAt s).ReachableBy (fun _ a => a.copies = false) s' → ∀ x,
        Echoless (s'.2 x) ∧
          (s'.2 x).countP ClipboardEvent.isSent ≤ (s.2 x).countP ClipboardEvent.isSent + 1 := by
  refine ⟨fun s run => (told_of_reachable run).echoless, ?_⟩
  intro s s' run rest x
  have reached : recorded.Reachable s' := run.append (rest.mono fun _ _ _ => trivial)
  have echoless : Echoless (s'.2 x) :=
    (told_of_reachable ((end_reachable reached).2 x)).echoless
  obtain ⟨more, grown, none_⟩ := record_grows rest x
  refine ⟨echoless, ?_⟩
  rw [grown] at echoless
  have last : more.countP ClipboardEvent.isSent ≤ 1 := by
    refine echoless.countP_le_one ?_ none_
    rintro p e ⟨text, seq, rfl, rfl⟩
    rfl
  rw [grown, List.countP_append]
  omega

theorem recorded_start (a b : Option String) :
    recorded.init (start a b, fun x => [.copied ((start a b).ends x).clipboard]) :=
  ⟨start_init a b, rfl⟩

/-- A text that was sent and set on the other side, where the thread then looks. -/
theorem clipboard_echoless_one :
    ∃ s s', recorded.Reachable s ∧
      (recorded.startingAt s).ReachableBy (fun _ a => a.copies = false) s' ∧
      ((s.2 .a).countP ClipboardEvent.isSent = 0 ∧ (s'.2 .a).countP ClipboardEvent.isSent = 1) ∧
      Echoless (s'.2 .b) ∧ (s'.2 .b).countP ClipboardEvent.isSent ≤ 1 ∧
      ∃ t, SyncedClipboard.recorded.Reachable t ∧ t.2.countP ClipboardEvent.isSent = 1 ∧
        Echoless t.2 := by
  have first := recorded_start (some "one") none
  obtain ⟨s', rest, sent, silent⟩ := Machine.exists_reachableBy
    (recorded.startingAt (start (some "one") none,
      fun x => [.copied ((start (some "one") none).ends x).clipboard]))
    (fun _ a => a.copies = false) rfl
    [.drain .a, .poll .a true, .deliver .b, .apply .b true, .drain .b, .poll .b true]
    (fun s => (s.2 .a).countP ClipboardEvent.isSent = 1 ∧
      (s.2 .b).countP ClipboardEvent.isSent = 0) (by decide +kernel)
  obtain ⟨one, two⟩ := clipboard_echoless
  obtain ⟨echoless, bounded⟩ := two _ s' (.start first) rest .b
  have both : recorded.Reachable s' :=
    (Machine.ReachableBy.start first).append (rest.mono fun _ _ _ => trivial)
  have own := (end_reachable both).2 .a
  exact ⟨_, s', .start first, rest, ⟨rfl, sent⟩, echoless, bounded, _, own, sent, one _ own⟩

end ClipboardPair
end ReachMyDevice
