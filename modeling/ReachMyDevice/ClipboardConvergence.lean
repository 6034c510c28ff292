import ReachMyDevice.ClipboardPair

/-!
# What two clipboards end up with

The threads carry out an exchange of texts: what arrives is set, what is sent is
known, and the last text sent decides.
-/
namespace ReachMyDevice
open Machines Exchanges

/-! ## The thread -/

namespace ClipboardSync

/-- One update is taken from the queue; its hash is kept if its text was set. -/
theorem applyNext_eq {c : ClipboardSync} {u : ClipboardUpdate} {rest : List ClipboardUpdate}
    (waits : c.incoming = u :: rest) (setText : Bool) :
    c.applyNext setText = { c with
      incoming := rest
      lastHash := if (c.taken setText).isSome then u.originHash else c.lastHash } := by
  cases setText with
  | false => simp [applyNext, taken, waits]
  | true =>
      by_cases kind : u.kind = clipboardKindText
      · cases decoded : fromUtf8 u.data <;>
          simp [applyNext, taken, waits, ClipboardUpdate.text?, kind, decoded]
      · simp [applyNext, taken, waits, ClipboardUpdate.text?, kind]

/-- A poll sends nothing, or one update with the text that it noticed. -/
theorem poll_updates (c : ClipboardSync) (content : Option String) :
    (c.poll content).1.incoming = c.incoming ∧
      ((c.poll content).2.filterMap Envelope.clipboard? = [] ∧ ¬ c.Notices content ∨
        ∃ u text, (c.poll content).2.filterMap Envelope.clipboard? = [u] ∧
          u.text? = some text ∧ content = some text ∧ text ≠ "") := by
  cases content with
  | none => exact ⟨rfl, .inl ⟨rfl, fun ⟨_, none_, _⟩ => nomatch none_⟩⟩
  | some text =>
      simp only [poll]
      split
      next skipped =>
        refine ⟨rfl, .inl ⟨rfl, ?_⟩⟩
        rintro ⟨_, ⟨⟩, some_, other⟩
        simp [some_, other] at skipped
      next sends =>
        refine ⟨rfl, .inr ⟨_, text, rfl, ?_, rfl, ?_⟩⟩
        · simp [ClipboardUpdate.text?, fromUtf8_utf8]
        · rintro rfl
          simp at sends

end ClipboardSync

namespace ClipboardPair
variable {s s' : ClipboardPair} {x : Side}

/-! ## The exchange -/

def exchange (s : ClipboardPair) : Exchange Side String where
  known x := (s.ends x).known
  way := s.way

theorem exchange_end (s : ClipboardPair) (x : Side) (e : ClipboardEnd) :
    (s.updateEnd x e).exchange = {
      known := Function.update s.exchange.known x e.known
      way := Function.update s.way x
        ((e.sync.incoming ++ s.channel x).filterMap ClipboardUpdate.text?) } := by
  ext1 <;> funext y <;> by_cases same : y = x
  · obtain rfl := same
    simp [exchange, updateEnd]
  · simp [exchange, updateEnd, same]
  · obtain rfl := same
    simp [exchange, updateEnd, way]
  · simp [exchange, updateEnd, way, same]

theorem exchange_updateEnd {e : ClipboardEnd} (known : e.known = (s.ends x).known)
    (incoming : e.sync.incoming = (s.ends x).sync.incoming) :
    (s.updateEnd x e).exchange = s.exchange := by
  rw [exchange_end, known, incoming]
  exact Exchange.ext (Function.update_eq_self ..) (Function.update_eq_self ..)

theorem exchange_deliver {u : ClipboardUpdate} {rest : List ClipboardUpdate}
    (travels : s.channel x = u :: rest) :
    exchange { s.updateEnd x { s.ends x with sync := (s.ends x).sync.applyRemote u } with
      channel := Function.update s.channel x rest } = s.exchange := by
  ext1 <;> funext y <;> by_cases same : y = x
  · obtain rfl := same
    simp [exchange, updateEnd]
  · simp [exchange, updateEnd, same]
  · obtain rfl := same
    simp [exchange, updateEnd, way, ClipboardSync.applyRemote, travels]
  · simp [exchange, updateEnd, way, same]

/-- The text of the first update in the queue arrives. -/
theorem way_of_text {u : ClipboardUpdate} {rest : List ClipboardUpdate} {text : String}
    (waits : (s.ends x).sync.incoming = u :: rest) (decoded : u.text? = some text) :
    s.way x = text :: (rest ++ s.channel x).filterMap ClipboardUpdate.text? := by
  rw [way, waits, List.cons_append, List.filterMap_cons, decoded]

/-- What the sides will know is not changed by an update that is applied. -/
theorem final_apply {setText : Bool} (sound : s.Sound (.apply x setText))
    (step : s.step (.apply x setText) = some s') :
    s'.crossed = s.crossed ∧ ∀ y, s'.exchange.final y = s.exchange.final y := by
  simp only [ClipboardPair.step] at step
  split at step
  next => cases step
  next busy =>
    obtain ⟨u, rest, waits⟩ := List.exists_cons_of_ne_nil (not_or.mp busy).2
    have queue : ((s.ends x).sync.applyNext setText).incoming = rest := by
      rw [ClipboardSync.applyNext_eq waits]
    have same : Function.update s.exchange.known x (s.ends x).known = s.exchange.known :=
      Function.update_eq_self x _
    cases decoded : u.text? with
    | none =>
        have nothing : (s.ends x).sync.taken setText = none := by
          simp [ClipboardSync.taken, waits, decoded]
        have skipped : (rest ++ s.channel x).filterMap ClipboardUpdate.text? = s.way x := by
          simp [way, waits, decoded]
        rw [nothing] at step
        obtain rfl := Option.some.inj step
        refine ⟨rfl, fun y => ?_⟩
        simp only [exchange_end, queue, skipped, same, Function.update_eq_self]
        rfl
    | some text =>
        have next := way_of_text waits decoded
        cases setText with
        | true =>
            have set : (s.ends x).sync.taken true = some text := by
              simp [ClipboardSync.taken, waits, decoded]
            rw [set] at step
            obtain rfl := Option.some.inj step
            refine ⟨rfl, fun y => ?_⟩
            rw [exchange_end, queue]
            exact Exchange.final_receive next y
        | false =>
            obtain rfl := Option.some.inj step
            have kept : (rest ++ s.channel x).filterMap ClipboardUpdate.text? = [] →
                s.exchange.known x = some text := by
              intro last
              refine sound u (by rw [waits]; rfl) text decoded ?_
              rw [next]
              exact last
            refine ⟨rfl, fun y => ?_⟩
            simp only [exchange_end, queue, same]
            exact Exchange.final_drop next kept y

/-- A text that is sent decides what both sides end up with, unless it crosses another. -/
theorem agreed_polls (s : ClipboardPair) (x : Side) (content : Option String)
    (agreed : s.exchange.Agreed ↔ s.crossed = false) :
    (s.polls x content).exchange.Agreed ↔ (s.polls x content).crossed = false := by
  obtain ⟨incoming, ⟨silent, -⟩ | ⟨u, text, sent, decoded, -⟩⟩ :=
    (s.ends x).sync.poll_updates content
  · have same : (s.polls x content).exchange = s.exchange := by
      ext1 <;> funext y
      · by_cases here : y = x
        · obtain rfl := here
          simp [exchange, polls, silent]
        · simp [exchange, polls, here]
      · by_cases here : y = x
        · obtain rfl := here
          simp [exchange, polls, way, silent, incoming]
        · simp [exchange, polls, way, here, silent]
    have still : (s.polls x content).crossed = s.crossed := by simp [polls, silent]
    rw [same, still, agreed]
  · have sends : (s.polls x content).exchange = s.exchange.send x text := by
      ext1 <;> funext y
      · by_cases here : y = x
        · obtain rfl := here
          simp [exchange, Exchange.send, polls, sent, decoded]
        · simp [exchange, Exchange.send, polls, here]
      · obtain rfl | rfl := x.eq_or_other y
        · have apart : y ≠ y.other := (Side.other_ne y).symm
          simp [exchange, Exchange.send, TwoParties.other, polls, way, apart, incoming]
        · have apart : x.other ≠ x := Side.other_ne x
          simp [exchange, Exchange.send, TwoParties.other, polls, way, apart, sent, decoded]
    have crosses : (s.polls x content).crossed = (s.way x).getLast?.any (· ≠ text) := by
      simp [polls, sent, decoded]
    rw [sends, Exchange.agreed_send_iff, crosses]
    cases last : (s.way x).getLast? <;> simp [exchange, last]

/-! ## Runs -/

theorem agreed_updateEnd {e : ClipboardEnd} (agreed : s.exchange.Agreed ↔ s.crossed = false)
    (known : e.known = (s.ends x).known)
    (incoming : e.sync.incoming = (s.ends x).sync.incoming) :
    (s.updateEnd x e).exchange.Agreed ↔ (s.updateEnd x e).crossed = false := by
  rw [exchange_updateEnd known incoming]
  exact agreed

theorem agreed_of_reachable (run : machine.ReachableBy Sound s) :
    s.exchange.Agreed ↔ s.crossed = false := by
  refine run.invariant (I := fun s => s.exchange.Agreed ↔ s.crossed = false) ?_ ?_
  · rintro s ⟨contents, rfl⟩
    exact iff_of_true (fun _ => rfl) rfl
  · intro s a s' agreed sound step
    cases a with
    | copy x content =>
        obtain rfl := Option.some.inj step
        exact agreed_updateEnd agreed rfl rfl
    | deliver x =>
        simp only [machine, ClipboardPair.step] at step
        split at step
        next => cases step
        next u rest travels =>
          obtain rfl := Option.some.inj step
          rw [exchange_deliver travels]
          exact agreed
    | apply x setText =>
        obtain ⟨crossed, final⟩ := final_apply sound step
        rw [crossed, Exchange.agreed_congr final]
        exact agreed
    | drain x =>
        simp only [machine, ClipboardPair.step, Option.ite_none_left_eq_some,
          Option.some.injEq] at step
        obtain ⟨-, rfl⟩ := step
        exact agreed_updateEnd agreed rfl rfl
    | poll x readable =>
        simp only [machine, ClipboardPair.step, Option.ite_none_right_eq_some,
          Option.some.injEq] at step
        obtain ⟨-, rfl⟩ := step
        exact agreed_polls _ x _ (agreed_updateEnd agreed rfl rfl)

/-- A clipboard that was looked at as it is holds the text that was set or sent last. -/
def Seen (s : ClipboardPair) : Prop :=
  ∀ x, (s.ends x).polled = true → (s.ends x).text = (s.ends x).known

theorem Seen.updateEnd (h : s.Seen) {e : ClipboardEnd}
    (here : e.polled = true → e.text = e.known) : (s.updateEnd x e).Seen := by
  intro y polled
  by_cases same : y = x
  · obtain rfl := same
    simp only [ClipboardPair.updateEnd, Function.update_self] at polled ⊢
    exact here polled
  · simp only [ClipboardPair.updateEnd, Function.update_of_ne same] at polled ⊢
    exact h y polled

/-- The end of a side after a poll. -/
theorem polls_self (s : ClipboardPair) (x : Side) (e : ClipboardEnd) (content : Option String) :
    ((s.updateEnd x e).polls x content).ends x = { e with
      sync := (e.sync.poll content).1
      known := (((e.sync.poll content).2.filterMap Envelope.clipboard?).head?.bind
        ClipboardUpdate.text?).or e.known } := by
  simp [polls, updateEnd]

theorem Seen.poll (h : s.Seen) {readable : Bool} (sound : s.Sound (.poll x readable)) :
    Seen ((s.updateEnd x { s.ends x with
        drained := false, polled := (s.ends x).polled || readable }).polls x
      (if readable then (s.ends x).clipboard else none)) := by
  intro y polled
  by_cases here : y = x
  · obtain rfl := here
    rw [polls_self] at polled ⊢
    obtain ⟨-, ⟨silent, missed⟩ | ⟨u, text, sent, decoded, read, some_⟩⟩ :=
      (s.ends y).sync.poll_updates (if readable then (s.ends y).clipboard else none)
    · simp only [silent, List.head?_nil, Option.bind_none, Option.none_or]
      cases readable with
      | true => exact sound.resolve_right missed
      | false => exact h y (by simpa using polled)
    · simp only [sent, List.head?_cons, Option.bind_some, decoded, Option.some_or]
      cases readable with
      | true =>
          have read : (s.ends y).clipboard = some text := read
          simp [ClipboardEnd.text, read, some_]
      | false => cases read
  · simp only [polls, ClipboardPair.updateEnd, Function.update_of_ne here] at polled ⊢
    exact h y polled

theorem Seen.step (h : s.Seen) {a : ClipboardLabel} (sound : s.Sound a)
    (step : s.step a = some s') : s'.Seen := by
  cases a with
  | copy x content =>
      obtain rfl := Option.some.inj step
      exact h.updateEnd fun impossible => nomatch impossible
  | deliver x =>
      simp only [ClipboardPair.step] at step
      split at step
      next => cases step
      next =>
        obtain rfl := Option.some.inj step
        exact h.updateEnd (h x)
  | apply x setText =>
      simp only [ClipboardPair.step] at step
      split at step
      next => cases step
      next =>
        split at step
        next =>
          obtain rfl := Option.some.inj step
          exact h.updateEnd (h x)
        next =>
          obtain rfl := Option.some.inj step
          exact h.updateEnd fun impossible => nomatch impossible
  | drain x =>
      simp only [ClipboardPair.step, Option.ite_none_left_eq_some, Option.some.injEq] at step
      obtain ⟨-, rfl⟩ := step
      exact h.updateEnd (h x)
  | poll x readable =>
      simp only [ClipboardPair.step, Option.ite_none_right_eq_some, Option.some.injEq] at step
      obtain ⟨-, rfl⟩ := step
      exact h.poll sound

/-- At rest the clipboards hold the same text exactly if the update that was sent last crossed
none with another text. -/
theorem clipboards_converge (s : ClipboardPair) (run : machine.ReachableBy Sound s)
    (quiet : s.Quiet) : (s.ends .a).text = (s.ends .b).text ↔ s.crossed = false := by
  have seen : s.Seen := by
    refine run.invariant (I := Seen) ?_ fun s a s' h sound step => h.step sound step
    rintro s ⟨contents, rfl⟩ x impossible
    cases impossible
  have still : ∀ x, s.exchange.final x = (s.ends x).text := by
    intro x
    obtain ⟨channel, incoming, polled⟩ := quiet x
    rw [Exchange.final_quiet (by simp [exchange, way, channel, incoming]), seen x polled]
    rfl
  rw [← agreed_of_reachable run, Exchange.Agreed]
  constructor
  · intro same y
    rw [still, still]
    cases y with
    | a => exact same
    | b => exact same.symm
  · intro agreed
    rw [← still, ← still]
    exact agreed .a

def start (a b : Option String) : ClipboardPair where
  ends
    | .a => { clipboard := a }
    | .b => { clipboard := b }

theorem start_init (a b : Option String) : machine.init (start a b) :=
  ⟨fun x => ((start a b).ends x).clipboard, by
    rw [start]
    congr 1
    funext x
    cases x <;> rfl⟩

/-- At rest, with these texts. -/
def Rests (a b : Option String) (s : ClipboardPair) : Prop :=
  (∀ x ∈ [Side.a, .b], s.channel x = [] ∧ (s.ends x).sync.incoming = [] ∧
    (s.ends x).polled = true) ∧ (s.ends .a).text = a ∧ (s.ends .b).text = b

instance (a b : Option String) (s : ClipboardPair) : Decidable (Rests a b s) :=
  inferInstanceAs (Decidable (_ ∧ _ ∧ _))

theorem Rests.quiet {a b : Option String} (h : Rests a b s) : s.Quiet := by
  intro x
  exact h.1 x (by cases x <;> decide)

theorem clipboards_converge_copy :
    ∃ s, machine.ReachableBy Sound s ∧ Rests (some "two") (some "two") s ∧ s.crossed = false := by
  obtain ⟨s, run, rests⟩ := Machine.exists_reachableBy machine Sound (start_init (some "one") none)
    [.drain .a, .poll .a true, .deliver .b, .apply .b true, .copy .b (some "two"), .drain .b,
      .poll .b true, .deliver .a, .apply .a true, .drain .a, .poll .a true]
    (Rests (some "two") (some "two")) (by decide +kernel)
  exact ⟨s, run, rests, (clipboards_converge s run rests.quiet).mp (rests.2.1.trans rests.2.2.symm)⟩

/-- Two clipboards with different texts at the start swap them; a text that could not be set, and
one that was cleared, stay different. -/
theorem clipboards_differ :
    (∃ s, machine.Reachable s ∧ s.Quiet ∧ (s.ends .a).text = some "two" ∧
      (s.ends .b).text = some "one") ∧
    (∃ s, machine.Reachable s ∧ s.Quiet ∧ (s.ends .a).text = some "one" ∧
      (s.ends .b).text = none) ∧
    ∃ s, machine.Reachable s ∧ s.Quiet ∧ (s.ends .a).text = none ∧
      (s.ends .b).text = some "one" := by
  refine ⟨?_, ?_, ?_⟩
  · obtain ⟨s, run, rests⟩ := Machine.exists_reachableBy machine Machine.Always
      (start_init (some "one") (some "two"))
      [.drain .a, .poll .a true, .drain .b, .poll .b true, .deliver .a, .deliver .b,
        .apply .a true, .apply .b true, .drain .a, .poll .a true, .drain .b, .poll .b true]
      (Rests (some "two") (some "one")) (by decide +kernel)
    exact ⟨s, run, rests.quiet, rests.2⟩
  · obtain ⟨s, run, rests⟩ := Machine.exists_reachableBy machine Machine.Always
      (start_init (some "one") none)
      [.drain .a, .poll .a true, .deliver .b, .apply .b false, .drain .b, .poll .b true]
      (Rests (some "one") none) (by decide +kernel)
    exact ⟨s, run, rests.quiet, rests.2⟩
  · obtain ⟨s, run, rests⟩ := Machine.exists_reachableBy machine Machine.Always
      (start_init (some "one") none)
      [.drain .a, .poll .a true, .deliver .b, .apply .b true, .drain .b, .poll .b true,
        .copy .a none, .drain .a, .poll .a true]
      (Rests none (some "one")) (by decide +kernel)
    exact ⟨s, run, rests.quiet, rests.2⟩

end ClipboardPair
end ReachMyDevice
