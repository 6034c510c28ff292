import ReachMyDevice.PageInput

/-!
# Releases that reach the host

What is down for the host should be held by something that is physically down:
a key, a button of the mouse, or a finger that drags.
-/
namespace ReachMyDevice
open Machines Edges

namespace PageInput
variable {seen : Int → Int} {s s' : PageInput} {c : PageControl}

/-- With nothing physically down every press was followed by a release, and a button is never
pressed twice in a row. -/
structure Balanced (s : PageInput) : Prop where
  released : s.keys = [] → s.buttons = [] → s.onVideo = 0 → s.elsewhere = 0 →
    ∀ c, Released c s.sent
  single : ∀ number, Single (.button number) s.sent

/-- A button of the mouse that is down stands for `number`. -/
def MouseHolds (seen : Int → Int) (s : PageInput) (number : Int) : Prop :=
  ∃ dom ∈ s.buttons, seen (domButtonToProto dom) = number

/-- Something that is physically down holds a control down. -/
def Holds (seen : Int → Int) (s : PageInput) : PageControl → Prop
  | .key hid => ∃ code ∈ s.keys, codeToHid code = some hid
  | .button number =>
    s.MouseHolds seen number ∨ number = seen 0 ∧ s.dragging = true ∧ 0 < s.onVideo

structure Accounted (seen : Int → Int) (s : PageInput) : Prop where
  held : ∀ c, isDown c s.sent = true → s.Holds seen c
  single : ∀ number, Single (.button number) s.sent

/-- The drag has a finger, or the host has its button up, or the mouse holds it. -/
def DragKept (seen : Int → Int) (s : PageInput) (onVideo : Nat) : Prop :=
  s.dragging = true → s.onVideo = onVideo → isDown (button seen 0) s.sent = true →
    s.MouseHolds seen (seen 0)

def Safe (seen : Int → Int) (s : PageInput) : PageEvent → Prop
  -- The release is sent, unless nothing is left down by it.
  | .keyUp code =>
    s.modalOpen = true → ∀ hid ∈ codeToHid code, isDown (.key hid) s.sent = false
  -- What presses a button finds it held by nothing.
  | .mouseDown dom inside now =>
    inside = true → ¬ s.isGhostMouse now → ¬ s.Holds seen (button seen (domButtonToProto dom))
  | .mouseUp dom inside now =>
    (inside = true ∧ ¬ s.isGhostMouse now) ∨
      (isDown (button seen (domButtonToProto dom)) s.sent = true →
        Holds seen { s with buttons := s.buttons.filter (· ≠ dom) }
          (button seen (domButtonToProto dom)))
  | .touchStart onVideo elsewhere now =>
    onVideo ≠ 0 → s.onVideo + onVideo + (s.elsewhere + elsewhere) = 1 → s.doubletap = true →
      s.tapDrags now → ¬ s.Holds seen (button seen 0)
  | .longPress => s.longPressDrags → 0 < s.onVideo ∧ ¬ s.Holds seen (button seen 0)
  | .touchEnd onVideo elsewhere now =>
    if onVideo ≠ 0 ∧ s.onVideo + s.elsewhere = onVideo + elsewhere then
      ∀ number ∈ s.tapButton now, ¬ s.Holds seen (button seen number)
    else DragKept seen s onVideo
  | .touchCancel onVideo _ => DragKept seen s onVideo
  | .keyDown _ | .touchMove _ _ | .dragMode _ | .modal _ => True

instance (number : Int) : Decidable (s.MouseHolds seen number) :=
  inferInstanceAs (Decidable (∃ dom ∈ s.buttons, seen (domButtonToProto dom) = number))

instance : ∀ c, Decidable (s.Holds seen c)
  | .key hid => inferInstanceAs (Decidable (∃ code ∈ s.keys, codeToHid code = some hid))
  | .button _ => inferInstanceAs (Decidable (_ ∨ _ ∧ _ ∧ _))

instance (onVideo : Nat) : Decidable (DragKept seen s onVideo) :=
  inferInstanceAs (Decidable (_ → _ → _ → _))

instance : ∀ a, Decidable (Safe seen s a)
  | .keyUp code => inferInstanceAs (Decidable (_ → ∀ hid ∈ codeToHid code, _))
  | .mouseDown .. => inferInstanceAs (Decidable (_ → ¬ _ → ¬ Holds _ _ _))
  | .mouseUp .. => inferInstanceAs (Decidable (_ ∧ ¬ _ ∨ (_ → Holds _ _ _)))
  | .touchStart .. => inferInstanceAs (Decidable (_ → _ → _ → _ → ¬ Holds _ _ _))
  | .longPress => inferInstanceAs (Decidable (_ → _ ∧ ¬ Holds _ _ _))
  | .touchEnd onVideo elsewhere now =>
    inferInstanceAs (Decidable (if onVideo ≠ 0 ∧ s.onVideo + s.elsewhere = onVideo + elsewhere then
      ∀ number ∈ s.tapButton now, ¬ s.Holds seen (button seen number)
      else DragKept seen s onVideo))
  | .touchCancel onVideo _ => inferInstanceAs (Decidable (DragKept seen s onVideo))
  | .keyDown _ | .touchMove _ _ | .dragMode _ | .modal _ => .isTrue trivial

/-! ## One message -/

/-- What nothing holds is up for the host. -/
theorem Accounted.up (h : s.Accounted seen) (free : ¬ s.Holds seen c) :
    isDown c s.sent = false := by
  rw [Bool.eq_false_iff]
  exact fun down => free (h.held c down)

theorem Accounted.balanced (h : s.Accounted seen) : s.Balanced := by
  refine ⟨fun noKey noButton noVideo _ c => released_of_up (h.up fun holds => ?_), h.single⟩
  cases c with
  | key hid =>
      obtain ⟨code, member, -⟩ := holds
      rw [noKey] at member
      cases member
  | button number =>
      obtain ⟨dom, member, -⟩ | ⟨-, -, finger⟩ := holds
      · rw [noButton] at member
        cases member
      · omega

/-- What is physically down may change as long as it holds what is down for the host. -/
theorem Accounted.congr (h : s.Accounted seen) (same : s'.sent = s.sent)
    (holds : ∀ c, isDown c s.sent = true → s.Holds seen c → s'.Holds seen c) :
    s'.Accounted seen := by
  refine ⟨fun c down => ?_, fun number => same ▸ h.single number⟩
  rw [same] at down
  exact holds c down (h.held c down)

theorem Accounted.release (h : s.Accounted seen) (sent : s'.sent = s.sent ++ [(c, false)])
    (holds : ∀ d, d ≠ c → isDown d s.sent = true → s.Holds seen d → s'.Holds seen d) :
    s'.Accounted seen := by
  refine ⟨fun d down => ?_, fun number => ?_⟩
  · rw [sent, isDown_concat] at down
    split at down
    · cases down
    next other => exact holds d (fun same => other same.symm) down (h.held d down)
  · rw [sent]
    exact (h.single number).concat fun _ impossible => absurd impossible Bool.false_ne_true

theorem Accounted.press (h : s.Accounted seen) (sent : s'.sent = s.sent ++ [(c, true)])
    (up : ∀ number, c = .button number → isDown c s.sent = false) (here : s'.Holds seen c)
    (holds : ∀ d, isDown d s.sent = true → s.Holds seen d → s'.Holds seen d) :
    s'.Accounted seen := by
  refine ⟨fun d down => ?_, fun number => ?_⟩
  · rw [sent, isDown_concat] at down
    split at down
    next same => exact same ▸ here
    next => exact holds d down (h.held d down)
  · rw [sent]
    exact (h.single number).concat fun same _ => same ▸ up number same

theorem Accounted.click (h : s.Accounted seen)
    (sent : s'.sent = s.sent ++ [(c, true)] ++ [(c, false)])
    (up : ∀ number, c = .button number → isDown c s.sent = false)
    (holds : ∀ d, d ≠ c → isDown d s.sent = true → s.Holds seen d → s'.Holds seen d) :
    s'.Accounted seen := by
  refine ⟨fun d down => ?_, fun number => ?_⟩
  · rw [sent, isDown_concat, isDown_concat] at down
    split at down
    · cases down
    next other => exact holds d (fun same => other same.symm) down (h.held d down)
  · rw [sent]
    have pressed : Single (.button number) (s.sent ++ [(c, true)]) :=
      (h.single number).concat fun same _ => same ▸ up number same
    exact pressed.concat fun _ impossible => absurd impossible Bool.false_ne_true

theorem Holds.mono (holds : s.Holds seen c) (keys : ∀ code ∈ s.keys, code ∈ s'.keys)
    (buttons : ∀ dom ∈ s.buttons, dom ∈ s'.buttons)
    (drag : s.dragging = true → 0 < s.onVideo → s'.dragging = true ∧ 0 < s'.onVideo) :
    s'.Holds seen c := by
  cases c with
  | key hid =>
      obtain ⟨code, member, found⟩ := holds
      exact ⟨code, keys code member, found⟩
  | button number =>
      obtain ⟨dom, member, same⟩ | ⟨same, dragging, finger⟩ := holds
      · exact .inl ⟨dom, buttons dom member, same⟩
      · exact .inr ⟨same, drag dragging finger⟩

/-- Nothing that counts changes. -/
theorem Accounted.same (h : s.Accounted seen) (sent : s'.sent = s.sent) (keys : s'.keys = s.keys)
    (buttons : s'.buttons = s.buttons) (dragging : s'.dragging = s.dragging)
    (onVideo : s'.onVideo = s.onVideo) : s'.Accounted seen := by
  refine h.congr sent fun c _ holds => holds.mono ?_ ?_ ?_
  · rw [keys]
    exact fun _ member => member
  · rw [buttons]
    exact fun _ member => member
  · rw [dragging, onVideo]
    exact fun here finger => ⟨here, finger⟩

/-! ## The listeners -/

theorem Accounted.onKeyDown (h : s.Accounted seen) (code : String) :
    ({ s with keys := s.keys.insert code }.onKey code true).Accounted seen := by
  have more : ∀ c sent, s.Holds seen c →
      Holds seen { s with keys := s.keys.insert code, sent } c := by
    intro c sent holds
    exact holds.mono (fun _ member => List.mem_insert_of_mem member) (fun _ member => member)
      fun drag finger => ⟨drag, finger⟩
  unfold onKey
  split
  · exact h.congr rfl fun c _ => more c s.sent
  · split
    next hid found =>
      exact h.press rfl (fun _ impossible => nomatch impossible)
        ⟨code, List.mem_insert_self, found⟩ fun d _ => more d _
    next => exact h.congr rfl fun c _ => more c s.sent

theorem Accounted.onKeyUp (h : s.Accounted seen) {code : String}
    (safe : Safe seen s (.keyUp code)) :
    ({ s with keys := s.keys.filter (· ≠ code) }.onKey code false).Accounted seen := by
  have rest : ∀ c sent, (∀ hid, c = .key hid → codeToHid code ≠ some hid) → s.Holds seen c →
      Holds seen { s with keys := s.keys.filter (· ≠ code), sent } c := by
    intro c sent other holds
    cases c with
    | key hid =>
        obtain ⟨code', member, found⟩ := holds
        have apart : code' ≠ code := by
          rintro rfl
          exact other hid rfl found
        exact ⟨code', List.mem_filter.mpr ⟨member, by simpa using apart⟩, found⟩
    | button number => exact holds
  unfold onKey
  split
  next modal =>
    refine h.congr rfl fun c down => rest c s.sent ?_
    rintro hid rfl found
    exact absurd (safe modal hid found) (by simp [down])
  next =>
    split
    next hid found =>
      refine h.release rfl fun d other _ => rest d _ ?_
      rintro hid' rfl found'
      exact other (congrArg _ (Option.some.inj (found'.symm.trans found)))
    next missing =>
      refine h.congr rfl fun c _ => rest c s.sent ?_
      rintro hid rfl found
      cases missing.symm.trans found

theorem Accounted.onMouseDown (h : s.Accounted seen) {dom : Int} {inside : Bool} {now : Rat}
    (safe : Safe seen s (.mouseDown dom inside now)) :
    ({ s with buttons := dom :: s.buttons }.onMouse seen dom true inside now).Accounted seen := by
  have more : ∀ c sent, s.Holds seen c →
      Holds seen { s with buttons := dom :: s.buttons, sent } c := by
    intro c sent holds
    exact holds.mono (fun _ member => member) (fun _ member => List.mem_cons_of_mem _ member)
      fun drag finger => ⟨drag, finger⟩
  unfold onMouse
  split
  next heeded =>
    refine h.press rfl (fun _ _ => h.up (safe heeded.1 heeded.2)) ?_ fun d _ => more d _
    exact .inl ⟨dom, List.mem_cons_self, rfl⟩
  next => exact h.congr rfl fun c _ => more c s.sent

theorem Accounted.onMouseUp (h : s.Accounted seen) {dom : Int} {inside : Bool} {now : Rat}
    (safe : Safe seen s (.mouseUp dom inside now)) :
    ({ s with buttons := s.buttons.filter (· ≠ dom) }.onMouse seen dom false inside now).Accounted
      seen := by
  have rest : ∀ c sent, c ≠ button seen (domButtonToProto dom) → s.Holds seen c →
      Holds seen { s with buttons := s.buttons.filter (· ≠ dom), sent } c := by
    intro c sent other holds
    cases c with
    | key hid => exact holds
    | button number =>
        obtain ⟨dom', member, same⟩ | drag := holds
        · have apart : dom' ≠ dom := by
            rintro rfl
            exact other (congrArg _ same.symm)
          exact .inl ⟨dom', List.mem_filter.mpr ⟨member, by simpa using apart⟩, same⟩
        · exact .inr drag
  unfold onMouse
  split
  next => exact h.release rfl fun d other _ => rest d _ other
  next ignored =>
    refine h.congr rfl fun c down holds => ?_
    by_cases own : c = button seen (domButtonToProto dom)
    · obtain rfl := own
      exact safe.resolve_left ignored down
    · exact rest c s.sent own holds

/-- What is not held by the drag is held without its finger. -/
theorem Holds.undragged (holds : s.Holds seen c) (other : s.dragging = true → c ≠ button seen 0)
    (keys : s'.keys = s.keys) (buttons : s'.buttons = s.buttons) : s'.Holds seen c := by
  cases c with
  | key hid => simpa only [Holds, keys] using holds
  | button number =>
      refine .inl ?_
      rw [MouseHolds, buttons]
      exact holds.resolve_right fun drag => other drag.2.1 (congrArg _ drag.1)

/-- A drag is dropped, also one that has lost its finger. -/
theorem Accounted.dropDrag (h : s.Accounted seen) (sent : s'.sent = s.sent)
    (dragging : s'.dragging = s.dragging) (keys : s'.keys = s.keys)
    (buttons : s'.buttons = s.buttons) : (s'.dropDrag seen).Accounted seen := by
  unfold PageInput.dropDrag
  split
  next =>
    have released : ({ s'.send (button seen 0) false with dragging := false } : PageInput).sent =
        s.sent ++ [(button seen 0, false)] := sent ▸ rfl
    exact h.release released fun d other _ holds => holds.undragged (fun _ => other) keys buttons
  next no =>
    refine h.congr sent fun c _ holds => holds.undragged (fun drag => ?_) keys buttons
    exact absurd (dragging.trans drag) no

theorem Accounted.startDrag (h : s.Accounted seen) (finger : 0 < s.onVideo)
    (up : isDown (button seen 0) s.sent = false) : (s.startDrag seen).Accounted seen := by
  refine h.press rfl (fun _ _ => up) (.inr ⟨rfl, rfl, finger⟩) fun d _ holds => ?_
  exact holds.mono (fun _ member => member) (fun _ member => member)
    fun _ finger => ⟨rfl, finger⟩

theorem Accounted.onTouchStart (h : s.Accounted seen) (finger : 0 < s.onVideo) {touches : Nat}
    {now : Rat} (up : touches = 1 → s.doubletap = true → s.tapDrags now →
      isDown (button seen 0) s.sent = false) (some_ : 0 < touches) :
    (s.onTouchStart seen touches now).Accounted seen := by
  unfold PageInput.onTouchStart
  dsimp only
  split
  · have dropped : Accounted seen (PageInput.dropDrag seen { s with
        lastTouch := now
        moved := s.fingerDown && s.moved
        maxFingers := max touches s.maxFingers
        fingerDown := true
        longPress := false }) := h.dropDrag rfl rfl rfl rfl
    exact dropped.same rfl rfl rfl rfl rfl
  · split
    next doubletap =>
      split
      next drags =>
        have landed : Accounted seen { s with
            lastTouch := now
            moved := false
            maxFingers := max touches s.maxFingers
            fingerDown := true
            startMs := now } := h.same rfl rfl rfl rfl rfl
        exact landed.startDrag finger (up (by omega) doubletap drags)
      next => exact h.same rfl rfl rfl rfl rfl
    next => exact h.same rfl rfl rfl rfl rfl

theorem Accounted.onTouchMove (h : s.Accounted seen) (touches : Nat) (far : Bool) (now : Rat) :
    (s.onTouchMove touches far now).Accounted seen := by
  have kept : (s.onTouchMove touches far now).sent = s.sent ∧
      (s.onTouchMove touches far now).keys = s.keys ∧
      (s.onTouchMove touches far now).buttons = s.buttons ∧
      (s.onTouchMove touches far now).dragging = s.dragging ∧
      (s.onTouchMove touches far now).onVideo = s.onVideo := by
    simp only [PageInput.onTouchMove]
    split_ifs <;> exact ⟨rfl, rfl, rfl, rfl, rfl⟩
  obtain ⟨sent, keys, buttons, dragging, onVideo⟩ := kept
  exact h.same sent keys buttons dragging onVideo

/-- The last touch of the page is gone: the drag is released, or a tap clicks. -/
theorem Accounted.onLastTouchEnd (h : s.Accounted seen) {now : Rat} (onVideo elsewhere : Nat)
    (up : ∀ number ∈ s.tapButton now, isDown (button seen number) s.sent = false) :
    (onTouchEnd seen { s with onVideo, elsewhere } 0 now).Accounted seen := by
  unfold PageInput.onTouchEnd
  rw [if_neg (by simp)]
  have taps : tapButton { s with onVideo, elsewhere, lastTouch := now, pinching := false } now =
      s.tapButton now := rfl
  dsimp only
  rw [taps]
  cases click : s.tapButton now with
  | none => exact h.dropDrag rfl rfl rfl rfl
  | some number =>
      have still : s.dragging = false := by
        rw [tapButton] at click
        split at click
        · cases click
        next idle => simpa using (not_or.mp idle).1
      refine h.click rfl (fun _ _ => up number click) fun d _ _ holds => ?_
      exact holds.undragged (fun drag => by simp [still] at drag) rfl rfl

/-- Fingers leave the page, and a drag that has lost its finger is no other than the mouse's. -/
theorem Accounted.fingersLeave (h : s.Accounted seen) {onVideo : Nat} (elsewhere : Nat)
    (kept : DragKept seen s onVideo) (some_ : onVideo ≤ s.onVideo) :
    Accounted seen { s with
      onVideo := s.onVideo - onVideo, elsewhere := s.elsewhere - elsewhere } := by
  refine h.congr rfl fun c down holds => ?_
  cases c with
  | key hid => exact holds
  | button number =>
      obtain mouse | ⟨rfl, dragging, finger⟩ := holds
      · exact .inl mouse
      · by_cases last : s.onVideo = onVideo
        · exact .inl (kept dragging last down)
        · exact .inr ⟨rfl, dragging, by simp only; omega⟩

theorem Accounted.onLongPress (h : s.Accounted seen) (safe : Safe seen s .longPress) :
    (s.onLongPress seen).Accounted seen := by
  unfold PageInput.onLongPress
  dsimp only
  have fired : Accounted seen { s with longPress := false } := h.same rfl rfl rfl rfl rfl
  split
  next drags =>
    obtain ⟨finger, free⟩ := safe drags
    have shown : Accounted seen { s with longPress := false, hasPos := true } :=
      h.same rfl rfl rfl rfl rfl
    exact shown.startDrag finger (h.up free)
  next => exact fired

/-! ## Runs -/

theorem Accounted.step (h : s.Accounted seen) {a : PageEvent} (safe : Safe seen s a)
    (step : s.step seen a = some s') : s'.Accounted seen := by
  cases a with
  | keyDown code =>
      obtain rfl := Option.some.inj step
      exact h.onKeyDown code
  | keyUp code =>
      simp only [PageInput.step, Option.ite_none_right_eq_some, Option.some.injEq] at step
      obtain ⟨-, rfl⟩ := step
      exact h.onKeyUp safe
  | mouseDown dom inside now =>
      simp only [PageInput.step, Option.ite_none_left_eq_some, Option.some.injEq] at step
      obtain ⟨-, rfl⟩ := step
      exact h.onMouseDown safe
  | mouseUp dom inside now =>
      simp only [PageInput.step, Option.ite_none_right_eq_some, Option.some.injEq] at step
      obtain ⟨-, rfl⟩ := step
      exact h.onMouseUp safe
  | touchStart onVideo elsewhere now =>
      have landed : Accounted seen { s with
          onVideo := s.onVideo + onVideo, elsewhere := s.elsewhere + elsewhere } := by
        refine h.congr rfl fun c _ holds => ?_
        exact holds.mono (fun _ member => member) (fun _ member => member)
          fun drag finger => ⟨drag, Nat.lt_add_right _ finger⟩
      simp only [PageInput.step] at step
      split at step
      next =>
        obtain rfl := Option.some.inj step
        exact landed
      next some_ =>
        obtain rfl := Option.some.inj step
        have finger : 0 < s.onVideo + onVideo := by omega
        exact landed.onTouchStart finger
          (fun one doubletap drags => h.up (safe some_ one doubletap drags))
          (Nat.lt_add_right _ finger)
  | touchMove far now =>
      simp only [PageInput.step, Option.ite_none_left_eq_some, Option.some.injEq] at step
      obtain ⟨-, rfl⟩ := step
      exact h.onTouchMove _ far now
  | touchEnd onVideo elsewhere now =>
      simp only [PageInput.step, Option.ite_none_right_eq_some] at step
      obtain ⟨⟨enough, enough'⟩, step⟩ := step
      by_cases last : onVideo ≠ 0 ∧ s.onVideo + s.elsewhere = onVideo + elsewhere
      · rw [Safe, if_pos last] at safe
        have none_ : s.onVideo - onVideo + (s.elsewhere - elsewhere) = 0 := by omega
        rw [if_neg last.1, none_] at step
        obtain rfl := Option.some.inj step
        exact h.onLastTouchEnd _ _ fun number tapped => h.up (safe number tapped)
      · rw [Safe, if_neg last] at safe
        have left := h.fingersLeave elsewhere safe enough
        split at step
        next =>
          obtain rfl := Option.some.inj step
          exact left
        next some_ =>
          obtain rfl := Option.some.inj step
          have more : s.onVideo - onVideo + (s.elsewhere - elsewhere) ≠ 0 := by omega
          rw [PageInput.onTouchEnd, if_pos more]
          exact left.same rfl rfl rfl rfl rfl
  | touchCancel onVideo elsewhere =>
      simp only [PageInput.step, Option.ite_none_right_eq_some, Option.some.injEq] at step
      obtain ⟨⟨enough, -⟩, rfl⟩ := step
      exact h.fingersLeave _ safe enough
  | longPress =>
      simp only [PageInput.step, Option.ite_none_right_eq_some, Option.some.injEq] at step
      obtain ⟨-, rfl⟩ := step
      exact h.onLongPress safe
  | dragMode doubletap =>
      obtain rfl := Option.some.inj step
      exact h.same rfl rfl rfl rfl rfl
  | modal isOpen =>
      obtain rfl := Option.some.inj step
      exact h.same rfl rfl rfl rfl rfl

theorem accounted_of_reachable (run : (machine seen).ReachableBy (Safe seen) s) :
    s.Accounted seen := by
  refine run.invariant (I := fun s => s.Accounted seen) ?_ ?_
  · rintro s rfl
    exact ⟨fun c down => by simp at down, fun number => single_nil⟩
  · exact fun s a s' h safe step => h.step safe step

/-- In every run whose steps are safe the input is balanced, whichever buttons the host tells
apart. -/
theorem input_balanced (seen : Int → Int) (s : PageInput)
    (run : (machine seen).ReachableBy (Safe seen) s) : s.Balanced :=
  (accounted_of_reachable run).balanced

/-- A key, a click of the mouse, a long press that drags and a tap. -/
theorem input_balanced_drag :
    ∃ s, (machine id).ReachableBy (Safe id) s ∧ s.sent.length = 8 ∧ s.Balanced := by
  obtain ⟨s, run, sent⟩ := Machine.exists_reachableBy (machine id) (Safe id) (s := {}) rfl
    [.keyDown "KeyA", .keyUp "KeyA", .mouseDown 0 true 1000, .mouseUp 0 true 1100,
      .touchStart 1 0 2000, .longPress, .touchMove true 2600, .touchEnd 1 0 2700,
      .touchStart 1 0 4000, .touchEnd 1 0 4100]
    (fun s => s.sent.length = 8) (by decide +kernel)
  exact ⟨s, run, sent, input_balanced id s run⟩

/-- With nothing physically down, one control is left down on the host. -/
def LeavesDown (c : PageControl) (s : PageInput) : Prop :=
  s.keys = [] ∧ s.buttons = [] ∧ s.onVideo = 0 ∧ s.elsewhere = 0 ∧ s.sent = [(c, true)]

instance (c : PageControl) (s : PageInput) : Decidable (LeavesDown c s) :=
  inferInstanceAs (Decidable (_ ∧ _ ∧ _ ∧ _ ∧ _))

theorem left_down (events : List PageEvent)
    (run : ((machine id).exec Machine.Always {} events).any (fun s => LeavesDown c s) = true) :
    ∃ s, (machine id).Reachable s ∧ LeavesDown c s ∧ ¬ s.Balanced := by
  obtain ⟨s, reached, left⟩ := Machine.exists_reachableBy (machine id) Machine.Always
    (s := {}) rfl events (LeavesDown c) run
  refine ⟨s, reached, left, fun balanced => ?_⟩
  obtain ⟨keys, buttons, onVideo, elsewhere, sent⟩ := left
  exact nomatch balanced.released keys buttons onVideo elsewhere c [] [] sent

/-- A key released behind the modal; a button released outside of the video, or shortly after a
touch; a drag that is cancelled; and a tap while the left button is down. -/
theorem input_left_down :
    (∃ s, (machine id).Reachable s ∧ LeavesDown (.key 0x04) s ∧ ¬ s.Balanced) ∧
    (∃ s, (machine id).Reachable s ∧ LeavesDown (.button 1) s ∧ ¬ s.Balanced) ∧
    (∃ s, (machine id).Reachable s ∧ LeavesDown (.button 2) s ∧ ¬ s.Balanced) ∧
    (∃ s, (machine id).Reachable s ∧ LeavesDown (.button 0) s ∧ ¬ s.Balanced) ∧
    ∃ s, (machine id).Reachable s ∧
      s.sent = [(.button 1, true), (.button 1, true), (.button 1, false)] ∧ ¬ s.Balanced := by
  refine ⟨?_, ?_, ?_, ?_, ?_⟩
  · exact left_down [.keyDown "KeyA", .modal true, .keyUp "KeyA"] (by decide +kernel)
  · exact left_down [.mouseDown 0 true 1000, .mouseUp 0 false 1100] (by decide +kernel)
  · exact left_down [.mouseDown 2 true 1000, .touchStart 2 0 1100, .touchEnd 2 0 1500,
      .mouseUp 2 true 1600] (by decide +kernel)
  · exact left_down [.touchStart 1 0 1000, .longPress, .touchCancel 1 0] (by decide +kernel)
  · obtain ⟨s, run, sent⟩ := Machine.exists_reachableBy (machine id) Machine.Always (s := {}) rfl
      [.mouseDown 0 true 1000, .touchStart 1 0 1200, .touchEnd 1 0 1300]
      (fun s => s.sent = [(.button 1, true), (.button 1, true), (.button 1, false)])
      (by decide +kernel)
    refine ⟨s, run, sent, fun balanced => ?_⟩
    exact nomatch balanced.single 1 [] [] [(.button 1, false)] sent

end PageInput
end ReachMyDevice
