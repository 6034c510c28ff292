import ReachMyDevice.InjectorSlot
import ReachMyDevice.Keymaps

/-!
# The books of an injector

Which calls leave a control down that the injector does not know of, for each
backend, and the runs without such a call.
-/
namespace ReachMyDevice
open Machines

variable {keymap : Keymap} {held : List Control}

/-- Wheel buttons are never recorded, so a click keeps the books if it is whole. -/
theorem clicks_tracked {P : Control → Prop} (tracked : ∀ c ∈ held, P c) (ok : Nat → Bool)
    {numbers : List Nat} (unrecorded : ∀ n ∈ numbers, ¬ P (.button n)) (k : Nat) :
    (∀ c ∈ heldAfter held (((((numbers.flatMap X11Injector.click).zipIdx k).takeWhile
      fun e => ok e.2).map Prod.fst)), P c) ↔ X11Injector.clicksWhole ok k numbers := by
  induction numbers generalizing k held with
  | nil => simpa [X11Injector.clicksWhole, heldAfter_nil] using tracked
  | cons n rest ih =>
      have here := unrecorded n List.mem_cons_self
      simp only [X11Injector.click, List.flatMap_cons, List.cons_append, List.nil_append,
        List.zipIdx_cons, X11Injector.clicksWhole]
      cases first : ok k with
      | false => simpa [first, heldAfter_nil] using tracked
      | true =>
          cases second : ok (k + 1) with
          | false =>
              simp only [List.takeWhile_cons, first, second, if_true, Bool.false_eq_true, if_false,
                List.map_cons, List.map_nil, heldAfter_press, heldAfter_nil,
                false_and, imp_false]
              refine iff_of_false (fun h => here (h _ ?_)) (fun h => h trivial)
              exact List.mem_insert_iff.mpr (.inl rfl)
          | true =>
              simp only [List.takeWhile_cons, first, second, if_true, List.map_cons,
                heldAfter_press, heldAfter_release, true_and, forall_const]
              refine ih ?_ (fun m member => unrecorded m (List.mem_cons_of_mem _ member)) (k + 2)
              intro c member
              obtain ⟨down, other⟩ := List.mem_filter.mp member
              rcases List.mem_insert_iff.mp down with same | before
              · exact absurd same (of_decide_eq_true other)
              · exact tracked c before

namespace Injector

/-- The records have no doubles, and no wheel button. -/
def WellKept : Injector → Prop
  | .uinput s => s.pressed.Nodup
  | .x11 s => s.pressedKeys.Nodup ∧ s.pressedButtons.Nodup ∧ ∀ n ∈ s.pressedButtons, n ≤ 3
  | .mac _ => True

theorem build_fresh {rect : Option MonitorRect} {built : NewInjector} {i : Injector}
    (made : built.build rect = some i) : i.WellKept ∧ i.pressed = [] := by
  cases built <;> cases made
  · exact ⟨List.nodup_nil, rfl⟩
  · exact ⟨⟨List.nodup_nil, List.nodup_nil, fun _ member => nomatch member⟩, rfl⟩
  · exact ⟨trivial, rfl⟩

/-! ## `inject` -/

theorem buttonNumber_le (button : Int) : X11Injector.buttonNumber button ≤ 3 := by
  unfold X11Injector.buttonNumber
  split
  · omega
  · split <;> omega

theorem inject_wellKept (keymap : Keymap) {i : Injector} (h : i.WellKept) (ok : Nat → Bool)
    (ev : InputEvent) : (i.inject keymap ok ev).1.WellKept := by
  cases i with
  | mac s => trivial
  | uinput s =>
      cases ev with
      | mouseMove m =>
          simp only [inject, UinputInjector.inject]
          split <;> exact h
      | mouseButton b => exact track_nodup h _ _
      | mouseScroll w => exact h
      | key k =>
          simp only [inject, UinputInjector.inject]
          split
          · exact h
          · exact track_nodup h _ _
  | x11 s =>
      obtain ⟨keys, buttons, small⟩ := h
      cases ev with
      | mouseMove m => exact ⟨keys, buttons, small⟩
      | mouseButton b =>
          simp only [inject, X11Injector.inject]
          split
          · refine ⟨keys, track_nodup buttons _ _, fun n member => ?_⟩
            have recorded := (mem_track buttons n).mp member
            split at recorded
            · rcases recorded with rfl | before
              · exact buttonNumber_le b.button
              · exact small n before
            · exact small n recorded.2
          · exact ⟨keys, buttons, small⟩
      | mouseScroll w => exact ⟨keys, buttons, small⟩
      | key k =>
          simp only [inject, X11Injector.inject]
          split
          · exact ⟨keys, buttons, small⟩
          · exact ⟨track_nodup keys _ _, buttons, small⟩

theorem uinput_inject_tracked {s : UinputInjector} (once : s.pressed.Nodup)
    (tracked : ∀ c ∈ held, c ∈ (uinput s).pressed) (ok : Nat → Bool) (ev : InputEvent) :
    (∀ c ∈ heldAfter held ((uinput s).inject keymap ok ev).2,
      c ∈ ((uinput s).inject keymap ok ev).1.pressed) ↔
      (uinput s).InjectSafe keymap held ok ev := by
  have recorded : ∀ code down, ∀ c : Control,
      c ∈ (track s.pressed code down).map Control.key ↔
        if down then c = .key code ∨ c ∈ s.pressed.map Control.key
        else c ≠ .key code ∧ c ∈ s.pressed.map Control.key := by
    intro code down c
    cases c with
    | button number => cases down <;> simp
    | key n => cases down <;> simp [mem_track once]
  cases ev with
  | mouseMove m =>
      have silent : heldAfter held ((uinput s).inject keymap ok (.mouseMove m)).2 = held := by
        refine heldAfter_all_silent held fun ev member => ?_
        simp only [inject, UinputInjector.inject] at member
        split at member
        · cases member
        · split at member
          · obtain rfl := List.mem_singleton.mp member
            rfl
          · cases member
      have same : ((uinput s).inject keymap ok (.mouseMove m)).1.pressed = (uinput s).pressed := by
        simp only [inject, UinputInjector.inject]
        split <;> rfl
      rw [silent, same]
      exact iff_of_true tracked trivial
  | mouseButton b =>
      have posted : ∀ x y, heldAfter held (if ok 0 = true then
          [.absolute x y, keyEdge (UinputInjector.buttonCode b.button) b.pressed] else []) =
          heldAfter held (if ok 0 = true then
            [keyEdge (UinputInjector.buttonCode b.button) b.pressed] else []) := by
        intro x y
        split
        · exact heldAfter_silent held rfl _
        · rfl
      simp only [inject, UinputInjector.inject, Prod.map, id_eq, posted]
      exact edge_tracked tracked (recorded _ _) (keyEdge_edge _ _) (ok 0)
  | mouseScroll w =>
      have silent : heldAfter held ((uinput s).inject keymap ok (.mouseScroll w)).2 = held := by
        refine heldAfter_all_silent held fun ev member => ?_
        simp only [inject, UinputInjector.inject, Prod.map, id_eq] at member
        split at member
        · simp only [UinputInjector.wheel, List.mem_append] at member
          rcases member with here | here <;>
            (split at here
             · cases here
             · obtain rfl := List.mem_singleton.mp here
               rfl)
        · cases member
      rw [silent]
      exact iff_of_true tracked trivial
  | key k =>
      cases mapped : keymap.hidToEvdev k.hidUsage with
      | none =>
          simp only [inject, UinputInjector.inject, mapped, InjectSafe]
          exact iff_of_true tracked (by simp)
      | some code =>
          simp only [inject, UinputInjector.inject, mapped, Prod.map, id_eq, InjectSafe,
            Option.some.injEq, forall_eq']
          exact edge_tracked tracked (recorded _ _) (keyEdge_edge _ _) (ok 0)

/-- One call in turn. -/
theorem calls_one (ok : Nat → Bool) (ev : OsEvent) :
    X11Injector.calls ok [ev] = if ok 0 = true then [ev] else [] := by
  cases first : ok 0 <;> simp [X11Injector.calls, first]

theorem calls_two (ok : Nat → Bool) (ev ev' : OsEvent) :
    X11Injector.calls ok [ev, ev'] =
      if ok 0 = true then ev :: (if ok 1 = true then [ev'] else []) else [] := by
  cases first : ok 0 <;> cases second : ok 1 <;>
    simp [X11Injector.calls, first, second]

theorem wheelClicks_number {w : MouseScroll} {n : Nat} (member : n ∈ X11Injector.wheelClicks w) :
    3 < n := by
  simp only [X11Injector.wheelClicks, List.mem_append] at member
  rcases member with here | here <;> split at here
  · simp_all
  · split at here <;> simp_all
  · simp_all
  · split at here <;> simp_all

theorem x11_scroll (s : X11Injector) (ok : Nat → Bool) (w : MouseScroll) :
    s.inject keymap ok (.mouseScroll w) =
      (s, (((X11Injector.wheelClicks w).flatMap X11Injector.click).zipIdx.takeWhile
        fun e => ok e.2).map Prod.fst) := by
  simp only [X11Injector.inject, X11Injector.calls, X11Injector.wheelClicks, List.flatMap_append]
  congr 5
  · split
    · rfl
    · split <;> rfl
  · split
    · rfl
    · split <;> rfl

theorem x11_inject_tracked {s : X11Injector} (h : (x11 s).WellKept)
    (tracked : ∀ c ∈ held, c ∈ (x11 s).pressed) (ok : Nat → Bool) (ev : InputEvent) :
    (∀ c ∈ heldAfter held ((x11 s).inject keymap ok ev).2,
      c ∈ ((x11 s).inject keymap ok ev).1.pressed) ↔
      (x11 s).InjectSafe keymap held ok ev := by
  obtain ⟨keys, buttons, small⟩ := h
  cases ev with
  | mouseMove m =>
      have silent : heldAfter held ((x11 s).inject keymap ok (.mouseMove m)).2 = held := by
        simp only [inject, X11Injector.inject, Prod.map, id_eq, calls_one]
        split
        · exact heldAfter_silent held rfl []
        · rfl
      rw [silent]
      exact iff_of_true tracked trivial
  | mouseButton b =>
      simp only [inject, X11Injector.inject, Prod.map, id_eq, calls_two, InjectSafe]
      cases moved : ok 0 with
      | false => simpa [heldAfter_nil] using tracked
      | true =>
          simp only [if_true, heldAfter_absolute, forall_const]
          refine edge_tracked tracked (fun c => ?_) (buttonEdge_edge _ _) (ok 1)
          cases c with
          | key code => cases b.pressed <;> simp [pressed]
          | button n => cases b.pressed <;> simp [pressed, mem_track buttons]
  | mouseScroll w =>
      simp only [inject, x11_scroll, Prod.map, id_eq]
      refine clicks_tracked tracked ok (fun n member recorded => ?_) 0
      have large := wheelClicks_number member
      have recorded : n ∈ s.pressedButtons := by simpa [pressed] using recorded
      have := small n recorded
      omega
  | key k =>
      cases mapped : keymap.hidToXKeycode k.hidUsage with
      | none =>
          simp only [inject, X11Injector.inject, mapped, InjectSafe]
          exact iff_of_true tracked (by simp)
      | some code =>
          simp only [inject, X11Injector.inject, mapped, Prod.map, id_eq, calls_one, InjectSafe,
            Option.some.injEq, forall_eq']
          refine edge_tracked tracked (fun c => ?_) (keyEdge_edge _ _) (ok 0)
          cases c with
          | key n => cases k.pressed <;> simp [pressed, mem_track keys]
          | button number => cases k.pressed <;> simp [pressed]

theorem mem_mac_pressed {s : MacInjector} {c : Control} : c ∈ (mac s).pressed ↔
    (c = .button 1 ∧ s.leftDown = true) ∨ (c = .button 2 ∧ s.rightDown = true) ∨
      (c = .button 3 ∧ s.otherDown = true) := by
  simp only [pressed, List.mem_append]
  cases s.leftDown <;> cases s.rightDown <;> cases s.otherDown <;> simp [or_assoc]

theorem mem_mac_setDown (s : MacInjector) (button : Int) (down : Bool) (c : Control) :
    c ∈ (mac (s.setDown button down)).pressed ↔
      if down then c = .button (MacInjector.buttonNumber button) ∨ c ∈ (mac s).pressed
      else c ≠ .button (MacInjector.buttonNumber button) ∧ c ∈ (mac s).pressed := by
  simp only [mem_mac_pressed, MacInjector.setDown, MacInjector.buttonNumber]
  by_cases right : button = 2
  · cases down <;> simp [right] <;> grind
  · by_cases other : button = 3
    · cases down <;> simp [other] <;> grind
    · cases down <;> simp [right, other] <;> grind

theorem mac_inject_tracked {s : MacInjector} (tracked : ∀ c ∈ held, c ∈ (mac s).pressed)
    (ok : Nat → Bool) (ev : InputEvent) :
    (∀ c ∈ heldAfter held ((mac s).inject keymap ok ev).2,
      c ∈ ((mac s).inject keymap ok ev).1.pressed) ↔
      (mac s).InjectSafe keymap held ok ev := by
  have quiet : ∀ ev : OsEvent, ev.edge = none →
      heldAfter held (if ok 0 = true then [ev] else []) = held := by
    intro ev silent
    split
    · exact heldAfter_silent held silent []
    · rfl
  have noKey : ∀ code, Control.key code ∉ (mac s).pressed := by
    intro code recorded
    simpa using mem_mac_pressed.mp recorded
  cases ev with
  | mouseMove m =>
      simp only [inject, MacInjector.inject, Prod.map, id_eq, InjectSafe]
      rw [quiet]
      · exact iff_of_true tracked trivial
      · unfold MacInjector.moveKind
        split
        · rfl
        · split
          · rfl
          · split <;> rfl
  | mouseButton b =>
      simp only [inject, MacInjector.inject, Prod.map, id_eq, InjectSafe]
      exact edge_tracked tracked (mem_mac_setDown s _ _) rfl (ok 0)
  | mouseScroll w =>
      simp only [inject, MacInjector.inject, Prod.map, id_eq, InjectSafe]
      rw [quiet _ rfl]
      exact iff_of_true tracked trivial
  | key k =>
      cases mapped : keymap.hidToMacos k.hidUsage with
      | none =>
          simp only [inject, MacInjector.inject, mapped, InjectSafe]
          exact iff_of_true tracked (by simp)
      | some code =>
          simp only [inject, MacInjector.inject, mapped, Prod.map, id_eq, InjectSafe,
            Option.some.injEq, forall_eq']
          cases posted : ok 0 with
          | false => simpa [heldAfter_nil] using tracked
          | true =>
              simp only [if_true, heldAfter_cgKey, heldAfter_nil]
              cases k.pressed with
              | true =>
                  refine iff_of_false (fun h => noKey code (h _ ?_)) (by simp)
                  exact List.mem_insert_iff.mpr (.inl rfl)
              | false =>
                  refine iff_of_true (fun c member => tracked c ?_) (by simp)
                  exact (List.mem_filter.mp member).1

theorem inject_tracked {i : Injector} (h : i.WellKept) (tracked : ∀ c ∈ held, c ∈ i.pressed)
    (ok : Nat → Bool) (ev : InputEvent) :
    (∀ c ∈ heldAfter held (i.inject keymap ok ev).2, c ∈ (i.inject keymap ok ev).1.pressed) ↔
      i.InjectSafe keymap held ok ev := by
  cases i with
  | uinput s => exact uinput_inject_tracked h tracked ok ev
  | x11 s => exact x11_inject_tracked h tracked ok ev
  | mac s => exact mac_inject_tracked tracked ok ev

/-! ## `release_all` -/

theorem releaseAll_wellKept {i : Injector} (h : i.WellKept) (ok : Nat → Bool) :
    (i.releaseAll ok).1.WellKept := by
  cases i with
  | uinput s => exact List.nodup_nil
  | x11 s => exact ⟨List.nodup_nil, List.nodup_nil, fun _ member => nomatch member⟩
  | mac s => trivial

theorem heldAfter_releaseAll (i : Injector) (ok : Nat → Bool) (held : List Control) :
    heldAfter held (i.releaseAll ok).2 = [] ↔
      ∀ c ∈ held, OsEvent.release c ∈ (i.releaseAll ok).2 := by
  simp only [List.eq_nil_iff_forall_not_mem, mem_heldAfter_releases (releaseAll_releases i ok),
    not_and, not_not]

/-- Nothing is down after it exactly when the calls that matter succeed. -/
theorem releaseAll_empties {i : Injector} (tracked : ∀ c ∈ held, c ∈ i.pressed)
    (ok : Nat → Bool) : heldAfter held (i.releaseAll ok).2 = [] ↔ i.ReleaseSafe held ok := by
  rw [heldAfter_releaseAll]
  cases i with
  | uinput s =>
      simp only [releaseAll, UinputInjector.releaseAll, Prod.map, id_eq, ReleaseSafe]
      cases posted : ok 0 with
      | false => simp [List.eq_nil_iff_forall_not_mem]
      | true =>
          refine iff_of_true (fun c member => ?_) (.inr rfl)
          obtain ⟨code, recorded, rfl⟩ := List.mem_map.mp (tracked c member)
          exact List.mem_map.mpr ⟨code, recorded, rfl⟩
  | x11 s =>
      simp only [releaseAll, X11Injector.releaseAll, Prod.map, id_eq, ReleaseSafe,
        X11Injector.ups, List.mem_map, List.mem_filter]
      refine forall₂_congr fun c _ => ⟨?_, ?_⟩
      · rintro ⟨⟨ev, n⟩, ⟨made, posted⟩, rfl⟩
        exact ⟨n, made, posted⟩
      · rintro ⟨n, made, posted⟩
        exact ⟨(.release c, n), ⟨made, posted⟩, rfl⟩
  | mac s => simp [releaseAll, ReleaseSafe, List.eq_nil_iff_forall_not_mem]

end Injector

/-! ## Runs -/

namespace InjectorSlot
variable {closes : Injector → Bool} {s s' : InjectorSlot}

def WellKept (s : InjectorSlot) : Prop := ∀ i, s.injector = some i → i.WellKept

theorem inject_cases {ev : InputEvent} {ok : Nat → Bool}
    (step : s.step keymap closes (.inject ev ok) = some s') :
    s.injector = none ∧ s' = { s with released := false } ∨
      ∃ i, s.injector = some i ∧ s' = { s with
        injector := some (i.inject keymap ok ev).1
        held := heldAfter s.held (i.inject keymap ok ev).2
        released := false } := by
  cases here : s.injector with
  | none =>
      simp only [InjectorSlot.step, here, Option.some.injEq] at step
      exact .inl ⟨rfl, step.symm⟩
  | some i =>
      simp only [InjectorSlot.step, here, Option.some.injEq] at step
      exact .inr ⟨i, rfl, step.symm⟩

theorem releaseAll_cases {ok : Nat → Bool}
    (step : s.step keymap closes (.releaseAll ok) = some s') :
    s.injector = none ∧ s' = { s with released := true } ∨
      ∃ i, s.injector = some i ∧ s' = { s with
        injector := some (i.releaseAll ok).1
        held := heldAfter s.held (i.releaseAll ok).2
        released := true } := by
  cases here : s.injector with
  | none =>
      simp only [InjectorSlot.step, here, Option.some.injEq] at step
      exact .inl ⟨rfl, step.symm⟩
  | some i =>
      simp only [InjectorSlot.step, here, Option.some.injEq] at step
      exact .inr ⟨i, rfl, step.symm⟩

theorem wellKept_step {a : InjectorCall} (h : WellKept s)
    (step : s.step keymap closes a = some s') : WellKept s' := by
  cases a with
  | replace rect built =>
      obtain rfl := Option.some.inj step
      exact fun i made => (Injector.build_fresh made).1
  | inject ev ok =>
      rcases inject_cases step with ⟨-, rfl⟩ | ⟨i, here, rfl⟩
      · exact h
      · rintro _ ⟨⟩
        exact Injector.inject_wellKept keymap (h i here) ok ev
  | releaseAll ok =>
      rcases releaseAll_cases step with ⟨-, rfl⟩ | ⟨i, here, rfl⟩
      · exact h
      · rintro _ ⟨⟩
        exact Injector.releaseAll_wellKept (h i here) ok

theorem wellKept_of_reachable {ok : InjectorSlot → InjectorCall → Prop}
    (run : (machine keymap closes).ReachableBy ok s) : WellKept s := by
  induction run with
  | start first =>
      obtain ⟨rect, built, rfl⟩ := first
      exact fun i made => (Injector.build_fresh made).1
  | next _ _ step ih => exact wellKept_step ih step

theorem Booked.pressed_of_held (h : Booked s) {i : Injector} (here : s.injector = some i) :
    ∀ c ∈ s.held, c ∈ i.pressed := by
  intro c member
  obtain ⟨j, there, recorded⟩ := h.tracked c member
  cases here.symm.trans there
  exact recorded

/-- An empty slot holds nothing. -/
theorem Booked.held_nil (h : Booked s) (empty : s.injector = none) : s.held = [] := by
  rw [List.eq_nil_iff_forall_not_mem]
  intro c member
  obtain ⟨i, here, -⟩ := h.tracked c member
  rw [empty] at here
  cases here

/-- The books are kept as long as nothing is held. -/
theorem Booked.of_held_nil (held : s.held = []) (left : s.left = []) : Booked s := by
  refine ⟨fun c member => ?_, fun _ => held, left⟩
  rw [held] at member
  cases member

/-- A call on an empty slot only notes whether it was one for a release. -/
theorem Booked.idle (h : Booked s) (empty : s.injector = none) (released : Bool) :
    Booked { s with released } := .of_held_nil (h.held_nil empty) h.left

/-- A call keeps the books exactly when it is safe. -/
theorem booked_step (kept : WellKept s) (h : Booked s) {a : InjectorCall}
    (step : s.step keymap closes a = some s') : Booked s' ↔ Safe keymap closes s a := by
  cases a with
  | replace rect built =>
      obtain rfl := Option.some.inj step
      have left : s.left ++ s.leftOver closes = [] ↔ Safe keymap closes s (.replace rect built) := by
        rw [h.left, List.nil_append, leftOver, Safe]
        cases s.injector.any closes <;> simp
      exact ⟨fun next => left.mp next.left,
        fun safe => ⟨fun _ member => (nomatch member), fun _ => rfl, left.mpr safe⟩⟩
  | inject ev ok =>
      rcases inject_cases step with ⟨empty, rfl⟩ | ⟨i, here, rfl⟩
      · refine iff_of_true (h.idle empty false) ?_
        intro i there
        cases empty.symm.trans there
      · have safe : (∀ c ∈ heldAfter s.held (i.inject keymap ok ev).2,
            c ∈ (i.inject keymap ok ev).1.pressed) ↔ i.InjectSafe keymap s.held ok ev :=
          Injector.inject_tracked (kept i here) (h.pressed_of_held here) ok ev
        simp only [Safe, here, Option.some.injEq, forall_eq', ← safe]
        constructor
        · intro next
          exact next.pressed_of_held rfl
        · exact fun after => ⟨fun c member => ⟨_, rfl, after c member⟩,
            fun impossible => (nomatch impossible), h.left⟩
  | releaseAll ok =>
      rcases releaseAll_cases step with ⟨empty, rfl⟩ | ⟨i, here, rfl⟩
      · refine iff_of_true (h.idle empty true) ?_
        intro i there
        cases empty.symm.trans there
      · have safe := Injector.releaseAll_empties (h.pressed_of_held here) ok
        simp only [Safe, here, Option.some.injEq, forall_eq', ← safe]
        exact ⟨fun next => next.released rfl, fun empty => Booked.of_held_nil empty h.left⟩

theorem start_booked (rect : Option MonitorRect) (built : NewInjector) : Booked (start rect built) :=
  .of_held_nil rfl rfl

theorem booked_of_reachable
    (run : (machine keymap closes).ReachableBy (Safe keymap closes) s) : Booked s := by
  induction run with
  | start first =>
      obtain ⟨rect, built, rfl⟩ := first
      exact start_booked rect built
  | next run met step ih => exact (booked_step (wellKept_of_reachable run) ih step).mpr met

/-- In the runs of safe calls every control that is down is in the pressed set, and none is after a
release or a replacement; the first call that is not safe breaks this. -/
theorem pressed_set_exact (keymap : Keymap) (closes : Injector → Bool) {s : InjectorSlot}
    (run : (machine keymap closes).ReachableBy (Safe keymap closes) s) :
    Booked s ∧ ∀ a s', s.step keymap closes a = some s' → (Booked s' ↔ Safe keymap closes s a) :=
  ⟨booked_of_reachable run,
    fun _ _ step => booked_step (wellKept_of_reachable run) (booked_of_reachable run) step⟩

/-- Only a uinput device takes its keys with it. -/
def kernelCloses : Injector → Bool
  | .uinput _ => true
  | .x11 _ | .mac _ => false

def keyA (pressed : Bool) : InputEvent := .key { hidUsage := 4, pressed, modifiers := 0 }

def works : Nat → Bool := fun _ => true

def fails : Nat → Bool := fun _ => false

/-- A key is held, the geometry changes, and a new device takes the place of the old. -/
theorem pressed_set_exact_handover :
    ∃ s, (machine .tables kernelCloses).ReachableBy (Safe .tables kernelCloses) s ∧
      s.held = [.key 30] ∧ Booked s := by
  have uinput : ∀ a ∈ [InjectorCall.inject (keyA true) works, .replace none (.uinput none),
      .inject (keyA true) fails, .inject (keyA true) works], ∀ s : InjectorSlot,
      s.injector.any kernelCloses = true → Safe .tables kernelCloses s a := by
    intro a listed s closes
    have pressSafe : ∀ ok, Safe .tables kernelCloses s (.inject (keyA true) ok) := by
      intro ok i here
      rw [here] at closes
      cases i with
      | uinput u => exact fun code _ up => nomatch up
      | x11 x => cases closes
      | mac m => cases closes
    simp only [List.mem_cons, List.not_mem_nil, or_false] at listed
    rcases listed with rfl | rfl | rfl | rfl
    · exact pressSafe works
    · exact .inr closes
    · exact pressSafe fails
    · exact pressSafe works
  obtain ⟨s, run, held⟩ := Machine.exists_reachableBy_of (machine .tables kernelCloses)
    (fun s _ => s.injector.any kernelCloses = true) (s := start none (.uinput none))
    ⟨none, .uinput none, rfl⟩ _ uinput (fun s => s.held = [.key 30]) (by decide)
  exact ⟨s, run, held, (pressed_set_exact .tables kernelCloses run).1⟩

theorem not_booked_of_unrecorded {c : Control} (held : s.held = [c])
    (recorded : s.injector.map Injector.pressed = some []) : ¬ Booked s := by
  intro h
  obtain ⟨i, here, member⟩ := h.tracked c (held ▸ List.mem_singleton_self c)
  rw [here, Option.map_some, Option.some.injEq] at recorded
  rw [recorded] at member
  cases member

/-- A release that fails, a wheel click that stops half way, a key on macOS, a release on macOS, a
failed `release_all`, and an X11 injector replaced while a key is held. -/
theorem keys_left_down :
    (∃ s, (machine .tables kernelCloses).Reachable s ∧ s.held = [.key 30] ∧ ¬ Booked s) ∧
    (∃ s, (machine .tables kernelCloses).Reachable s ∧ s.held = [.button 4] ∧ ¬ Booked s) ∧
    (∃ s, (machine .tables kernelCloses).Reachable s ∧ s.held = [.key 0] ∧ ¬ Booked s) ∧
    (∃ s, (machine .tables kernelCloses).Reachable s ∧ s.released = true ∧
      s.held = [.button 1] ∧ ¬ Booked s) ∧
    (∃ s, (machine .tables kernelCloses).Reachable s ∧ s.released = true ∧ s.held = [.key 38] ∧
      ¬ Booked s) ∧
    ∃ s, (machine .tables kernelCloses).Reachable s ∧ s.released = true ∧ s.left = [.key 38] ∧
      ¬ Booked s := by
  refine ⟨?_, ?_, ?_, ?_, ?_, ?_⟩
  · obtain ⟨s, run, held, recorded⟩ := Machine.exists_reachableBy (machine .tables kernelCloses)
      Machine.Always (s := start none (.uinput none)) ⟨none, .uinput none, rfl⟩
      [.inject (keyA true) works, .inject (keyA false) fails]
      (fun s => s.held = [.key 30] ∧ s.injector.map Injector.pressed = some []) (by decide)
    exact ⟨s, run, held, not_booked_of_unrecorded held recorded⟩
  · obtain ⟨s, run, held, recorded⟩ := Machine.exists_reachableBy (machine .tables kernelCloses)
      Machine.Always (s := start none (.x11 1 1)) ⟨none, .x11 1 1, rfl⟩
      [.inject (.mouseScroll { dx := 0, dy := 1 }) (· < 1)]
      (fun s => s.held = [.button 4] ∧ s.injector.map Injector.pressed = some []) (by decide)
    exact ⟨s, run, held, not_booked_of_unrecorded held recorded⟩
  · obtain ⟨s, run, held, recorded⟩ := Machine.exists_reachableBy (machine .tables kernelCloses)
      Machine.Always (s := start none (.mac 1 1)) ⟨none, .mac 1 1, rfl⟩
      [.inject (keyA true) works]
      (fun s => s.held = [.key 0] ∧ s.injector.map Injector.pressed = some []) (by decide)
    exact ⟨s, run, held, not_booked_of_unrecorded held recorded⟩
  · obtain ⟨s, run, released, held⟩ := Machine.exists_reachableBy (machine .tables kernelCloses)
      Machine.Always (s := start none (.mac 1 1)) ⟨none, .mac 1 1, rfl⟩
      [.inject (.mouseButton { button := 1, pressed := true, x := 0, y := 0 }) works,
        .releaseAll works]
      (fun s => s.released = true ∧ s.held = [.button 1]) (by decide)
    refine ⟨s, run, released, held, fun h => ?_⟩
    cases held.symm.trans (h.released released)
  · obtain ⟨s, run, released, held⟩ := Machine.exists_reachableBy (machine .tables kernelCloses)
      Machine.Always (s := start none (.x11 1 1)) ⟨none, .x11 1 1, rfl⟩
      [.inject (keyA true) works, .releaseAll fails]
      (fun s => s.released = true ∧ s.held = [.key 38]) (by decide)
    refine ⟨s, run, released, held, fun h => ?_⟩
    cases held.symm.trans (h.released released)
  · obtain ⟨s, run, released, left⟩ := Machine.exists_reachableBy (machine .tables kernelCloses)
      Machine.Always (s := start none (.x11 1 1)) ⟨none, .x11 1 1, rfl⟩
      [.inject (keyA true) works, .replace none (.x11 1 1)]
      (fun s => s.released = true ∧ s.left = [.key 38]) (by decide)
    refine ⟨s, run, released, left, fun h => ?_⟩
    cases left.symm.trans h.left

end InjectorSlot
end ReachMyDevice
