import ReachMyDevice.InjectorBooks

/-!
# The controls of one event

Which keys and buttons an event presses and lets go of, for each backend, by the
event and the calls of the system that succeed.
-/
namespace ReachMyDevice

namespace X11Injector

/-- The wheel clicks that are whole, from the call `k` on, and the one that is broken off. -/
def clicked (ok : Nat → Bool) : Nat → List Nat → List Nat × Option Nat
  | _, [] => ([], none)
  | k, n :: rest =>
    if !ok k then ([], none)
    else if !ok (k + 1) then ([], some n)
    else (n :: (clicked ok (k + 2) rest).1, (clicked ok (k + 2) rest).2)

theorem mem_heldAfter_clicks {held : List Control} {c : Control} (ok : Nat → Bool)
    (numbers : List Nat) (k : Nat) :
    c ∈ heldAfter held ((((numbers.flatMap click).zipIdx k).takeWhile fun e => ok e.2).map
        Prod.fst) ↔
      (∃ n, (clicked ok k numbers).2 = some n ∧ c = .button n) ∨
        c ∈ held ∧ ∀ n ∈ (clicked ok k numbers).1, c ≠ .button n := by
  induction numbers generalizing k held with
  | nil => simp [clicked, heldAfter_nil]
  | cons n rest ih =>
      simp only [click, List.flatMap_cons, List.cons_append, List.nil_append, List.zipIdx_cons]
      cases first : ok k with
      | false => simp [clicked, first, heldAfter_nil]
      | true =>
          cases second : ok (k + 1) with
          | false =>
              simp [clicked, first, second, heldAfter_press, heldAfter_nil]
          | true =>
              simp only [List.takeWhile_cons, first, second, if_true, List.map_cons,
                heldAfter_press, heldAfter_release]
              rw [ih (k + 2)]
              simp only [clicked, first, second, Bool.not_true, Bool.false_eq_true, if_false,
                List.mem_filter, List.mem_insert_iff, decide_eq_true_eq, List.forall_mem_cons]
              grind

end X11Injector

namespace Injector

/-- The control that an event presses or releases. -/
def edge (keymap : Keymap) : Injector → InputEvent → Option (Control × Bool)
  | .uinput _, .mouseButton b => some (.key (UinputInjector.buttonCode b.button), b.pressed)
  | .uinput _, .key k => (keymap.hidToEvdev k.hidUsage).map fun code => (.key code, k.pressed)
  | .x11 _, .mouseButton b => some (.button (X11Injector.buttonNumber b.button), b.pressed)
  | .x11 _, .key k => (keymap.hidToXKeycode k.hidUsage).map fun code => (.key code, k.pressed)
  | .mac _, .mouseButton b => some (.button (MacInjector.buttonNumber b.button), b.pressed)
  | .mac _, .key k => (keymap.hidToMacos k.hidUsage).map fun code => (.key code, k.pressed)
  | _, _ => none

/-- The system takes it. On X11 the pointer is moved before a button. -/
def posts (ok : Nat → Bool) : Injector → InputEvent → Bool
  | .x11 _, .mouseButton _ => ok 0 && ok 1
  | _, _ => ok 0

/-- The wheel buttons that an event clicks. -/
def clicks : Injector → InputEvent → List Nat
  | .x11 _, .mouseScroll w => X11Injector.wheelClicks w
  | _, _ => []

def Presses (keymap : Keymap) (ok : Nat → Bool) (i : Injector) (ev : InputEvent) (c : Control) :
    Prop :=
  (i.edge keymap ev = some (c, true) ∧ i.posts ok ev = true) ∨
    ∃ n, (X11Injector.clicked ok 0 (i.clicks ev)).2 = some n ∧ c = .button n

def LetsGo (keymap : Keymap) (ok : Nat → Bool) (i : Injector) (ev : InputEvent) (c : Control) :
    Prop :=
  (i.edge keymap ev = some (c, false) ∧ i.posts ok ev = true) ∨
    ∃ n ∈ (X11Injector.clicked ok 0 (i.clicks ev)).1, c = .button n

variable {keymap : Keymap} {held : List Control} {c : Control}

theorem mem_heldAfter_edge {ev : OsEvent} {d : Control} {down : Bool}
    (edge : ev.edge = some (d, down)) (posted : Bool) :
    c ∈ heldAfter held (if posted then [ev] else []) ↔
      ((d, down) = (c, true) ∧ posted = true) ∨
        c ∈ held ∧ ¬((d, down) = (c, false) ∧ posted = true) := by
  cases posted with
  | false => simp [heldAfter_nil]
  | true =>
      rw [if_pos rfl, heldAfter_edge held edge, heldAfter_nil]
      cases down with
      | true => simp [List.mem_insert_iff, eq_comm (a := c)]
      | false => simp [eq_comm (a := c)]

/-- An event with one edge and no clicks. -/
theorem mem_heldAfter_of_edge {i : Injector} {ok : Nat → Bool} {ev : InputEvent} (os : OsEvent)
    {posted : List OsEvent} {d : Control} {down : Bool} (edge : i.edge keymap ev = some (d, down))
    (here : os.edge = some (d, down)) (noClick : i.clicks ev = [])
    (same : heldAfter held posted = heldAfter held (if i.posts ok ev then [os] else [])) :
    c ∈ heldAfter held posted ↔
      i.Presses keymap ok ev c ∨ c ∈ held ∧ ¬ i.LetsGo keymap ok ev c := by
  rw [same, mem_heldAfter_edge here, Presses, LetsGo, edge, noClick]
  simp [X11Injector.clicked]

/-- An event without an edge. -/
theorem mem_heldAfter_of_silent {i : Injector} {ok : Nat → Bool} {ev : InputEvent}
    {posted : List OsEvent} (edge : i.edge keymap ev = none) (noClick : i.clicks ev = [])
    (silent : ∀ os ∈ posted, os.edge = none) :
    c ∈ heldAfter held posted ↔
      i.Presses keymap ok ev c ∨ c ∈ held ∧ ¬ i.LetsGo keymap ok ev c := by
  rw [heldAfter_all_silent held silent, Presses, LetsGo, edge, noClick]
  simp [X11Injector.clicked]

theorem uinput_mem_heldAfter (s : UinputInjector) (ok : Nat → Bool) (ev : InputEvent) :
    c ∈ heldAfter held ((uinput s).inject keymap ok ev).2 ↔
      (uinput s).Presses keymap ok ev c ∨ c ∈ held ∧ ¬ (uinput s).LetsGo keymap ok ev c := by
  cases ev with
  | mouseMove m =>
      refine mem_heldAfter_of_silent rfl rfl fun os member => ?_
      simp only [inject, UinputInjector.inject] at member
      split at member
      · cases member
      · split at member
        · cases List.mem_singleton.mp member
          rfl
        · cases member
  | mouseButton b =>
      refine mem_heldAfter_of_edge
        (keyEdge (UinputInjector.buttonCode b.button) b.pressed) rfl (keyEdge_edge _ _) rfl ?_
      simp only [inject, UinputInjector.inject, Prod.map, id_eq, posts]
      by_cases works : ok 0 = true
      · simp [works, heldAfter_absolute]
      · simp [works]
  | mouseScroll w =>
      refine mem_heldAfter_of_silent rfl rfl fun os member => ?_
      simp only [inject, UinputInjector.inject, Prod.map, id_eq] at member
      split at member
      · simp only [UinputInjector.wheel, List.mem_append] at member
        rcases member with here | here <;>
          (split at here
           · cases here
           · cases List.mem_singleton.mp here
             rfl)
      · cases member
  | key k =>
      cases mapped : keymap.hidToEvdev k.hidUsage with
      | none =>
          have none_ : (uinput s).edge keymap (.key k) = none := by simp [edge, mapped]
          refine mem_heldAfter_of_silent none_ rfl fun os member => ?_
          simp [inject, UinputInjector.inject, mapped] at member
      | some code =>
          refine mem_heldAfter_of_edge (keyEdge code k.pressed) ?_ (keyEdge_edge _ _) rfl ?_
          · simp [edge, mapped]
          · simp only [inject, UinputInjector.inject, mapped, Prod.map, id_eq, posts]
            rfl

theorem x11_mem_heldAfter (s : X11Injector) (ok : Nat → Bool) (ev : InputEvent) :
    c ∈ heldAfter held ((x11 s).inject keymap ok ev).2 ↔
      (x11 s).Presses keymap ok ev c ∨ c ∈ held ∧ ¬ (x11 s).LetsGo keymap ok ev c := by
  cases ev with
  | mouseMove m =>
      refine mem_heldAfter_of_silent rfl rfl fun os member => ?_
      simp only [inject, X11Injector.inject, Prod.map, id_eq, calls_one] at member
      split at member
      · cases List.mem_singleton.mp member
        rfl
      · cases member
  | mouseButton b =>
      refine mem_heldAfter_of_edge (buttonEdge (X11Injector.buttonNumber b.button) b.pressed)
        rfl (buttonEdge_edge _ _) rfl ?_
      simp only [inject, X11Injector.inject, Prod.map, id_eq, calls_two, posts]
      by_cases works : ok 0 = true
      · simp [works, heldAfter_absolute]
      · simp [works]
  | mouseScroll w =>
      simp only [inject, x11_scroll, Prod.map, id_eq, Presses, LetsGo, edge, clicks,
        X11Injector.mem_heldAfter_clicks]
      simp
  | key k =>
      cases mapped : keymap.hidToXKeycode k.hidUsage with
      | none =>
          have none_ : (x11 s).edge keymap (.key k) = none := by simp [edge, mapped]
          refine mem_heldAfter_of_silent none_ rfl fun os member => ?_
          simp [inject, X11Injector.inject, mapped] at member
      | some code =>
          refine mem_heldAfter_of_edge (keyEdge code k.pressed) ?_ (keyEdge_edge _ _) rfl ?_
          · simp [edge, mapped]
          · simp only [inject, X11Injector.inject, mapped, Prod.map, id_eq, posts, calls_one]
            rfl

theorem mac_mem_heldAfter (s : MacInjector) (ok : Nat → Bool) (ev : InputEvent) :
    c ∈ heldAfter held ((mac s).inject keymap ok ev).2 ↔
      (mac s).Presses keymap ok ev c ∨ c ∈ held ∧ ¬ (mac s).LetsGo keymap ok ev c := by
  cases ev with
  | mouseMove m =>
      refine mem_heldAfter_of_silent rfl rfl fun os member => ?_
      simp only [inject, MacInjector.inject, Prod.map, id_eq] at member
      split at member
      · cases List.mem_singleton.mp member
        unfold MacInjector.moveKind
        split
        · rfl
        · split
          · rfl
          · split <;> rfl
      · cases member
  | mouseButton b =>
      refine mem_heldAfter_of_edge (.cgMouse (.button (MacInjector.buttonNumber b.button)
        b.pressed) (b.x.mul s.width) (b.y.mul s.height)) rfl rfl rfl ?_
      simp only [inject, MacInjector.inject, Prod.map, id_eq, posts]
      rfl
  | mouseScroll w =>
      refine mem_heldAfter_of_silent rfl rfl fun os member => ?_
      simp only [inject, MacInjector.inject, Prod.map, id_eq] at member
      split at member
      · cases List.mem_singleton.mp member
        rfl
      · cases member
  | key k =>
      cases mapped : keymap.hidToMacos k.hidUsage with
      | none =>
          have none_ : (mac s).edge keymap (.key k) = none := by simp [edge, mapped]
          refine mem_heldAfter_of_silent none_ rfl fun os member => ?_
          simp [inject, MacInjector.inject, mapped] at member
      | some code =>
          refine mem_heldAfter_of_edge
            (.cgKey code k.pressed (MacInjector.cgFlags k.modifiers)) ?_ rfl rfl ?_
          · simp [edge, mapped]
          · simp only [inject, MacInjector.inject, mapped, Prod.map, id_eq, posts]
            rfl

/-- What is down after an event: what it presses, and what it does not let go of. -/
theorem mem_heldAfter_inject (i : Injector) (ok : Nat → Bool) (ev : InputEvent) :
    c ∈ heldAfter held (i.inject keymap ok ev).2 ↔
      i.Presses keymap ok ev c ∨ c ∈ held ∧ ¬ i.LetsGo keymap ok ev c := by
  cases i with
  | uinput s => exact uinput_mem_heldAfter s ok ev
  | x11 s => exact x11_mem_heldAfter s ok ev
  | mac s => exact mac_mem_heldAfter s ok ev

end Injector

end ReachMyDevice
