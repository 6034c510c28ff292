import ReachMyDevice.HostTurns
import ReachMyDevice.VideoGate

/-!
# The picture that is shown and the pointer that is moved

Pointer positions are relative to the picture. The session maps them through the zoom
rectangle; the plane crops the frames.
-/
namespace ReachMyDevice
open Machines ExtendedRational

/-! ## What a rectangle shows -/

namespace CropRect

/-- Where on the display the point is that a cropped picture shows at a relative position. -/
def pointAt (r : CropRect) (px py : Rat) : Option (Rat × Rat) :=
  if r.isFull then some (px, py)
  else match r.x, r.y, r.w, r.h with
    | .fin x, .fin y, .fin w, .fin h => some (x + px * w, y + py * h)
    | _, _, _, _ => none

/-- The origin is somewhere. -/
def Placed (r : CropRect) : Prop := r.x ≠ .nan ∧ r.y ≠ .nan

instance (r : CropRect) : Decidable r.Placed := inferInstanceAs (Decidable (_ ∧ _))

/-- A rectangle of numbers, smaller than the picture. -/
structure Inside (r : CropRect) (w h : Rat) : Prop where
  width : r.w = .fin w
  height : r.h = .fin h
  wide : 0 < w ∧ w ≤ 1
  high : 0 < h ∧ h ≤ 1
  smaller : w < 1 ∨ h < 1
  left : r.x = .nan ∨ ∃ x, r.x = .fin x ∧ 0 ≤ x ∧ x ≤ 1 - w
  top : r.y = .nan ∨ ∃ y, r.y = .fin y ∧ 0 ≤ y ∧ y ≤ 1 - h

theorem Inside.isFull {r : CropRect} {w h : Rat} (inside : r.Inside w h) : r.isFull = false := by
  simp only [CropRect.isFull, inside.width, inside.height]
  obtain narrow | low := inside.smaller
  · simp [Ext.ge, Ext.lt, narrow]
  · simp [Ext.ge, Ext.lt, low]

/-- A rectangle from the wire becomes the full one, or one inside the picture. -/
theorem sanitized_cases (r : CropRect) :
    r.sanitized = full ∨ ∃ w h, r.sanitized.Inside w h := by
  unfold sanitized
  dsimp only
  obtain ⟨-, nan⟩ | ⟨-, w, width, -, wide⟩ := Ext.clamp_cases r.w 0 1 zero_le_one
  · left
    rw [show r.w.clamp 0 1 = .nan from nan]
    rfl
  obtain ⟨-, nan⟩ | ⟨-, h, height, -, high⟩ := Ext.clamp_cases r.h 0 1 zero_le_one
  · left
    rw [show r.h.clamp 0 1 = .nan from nan]
    simp [Ext.gt, Ext.lt]
  rw [show r.w.clamp 0 1 = .fin w from width, show r.h.clamp 0 1 = .fin h from height]
  split
  · exact .inl rfl
  · rename_i kept
    have positive : 0 < w ∧ 0 < h := by
      by_contra flat
      rw [not_and_or, not_lt, not_lt] at flat
      apply kept
      obtain flat | flat := flat
      · simp [Ext.gt, Ext.lt, not_lt.mpr flat]
      · simp [Ext.gt, Ext.lt, not_lt.mpr flat]
    refine .inr ⟨w, h, rfl, rfl, ⟨positive.1, wide⟩, ⟨positive.2, high⟩, ?_, ?_, ?_⟩
    · by_contra whole
      simp only [not_or, not_lt] at whole
      apply kept
      simp [Ext.ge, Ext.lt, whole.1, whole.2]
    · obtain ⟨-, nan⟩ | ⟨-, x, left, bounds⟩ :=
        Ext.clamp_cases r.x 0 (1 + -w) (by linarith)
      · exact .inl nan
      · exact .inr ⟨x, left, bounds.1, by linarith [bounds.2]⟩
    · obtain ⟨-, nan⟩ | ⟨-, y, top, bounds⟩ :=
        Ext.clamp_cases r.y 0 (1 + -h) (by linarith)
      · exact .inl nan
      · exact .inr ⟨y, top, bounds.1, by linarith [bounds.2]⟩

/-- A rectangle inside the picture is left as it is. -/
theorem Inside.sanitized {r : CropRect} {w h : Rat} (inside : r.Inside w h) :
    r.sanitized = r := by
  obtain ⟨x, y, w', h'⟩ := r
  obtain ⟨rfl, rfl, wide, high, smaller, left, top⟩ := inside
  have width : (Ext.fin w).clamp 0 1 = .fin w := Ext.clamp_of_mem wide.1.le wide.2
  have height : (Ext.fin h).clamp 0 1 = .fin h := Ext.clamp_of_mem high.1.le high.2
  have origin : ∀ {v : Ext} {size : Rat}, v = .nan ∨ (∃ q, v = .fin q ∧ 0 ≤ q ∧ q ≤ 1 - size) →
      v.clamp 0 (.sub 1 (.fin size)) = v := by
    intro v size place
    obtain rfl | ⟨q, rfl, low, below⟩ := place
    · rfl
    · exact Ext.clamp_of_mem low (by linarith)
  have kept : (!((Ext.fin w).gt 0 && (Ext.fin h).gt 0) || ((Ext.fin w).ge 1 && (Ext.fin h).ge 1)) =
      false := by
    have positive : (Ext.fin w).gt 0 = true ∧ (Ext.fin h).gt 0 = true :=
      ⟨decide_eq_true wide.1, decide_eq_true high.1⟩
    rw [positive.1, positive.2]
    obtain narrow | low := smaller
    · simp [Ext.ge, Ext.lt, narrow]
    · simp [Ext.ge, Ext.lt, low]
  simp only [CropRect.sanitized, width, height, kept, Bool.false_eq_true, if_false, origin left,
    origin top]

theorem sanitized_sanitized (r : CropRect) : r.sanitized.sanitized = r.sanitized := by
  obtain whole | ⟨w, h, inside⟩ := r.sanitized_cases
  · rw [whole]
    rfl
  · exact inside.sanitized

theorem Placed.of_full : full.Placed := ⟨nofun, nofun⟩

/-- A position that is mapped through a rectangle is where the rectangle shows it. -/
theorem remap_pointAt {r : CropRect} {px py x y : Rat} (shown : r.pointAt px py = some (x, y)) :
    r.remap (.mouseMove { x := .fin px, y := .fin py }) =
        .mouseMove { x := .fin x, y := .fin y } ∧
      ∀ b : MouseButton, r.remap (.mouseButton { b with x := .fin px, y := .fin py }) =
        .mouseButton { b with x := .fin x, y := .fin y } := by
  unfold pointAt at shown
  unfold remap
  split at shown
  · rename_i whole
    cases shown
    simp only [whole, if_true, true_and, implies_true]
  · rename_i part
    split at shown
    · rename_i left top width height
      cases shown
      simp only [part, Bool.false_eq_true, if_false, left, top, width, height, Ext.add, Ext.mul,
        true_and, implies_true]
    · cases shown

/-- Only an origin that is nowhere leaves a position without a place. -/
theorem pointAt_sanitized (r : CropRect) (px py : Rat) :
    (∃ x y, r.sanitized.pointAt px py = some (x, y)) ↔ r.sanitized.Placed := by
  obtain whole | ⟨w, h, inside⟩ := r.sanitized_cases
  · rw [whole]
    constructor
    · exact fun _ => .of_full
    · exact fun _ => ⟨px, py, rfl⟩
  · simp only [pointAt, inside.isFull, Bool.false_eq_true, if_false, inside.width, inside.height]
    constructor
    · rintro ⟨x, y, shown⟩
      split at shown
      · rename_i left top _ _
        rw [Placed, left, top]
        exact ⟨nofun, nofun⟩
      · cases shown
    · intro placed
      obtain ⟨x, left, -⟩ := inside.left.resolve_left placed.1
      obtain ⟨y, top, -⟩ := inside.top.resolve_left placed.2
      exact ⟨x + px * w, y + py * h, by rw [left, top]⟩

end CropRect

/-! ## What a plane shows -/

namespace VideoPlane

/-- How a frame is cropped that the plane takes now. No one tells an agent of a zoom. -/
def crop (zoom : CropRect) : VideoPlane → CropRect
  | .inProcess _ => zoom.sanitized
  | .broker _ => .full

/-- The frames that are being encoded. -/
def encodings : VideoPlane → List Encoding
  | .inProcess p => p.encoding.toList
  | .broker b => b.conns.filterMap (·.agent.pipeline.encoding)

@[simp] theorem isBroker_call (started : Bool) (p : VideoPlane) (c : VideoCall) :
    (p.call started c).isBroker = p.isBroker := by
  cases p <;> cases c <;> rfl

theorem isBroker_calls (started : Bool) (p : VideoPlane) (effects : List HostEffect) :
    (p.calls started effects).isBroker = p.isBroker := by
  induction effects generalizing p with
  | nil => rfl
  | cons e effects ih =>
      cases e with
      | video c => exact (ih (p.call started c)).trans (isBroker_call started p c)
      | _ => exact ih p

theorem isBroker_step {greeters : List Nat} {authorized : Bool} {zoom : CropRect}
    {p p' : VideoPlane} {l : PlaneLabel} {frames : List VideoFrame}
    (taken : p.step greeters authorized zoom l = some (p', frames)) : p'.isBroker = p.isBroker := by
  cases p with
  | inProcess p =>
      cases l with
      | broker l => cases taken
      | inProcess l =>
          obtain ⟨r, -, same⟩ := Option.map_eq_some_iff.mp taken
          cases same
          rfl
  | broker b =>
      cases l with
      | inProcess l => cases taken
      | broker l =>
          obtain ⟨r, -, same⟩ := Option.map_eq_some_iff.mp taken
          cases same
          rfl

theorem isBroker_pollGeometryChanged {p p' : VideoPlane} {rect : Option MonitorRect}
    (changed : p.pollGeometryChanged = some (rect, p')) : p'.isBroker = p.isBroker := by
  cases p with
  | inProcess p => cases changed
  | broker b =>
      obtain ⟨-, same⟩ := Option.ite_none_right_eq_some.mp changed
      cases same
      rfl

/-- A pipeline crops the frames it takes with the rectangle it finds. -/
theorem pipeline_crop {gate : Bool} {zoom : CropRect} {p p' : Pipeline} {l : PipelineLabel}
    {frames : List VideoFrame} (taken : p.step gate zoom l = some (p', frames)) {e : Encoding}
    (after : p'.encoding = some e) : p.encoding = some e ∨ e.crop = zoom := by
  cases l with
  | captured frame =>
      obtain ⟨-, same⟩ := Option.ite_none_right_eq_some.mp taken
      cases same
      exact .inl after
  | ended =>
      obtain ⟨-, same⟩ := Option.ite_none_right_eq_some.mp taken
      cases same
      exact .inl after
  | take =>
      simp only [Pipeline.step] at taken
      split at taken
      · rename_i empty newest
        split at taken
        · cases taken
          cases after
          exact .inr rfl
        · cases taken
          exact .inl after
      · cases taken
  | encoded made =>
      simp only [Pipeline.step] at taken
      split at taken
      · cases taken
      · cases taken
        cases after

/-- No connection has a new frame in its encoder, or it is cropped with the full rectangle. -/
def EncodesFull (conns conns' : List AgentConn) : Prop :=
  ∀ c' ∈ conns', ∀ e, c'.agent.pipeline.encoding = some e →
    (∃ c ∈ conns, c.agent.pipeline.encoding = some e) ∨ e.crop = .full

theorem EncodesFull.refl (conns : List AgentConn) : EncodesFull conns conns :=
  fun c' member _ encodes => .inl ⟨c', member, encodes⟩

theorem EncodesFull.set {conns : List AgentConn} {id : Nat} {c c' : AgentConn}
    (here : conns[id]? = some c)
    (kept : ∀ e, c'.agent.pipeline.encoding = some e →
      c.agent.pipeline.encoding = some e ∨ e.crop = .full) :
    EncodesFull conns (conns.set id c') := by
  intro d member e encodes
  obtain old | rfl := List.mem_or_eq_of_mem_set member
  · exact .inl ⟨d, old, encodes⟩
  · exact (kept e encodes).imp_left fun before => ⟨c, List.mem_of_getElem? here, before⟩

theorem EncodesFull.sendActive (b : Broker) (msgs : List BrokerMsg) :
    EncodesFull b.conns (b.sendActive msgs).conns := by
  unfold Broker.sendActive
  split
  · exact .refl _
  · unfold Broker.sendTo
    split
    · exact .refl _
    · rename_i c here
      refine .set here fun e encodes => .inl ?_
      unfold AgentConn.send at encodes
      split at encodes <;> exact encodes

theorem agentStep_encodes {c c' : AgentConn} {l : AgentLabel} (taken : c.agentStep l = some c')
    {e : Encoding} (encodes : c'.agent.pipeline.encoding = some e) :
    c.agent.pipeline.encoding = some e ∨ e.crop = .full := by
  obtain ⟨-, turns⟩ := AgentConn.agentStep_cases taken
  cases turns with
  | @receive msg => cases msg <;> exact .inl encodes
  | control | hotplug => exact .inl encodes
  | pipeline stepped => exact pipeline_crop stepped encodes
  | stop => cases encodes

theorem broker_encodes {greeters : List Nat} {b b' : Broker} {l : BrokerLabel}
    {frames : List VideoFrame} (taken : b.step greeters l = some (b', frames)) :
    EncodesFull b.conns b'.conns := by
  have found := Broker.step_cases taken
  cases found with
  | accepted =>
      intro c member e encodes
      obtain old | new := List.mem_append.mp member
      · exact .inl ⟨c, old, encodes⟩
      · cases List.mem_singleton.mp new
        cases encodes
  | refused => exact .refl _
  | @event ev rest =>
      cases ev with
      | hello id monitorRect displays =>
          simp only [Broker.onEvent, Broker.onHello]
          split
          · split
            · exact EncodesFull.sendActive { b with
                events := rest
                pending := b.pending.filter (· ≠ id), activeId := some id, active := some id
                shared := { b.shared with displays, monitorRect }.bump } _
            · exact .refl _
          · exact .refl _
      | displays id displays =>
          simp only [Broker.onEvent, Broker.onDisplays]
          split <;> exact .refl _
      | closed id =>
          simp only [Broker.onEvent, Broker.onClosed]
          split <;> exact .refl _
  | @command cmd rest =>
      cases cmd with
      | setCapturing on => exact EncodesFull.sendActive { b with cmds := rest, capturing := on } _
      | select id => exact EncodesFull.sendActive { b with cmds := rest } _
      | setShowCursor visible => exact EncodesFull.sendActive { b with cmds := rest } _
      | keyframe => exact EncodesFull.sendActive { b with cmds := rest } _
  | ticked => exact .sendActive b _
  | skipped => exact .refl _
  | hello here | displays here | video here | failed here =>
      exact .set here fun e encodes => .inl encodes
  | turned here turned => exact .set here fun e encodes => agentStep_encodes turned encodes

/-- Every frame that enters an encoder is cropped as the plane crops now. -/
theorem step_encodings {greeters : List Nat} {authorized : Bool} {zoom : CropRect}
    {p p' : VideoPlane} {l : PlaneLabel} {frames : List VideoFrame}
    (taken : p.step greeters authorized zoom l = some (p', frames)) {e : Encoding}
    (after : e ∈ p'.encodings) : e ∈ p.encodings ∨ e.crop.sanitized = p.crop zoom := by
  cases p with
  | inProcess p =>
      cases l with
      | broker l => cases taken
      | inProcess l =>
          obtain ⟨r, stepped, same⟩ := Option.map_eq_some_iff.mp taken
          cases same
          refine (pipeline_crop stepped (Option.mem_toList.mp after)).imp Option.mem_toList.mpr ?_
          intro crop
          rw [crop]
          rfl
  | broker b =>
      cases l with
      | inProcess l => cases taken
      | broker l =>
          obtain ⟨r, stepped, same⟩ := Option.map_eq_some_iff.mp taken
          cases same
          obtain ⟨c', member, encodes⟩ := List.mem_filterMap.mp after
          refine (broker_encodes stepped c' member e encodes).imp (fun before => ?_) fun crop => ?_
          · obtain ⟨c, old, before⟩ := before
            exact List.mem_filterMap.mpr ⟨c, old, before⟩
          · rw [crop]
            rfl

end VideoPlane

/-! ## Runs -/

namespace VideoHost
variable {J D H : Type} {s s' : VideoHost J D H}

def zoom (s : VideoHost J D H) : CropRect := s.host.session.zoom

/-- Positions are mapped through the rectangle that the frames are cropped with, to where on the
display it shows them. -/
structure PictureCoherent (greeters : List Nat) (s : VideoHost J D H) : Prop where
  crop : s.zoom.sanitized = s.plane.crop s.zoom
  frames : ∀ l plane' frames,
    s.plane.step greeters s.host.session.authorized s.zoom l = some (plane', frames) →
      ∀ e ∈ plane'.encodings, e ∈ s.plane.encodings ∨ e.crop.sanitized = s.zoom.sanitized
  point : ∀ px py : Rat, 0 ≤ px → px ≤ 1 → 0 ≤ py → py ≤ 1 → ∃ x y,
    (s.plane.crop s.zoom).pointAt px py = some (x, y) ∧
      s.zoom.sanitized.remap (.mouseMove { x := .fin px, y := .fin py }) =
        .mouseMove { x := .fin x, y := .fin y } ∧
      ∀ b : MouseButton,
        s.zoom.sanitized.remap (.mouseButton { b with x := .fin px, y := .fin py }) =
          .mouseButton { b with x := .fin x, y := .fin y }

/-- The zoom has a place, and is the full rectangle where nobody crops. -/
def Framed (s : VideoHost J D H) : Prop :=
  s.zoom.sanitized.Placed ∧ (s.plane.isBroker = true → s.zoom.sanitized = .full)

/-- A rectangle that a message sets has a place, and is the full one where nobody crops. -/
def ZoomsFramed (s : VideoHost J D H) : VideoLabel J → Prop
  | .handle _ _ =>
    match s.host.link.events with
    | [] => True
    | (_, ev) :: _ => ∀ rect ∈ s.host.session.zoomed ev,
      rect.Placed ∧ (s.plane.isBroker = true → rect = .full)
  | _ => True

instance (s : VideoHost J D H) : ∀ l, Decidable (s.ZoomsFramed l)
  | .handle _ _ =>
    match queue : s.host.link.events with
    | [] => .isTrue (by simp only [ZoomsFramed, queue])
    | (_, ev) :: _ =>
      decidable_of_iff (∀ rect ∈ s.host.session.zoomed ev,
        rect.Placed ∧ (s.plane.isBroker = true → rect = .full)) (by simp only [ZoomsFramed, queue])
  | .signal _ | .peerSwitched | .send _ | .driver _ | .pollGeometry _ | .plane _ => .isTrue trivial

theorem coherent_iff {greeters : List Nat} :
    s.PictureCoherent greeters ↔ s.Framed := by
  constructor
  · intro coherent
    refine ⟨?_, fun broker => ?_⟩
    · obtain ⟨x, y, shown, -⟩ := coherent.point 0 0 (le_refl 0) zero_le_one (le_refl 0) zero_le_one
      rw [← coherent.crop] at shown
      exact (CropRect.pointAt_sanitized _ 0 0).mp ⟨x, y, shown⟩
    · rw [coherent.crop]
      cases plane : s.plane with
      | inProcess p =>
          rw [plane] at broker
          cases broker
      | broker b => rfl
  · rintro ⟨placed, whole⟩
    have crop : s.zoom.sanitized = s.plane.crop s.zoom := by
      cases plane : s.plane with
      | inProcess p => rfl
      | broker b => exact whole (by rw [plane]; rfl)
    refine ⟨crop, fun l plane' frames taken e after => ?_, fun px py _ _ _ _ => ?_⟩
    · rw [crop]
      exact VideoPlane.step_encodings taken after
    · obtain ⟨x, y, shown⟩ := (CropRect.pointAt_sanitized s.zoom px py).mpr placed
      exact ⟨x, y, crop ▸ shown, CropRect.remap_pointAt shown⟩

variable [DecidableEq J] {env : HostEnv D H} {rtc : Rtc J} {greeters : List Nat}

theorem framed_step {l : VideoLabel J} (h : s.Framed)
    (taken : VideoHost.step env rtc greeters s l = some s') : s'.Framed ↔ s.ZoomsFramed l := by
  have same : s'.zoom = s.zoom → s'.plane.isBroker = s.plane.isBroker → s'.Framed := by
    intro zoom plane
    rw [Framed, zoom, plane]
    exact h
  cases l with
  | signal msg =>
      cases taken
      exact iff_of_true (same rfl rfl) trivial
  | peerSwitched =>
      cases taken
      exact iff_of_true (same rfl rfl) trivial
  | send e =>
      cases taken
      exact iff_of_true (same rfl rfl) trivial
  | driver l =>
      obtain ⟨k, -, rfl⟩ := Option.map_eq_some_iff.mp taken
      exact iff_of_true (same rfl rfl) trivial
  | pollGeometry built =>
      obtain ⟨⟨rect, plane⟩, changed, rfl⟩ := Option.map_eq_some_iff.mp taken
      exact iff_of_true (same rfl (VideoPlane.isBroker_pollGeometryChanged changed)) trivial
  | plane l =>
      obtain ⟨⟨plane, frames⟩, stepped, rfl⟩ := Option.map_eq_some_iff.mp taken
      exact iff_of_true (same rfl (VideoPlane.isBroker_step stepped)) trivial
  | handle r started =>
      simp only [VideoHost.step] at taken
      split at taken
      · cases taken
      · rename_i pc ev rest queue
        obtain ⟨-, eq⟩ := Option.ite_none_right_eq_some.mp taken
        cases eq
        have zoom : (s.handled env rtc r started pc ev rest).zoom =
            (s.host.session.zoomed ev).getD s.zoom := HostSession.onEvent_zoom env rtc.sdp _ r ev
        have plane : (s.handled env rtc r started pc ev rest).plane.isBroker = s.plane.isBroker :=
          VideoPlane.isBroker_calls ..
        simp only [ZoomsFramed, queue]
        cases asked : s.host.session.zoomed ev with
        | none =>
            rw [asked] at zoom
            refine iff_of_true (same zoom plane) fun rect set_ => ?_
            cases set_
        | some rect =>
            have kept : rect.sanitized = rect := by
              unfold HostSession.zoomed at asked
              split at asked
              · split at asked
                · obtain ⟨z, -, rfl⟩ := Option.map_eq_some_iff.mp asked
                  exact CropRect.sanitized_sanitized _
                · cases asked
              · cases asked
            rw [asked, Option.getD_some] at zoom
            rw [Framed, zoom, plane, kept]
            simp only [Option.mem_def, Option.some.injEq, forall_eq']

end VideoHost
end ReachMyDevice
