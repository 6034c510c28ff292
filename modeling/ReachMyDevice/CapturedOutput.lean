import Mathlib.Tactic.Linarith
import ReachMyDevice.Input

/-!
# The captured output under GNOME

Two functions read the same display configuration: one names the connector that
is recorded, the other says where the captured output lies on the desktop. The
pointer is mapped by the second.
-/
namespace ReachMyDevice
namespace Mutter
open ExtendedRational

structure MonId where
  connector : String
  vendor : String
  product : String
  serial : String
  deriving DecidableEq, Repr

/-- `isCurrent` is the boolean `is-current` of the properties, false where there is none. -/
structure Mode where
  width : Int
  height : Int
  isCurrent : Bool
  deriving DecidableEq, Repr

structure Monitor where
  id : MonId
  modes : List Mode
  deriving DecidableEq, Repr

/-- More than one monitor shows the same where outputs are mirrored. -/
structure Logical where
  x : Int
  y : Int
  scale : F64
  transform : Nat
  primary : Bool
  ids : List MonId
  deriving DecidableEq, Repr

/-- What `GetCurrentState` answers, as far as it is read. -/
structure DisplayState where
  monitors : List Monitor
  logicals : List Logical
  deriving DecidableEq, Repr

/-- `RMD_MONITOR_CONNECTOR`, unless it is empty. -/
def override (var : Option String) : Option String := var.filter (· ≠ "")

/-- `state` is none when the query fails. -/
def primaryConnector (var : Option String) (state : Option DisplayState) : Option String :=
  match override var with
  | some c => some c
  | none =>
    state.bind fun state =>
      match (state.logicals.find? (·.primary)).bind (·.ids.head?) with
      | some id => some id.connector
      | none => state.monitors.head?.map (·.id.connector)

structure LRect where
  x : F64
  y : F64
  w : F64
  h : F64
  primary : Bool
  connector : Option String
  deriving DecidableEq, Repr

/-- The pixel size of a monitor's current mode, else of its first. -/
def modePx (state : DisplayState) (monId : MonId) : Option (F64 × F64) :=
  (state.monitors.find? (·.id = monId)).bind fun m =>
    ((m.modes.find? (·.isCurrent)).or m.modes.head?).map fun cur =>
      (.fin cur.width, .fin cur.height)

/-- A rotation by 90° or 270° swaps the axes. -/
def lrect (state : DisplayState) (l : Logical) : LRect :=
  let px := (l.ids.head?.bind (modePx state)).getD (.fin 0, .fin 0)
  let w := px.1.div l.scale
  let h := px.2.div l.scale
  let swapped := l.transform ∈ [1, 3, 5, 7]
  { x := .fin l.x
    y := .fin l.y
    w := if swapped then h else w
    h := if swapped then w else h
    primary := l.primary
    connector := l.ids.head?.map (·.connector) }

/-- `f64::min`: what is not a number gives way. -/
def f64Min (a b : F64) : F64 :=
  if a = .nan then b else if b = .nan then a else if b.lt a then b else a

def f64Max (a b : F64) : F64 :=
  if a = .nan then b else if b = .nan then a else if a.lt b then b else a

/-- The smallest and the largest corner of the rectangles. -/
structure Desktop where
  minX : F64
  minY : F64
  maxX : F64
  maxY : F64
  deriving DecidableEq, Repr

def desktop (rects : List LRect) : Desktop where
  minX := (rects.map (·.x)).foldl f64Min .posInf
  minY := (rects.map (·.y)).foldl f64Min .posInf
  maxX := (rects.map fun r => r.x.add r.w).foldl f64Max .negInf
  maxY := (rects.map fun r => r.y.add r.h).foldl f64Max .negInf

def Desktop.dw (d : Desktop) : F64 := d.maxX.sub d.minX
def Desktop.dh (d : Desktop) : F64 := d.maxY.sub d.minY

/-- The place of a rectangle on the desktop. -/
def Desktop.place (d : Desktop) (target : LRect) : MonitorRect where
  ox := target.x.sub d.minX
  oy := target.y.sub d.minY
  mw := target.w
  mh := target.h
  dw := d.dw
  dh := d.dh

/-- The override, the primary logical monitor, the first. -/
def target (var : Option String) (rects : List LRect) : Option LRect :=
  ((override var).bind fun w => rects.find? (·.connector = some w)).or
    ((rects.find? (·.primary)).or rects.head?)

def computeMonitorRect (var : Option String) (state : Option DisplayState) : Option MonitorRect :=
  state.bind fun state =>
    let rects := state.logicals.map (lrect state)
    let d := desktop rects
    if state.logicals = [] then none
    else if !(d.dw.isFinite && d.dh.isFinite && d.dw.gt 0 && d.dh.gt 0) then none
    else
      (target var rects).bind fun target =>
        if !(target.w.gt 0 && target.h.gt 0) then none else some (d.place target)

/-! ## What is asked of the two -/

/-- The scales of the configuration are numbers above zero. -/
def PositiveScales (state : DisplayState) : Prop :=
  ∀ l ∈ state.logicals, ∃ q : Rat, 0 < q ∧ l.scale = .fin q

/-- The logical monitor shows the output at this connector. -/
def Logical.Shows (l : Logical) (c : String) : Prop := c ∈ l.ids.map (·.connector)

/-- The rectangle is that of a logical monitor that shows the connector. -/
def IsOutput (state : DisplayState) (c : String) (r : MonitorRect) : Prop :=
  ∃ l ∈ state.logicals, l.Shows c ∧
    r = (desktop (state.logicals.map (lrect state))).place (lrect state l)

/-- The stretch from `o` of length `m` lies inside one of length `d`. -/
def InsideAxis (o m d : F64) : Prop :=
  ∃ o' m' d' : Rat, o = .fin o' ∧ m = .fin m' ∧ d = .fin d' ∧ 0 ≤ o' ∧ o' + m' ≤ d'

/-- The axis value is the whole part of a place inside the stretch. -/
def OnStretch (o m d : F64) (v : Int) : Prop :=
  ∃ o' m' d' p : Rat, o = .fin o' ∧ m = .fin m' ∧ d = .fin d' ∧ o' ≤ p ∧ p ≤ o' + m' ∧
    v = ⌊p / d' * absMax⌋

/-- Every point of the output is mapped to a place inside the rectangle. -/
def MapsInto (r : MonitorRect) : Prop :=
  ∀ (s : UinputInjector), s.rect = some r → ∀ x y : Rat, 0 ≤ x → x ≤ 1 → 0 ≤ y → y ≤ 1 →
    ∃ ax ay, s.map (.fin x) (.fin y) = some (ax, ay) ∧
      OnStretch r.ox r.mw r.dw ax ∧ OnStretch r.oy r.mh r.dh ay

structure OutputAgrees (state : DisplayState) (c : String) (r : MonitorRect) : Prop where
  output : IsOutput state c r
  insideX : InsideAxis r.ox r.mw r.dw
  insideY : InsideAxis r.oy r.mh r.dh
  mapped : MapsInto r

def SamePlace (a b : LRect) : Prop := a.x = b.x ∧ a.y = b.y ∧ a.w = b.w ∧ a.h = b.h

/-- The logical monitor lies where one that shows the connector does. -/
def ShownAt (state : DisplayState) (c : String) (l : Logical) : Prop :=
  ∃ l' ∈ state.logicals, l'.Shows c ∧ SamePlace (lrect state l) (lrect state l')

/-- The override names the first output of a logical monitor, or a monitor is primary and there is
no override; otherwise the monitor that is fallen back to lies where the connector is shown. -/
def Coherent (var : Option String) (state : DisplayState) : Prop :=
  match override var with
  | some w => (∃ l ∈ state.logicals, l.ids.head?.map (·.connector) = some w) ∨
      ∃ l, (state.logicals.find? (·.primary)).or state.logicals.head? = some l ∧ ShownAt state w l
  | none => (∃ l ∈ state.logicals, l.primary = true) ∨
      ∃ l m, state.logicals.head? = some l ∧ state.monitors.head? = some m ∧
        ShownAt state m.id.connector l

/-! ## Finite geometry -/

theorem div_fin (a : Rat) {b : Rat} (h : 0 < b) : (Ext.fin a).div (.fin b) = .fin (a / b) := by
  rw [Ext.div, if_neg h.ne']

theorem sub_fin (a b : Rat) : (Ext.fin a).sub (.fin b) = .fin (a - b) := by
  rw [sub_eq_add_neg]
  rfl

theorem lrect_fin (state : DisplayState) {l : Logical} (scale : ∃ q : Rat, 0 < q ∧ l.scale = .fin q) :
    ∃ w h : Rat, (lrect state l).w = .fin w ∧ (lrect state l).h = .fin h := by
  obtain ⟨q, pos, scale⟩ := scale
  obtain ⟨pw, ph, px⟩ : ∃ pw ph : Rat,
      (l.ids.head?.bind (modePx state)).getD (.fin 0, .fin 0) = (.fin pw, .fin ph) := by
    cases mode : l.ids.head?.bind (modePx state) with
    | none => exact ⟨0, 0, rfl⟩
    | some px =>
        obtain ⟨id, -, found⟩ := Option.bind_eq_some_iff.mp mode
        obtain ⟨m, -, found⟩ := Option.bind_eq_some_iff.mp found
        obtain ⟨cur, -, rfl⟩ := Option.map_eq_some_iff.mp found
        exact ⟨cur.width, cur.height, rfl⟩
  simp only [lrect, px, scale, div_fin _ pos]
  split
  · exact ⟨_, _, rfl, rfl⟩
  · exact ⟨_, _, rfl, rfl⟩

/-- A fold that keeps one of two numbers ends with one that bounds them all. -/
theorem foldl_fin {op : F64 → F64 → F64} {rel : Rat → Rat → Prop} (refl : ∀ a, rel a a)
    (trans : ∀ {a b c}, rel a b → rel b c → rel a c)
    (pick : ∀ a b, ∃ c, op (.fin a) (.fin b) = .fin c ∧ rel c a ∧ rel c b) (vs : List F64) (a : Rat)
    (finite : ∀ v ∈ vs, ∃ q, v = .fin q) :
    ∃ m, vs.foldl op (.fin a) = .fin m ∧ rel m a ∧ ∀ q, .fin q ∈ vs → rel m q := by
  induction vs generalizing a with
  | nil => exact ⟨a, rfl, refl a, fun q member => absurd member List.not_mem_nil⟩
  | cons v vs ih =>
      obtain ⟨b, rfl⟩ := finite v List.mem_cons_self
      obtain ⟨c, picked, left, right⟩ := pick a b
      obtain ⟨m, result, bound, rest⟩ := ih c fun v member => finite v (List.mem_cons_of_mem _ member)
      refine ⟨m, by rw [List.foldl_cons, picked, result], trans bound left, fun q member => ?_⟩
      obtain here | member := List.mem_cons.mp member
      · rw [Ext.fin.inj here]
        exact trans bound right
      · exact rest q member

theorem foldl_bound {op : F64 → F64 → F64} (rel : Rat → Rat → Prop) (refl : ∀ a, rel a a)
    (trans : ∀ {a b c}, rel a b → rel b c → rel a c)
    (pick : ∀ a b, ∃ c, op (.fin a) (.fin b) = .fin c ∧ rel c a ∧ rel c b) (start : F64)
    (absorb : ∀ q, op start (.fin q) = .fin q) (vs : List F64) (some : vs ≠ [])
    (finite : ∀ v ∈ vs, ∃ q, v = .fin q) :
    ∃ m, vs.foldl op start = .fin m ∧ ∀ q, .fin q ∈ vs → rel m q := by
  obtain ⟨v, vs, rfl⟩ := List.exists_cons_of_ne_nil some
  obtain ⟨a, rfl⟩ := finite v List.mem_cons_self
  obtain ⟨m, result, bound, rest⟩ := foldl_fin refl trans pick vs a fun v member =>
    finite v (List.mem_cons_of_mem _ member)
  refine ⟨m, by rw [List.foldl_cons, absorb, result], fun q member => ?_⟩
  obtain here | member := List.mem_cons.mp member
  · rw [Ext.fin.inj here]
    exact bound
  · exact rest q member

theorem f64Min_fin (a b : Rat) : ∃ c, f64Min (.fin a) (.fin b) = .fin c ∧ c ≤ a ∧ c ≤ b := by
  by_cases less : b < a
  · exact ⟨b, by simp [f64Min, Ext.lt, less], less.le, le_rfl⟩
  · exact ⟨a, by simp [f64Min, Ext.lt, less], le_rfl, not_lt.mp less⟩

theorem f64Max_fin (a b : Rat) : ∃ c, f64Max (.fin a) (.fin b) = .fin c ∧ a ≤ c ∧ b ≤ c := by
  by_cases less : a < b
  · exact ⟨b, by simp [f64Max, Ext.lt, less], less.le, le_rfl⟩
  · exact ⟨a, by simp [f64Max, Ext.lt, less], le_rfl, not_lt.mp less⟩

theorem axis_inside {rects : List LRect} (pos size : LRect → F64)
    (finite : ∀ r ∈ rects, ∃ p s : Rat, pos r = .fin p ∧ size r = .fin s) {t : LRect}
    (member : t ∈ rects) :
    ∃ lo p s d : Rat, (rects.map pos).foldl f64Min .posInf = .fin lo ∧ pos t = .fin p ∧
      size t = .fin s ∧
      ((rects.map fun r => (pos r).add (size r)).foldl f64Max .negInf).sub (.fin lo) = .fin d ∧
      0 ≤ p - lo ∧ p - lo + s ≤ d := by
  have some : rects ≠ [] := List.ne_nil_of_mem member
  have starts : ∀ v ∈ rects.map pos, ∃ q, v = .fin q := by
    intro v inside
    obtain ⟨r, here, rfl⟩ := List.mem_map.mp inside
    obtain ⟨p, -, eq, -⟩ := finite r here
    exact ⟨p, eq⟩
  have ends : ∀ v ∈ rects.map fun r => (pos r).add (size r), ∃ q, v = .fin q := by
    intro v inside
    obtain ⟨r, here, rfl⟩ := List.mem_map.mp inside
    obtain ⟨p, s, eq, eq'⟩ := finite r here
    exact ⟨p + s, by rw [eq, eq']; rfl⟩
  obtain ⟨lo, least, lower⟩ := foldl_bound (· ≤ ·) le_refl (fun h h' => le_trans h h') f64Min_fin
    .posInf (fun q => rfl) _ (by simpa using some) starts
  obtain ⟨hi, most, upper⟩ := foldl_bound (· ≥ ·) le_refl (fun h h' => ge_trans h h') f64Max_fin
    .negInf (fun q => rfl) _ (by simpa using some) ends
  obtain ⟨p, s, eq, eq'⟩ := finite t member
  have above := lower p (eq ▸ List.mem_map_of_mem member)
  have ending : (Ext.fin (p + s)) = (pos t).add (size t) := by
    rw [eq, eq']
    rfl
  have below := upper (p + s) (ending ▸ List.mem_map_of_mem member)
  refine ⟨lo, p, s, hi - lo, least, eq, eq', by rw [most, sub_fin], by linarith, ?_⟩
  have below' : p + s ≤ hi := below
  linarith

/-! ## The rectangle -/

/-- The logical monitor that is taken for the captured output. -/
def taken (var : Option String) (state : DisplayState) : Option Logical :=
  ((override var).bind fun w => state.logicals.find? (·.ids.head?.map (·.connector) = some w)).or
    ((state.logicals.find? (·.primary)).or state.logicals.head?)

theorem target_eq_taken (var : Option String) (state : DisplayState) :
    target var (state.logicals.map (lrect state)) = (taken var state).map (lrect state) := by
  unfold target taken
  rw [List.find?_map, List.head?_map, Option.map_or, Option.map_or]
  congr 1
  cases override var with
  | none => rfl
  | some w => exact List.find?_map

theorem taken_mem {var : Option String} {state : DisplayState} {l : Logical}
    (h : taken var state = some l) : l ∈ state.logicals := by
  obtain h | ⟨-, h⟩ := Option.or_eq_some_iff.mp h
  · obtain ⟨w, -, found⟩ := Option.bind_eq_some_iff.mp h
    exact List.mem_of_find?_eq_some found
  · obtain h | ⟨-, h⟩ := Option.or_eq_some_iff.mp h
    · exact List.mem_of_find?_eq_some h
    · exact List.mem_of_head? h

/-- What a rectangle was computed from. -/
theorem computeMonitorRect_some {var : Option String} {state : DisplayState} {r : MonitorRect}
    (h : computeMonitorRect var (some state) = some r) :
    ∃ l, taken var state = some l ∧ (lrect state l).w.gt 0 = true ∧ (lrect state l).h.gt 0 = true ∧
      r = (desktop (state.logicals.map (lrect state))).place (lrect state l) := by
  rw [computeMonitorRect, Option.bind_some] at h
  dsimp only at h
  split at h
  · cases h
  · split at h
    · cases h
    · obtain ⟨t, found, h⟩ := Option.bind_eq_some_iff.mp h
      rw [target_eq_taken] at found
      obtain ⟨l, chosen, rfl⟩ := Option.map_eq_some_iff.mp found
      split at h
      · cases h
      · rename_i sized
        rw [Bool.not_eq_true', Bool.not_eq_false, Bool.and_eq_true] at sized
        exact ⟨l, chosen, sized.1, sized.2, (Option.some.inj h).symm⟩

/-- The numbers of a rectangle. -/
structure Numbers (state : DisplayState) (t : LRect) (lx ly x y w h dw dh : Rat) : Prop where
  place : (desktop (state.logicals.map (lrect state))).place t =
    { ox := .fin (x - lx), oy := .fin (y - ly), mw := .fin w, mh := .fin h, dw := .fin dw,
      dh := .fin dh }
  left : (desktop (state.logicals.map (lrect state))).minX = .fin lx
  top : (desktop (state.logicals.map (lrect state))).minY = .fin ly
  atX : t.x = .fin x
  atY : t.y = .fin y
  wide : t.w = .fin w
  high : t.h = .fin h
  lowX : 0 ≤ x - lx
  highX : x - lx + w ≤ dw
  lowY : 0 ≤ y - ly
  highY : y - ly + h ≤ dh

theorem exists_numbers {state : DisplayState} (positive : PositiveScales state) {l : Logical}
    (member : l ∈ state.logicals) :
    ∃ lx ly x y w h dw dh, Numbers state (lrect state l) lx ly x y w h dw dh := by
  have inRects : lrect state l ∈ state.logicals.map (lrect state) := List.mem_map_of_mem member
  have finite : ∀ r ∈ state.logicals.map (lrect state),
      (∃ p s : Rat, r.x = .fin p ∧ r.w = .fin s) ∧ ∃ p s : Rat, r.y = .fin p ∧ r.h = .fin s := by
    intro r here
    obtain ⟨l', known, rfl⟩ := List.mem_map.mp here
    obtain ⟨w, h, wide, high⟩ := lrect_fin state (positive l' known)
    exact ⟨⟨l'.x, w, rfl, wide⟩, ⟨l'.y, h, rfl, high⟩⟩
  obtain ⟨lx, x, w, dw, left, atX, wide, wholeX, lowX, highX⟩ :=
    axis_inside (·.x) (·.w) (fun r here => (finite r here).1) inRects
  obtain ⟨ly, y, h, dh, top, atY, high, wholeY, lowY, highY⟩ :=
    axis_inside (·.y) (·.h) (fun r here => (finite r here).2) inRects
  refine ⟨lx, ly, x, y, w, h, dw, dh, ⟨?_, left, top, atX, atY, wide, high, lowX, highX, lowY, highY⟩⟩
  have left' : (desktop (state.logicals.map (lrect state))).minX = .fin lx := left
  have top' : (desktop (state.logicals.map (lrect state))).minY = .fin ly := top
  have dw' : (desktop (state.logicals.map (lrect state))).dw = .fin dw := by
    rw [Desktop.dw, left']
    exact wholeX
  have dh' : (desktop (state.logicals.map (lrect state))).dh = .fin dh := by
    rw [Desktop.dh, top']
    exact wholeY
  rw [Desktop.place, left', top', dw', dh', atX, atY, wide, high, sub_fin, sub_fin]

/-- Rectangles are the same where the monitors lie in the same place. -/
theorem place_eq_iff {state : DisplayState} (positive : PositiveScales state) {l l' : Logical}
    (member : l ∈ state.logicals) (member' : l' ∈ state.logicals) :
    (desktop (state.logicals.map (lrect state))).place (lrect state l) =
        (desktop (state.logicals.map (lrect state))).place (lrect state l') ↔
      SamePlace (lrect state l) (lrect state l') := by
  obtain ⟨lx, ly, x, y, w, h, dw, dh, n⟩ := exists_numbers positive member
  obtain ⟨lx', ly', x', y', w', h', dw', dh', n'⟩ := exists_numbers positive member'
  obtain rfl := Ext.fin.inj (n.left.symm.trans n'.left)
  obtain rfl := Ext.fin.inj (n.top.symm.trans n'.top)
  constructor
  · intro same
    rw [n.place, n'.place] at same
    injection same with ox oy mw mh
    refine ⟨?_, ?_, ?_, ?_⟩
    · rw [n.atX, n'.atX, sub_left_inj.mp (Ext.fin.inj ox)]
    · rw [n.atY, n'.atY, sub_left_inj.mp (Ext.fin.inj oy)]
    · rw [n.wide, n'.wide, mw]
    · rw [n.high, n'.high, mh]
  · rintro ⟨x, y, w, h⟩
    rw [Desktop.place, Desktop.place, x, y, w, h]

/-! ## The pointer -/

theorem toAxis_share {x : Rat} (left : 0 ≤ x) (right : x ≤ 1) :
    UinputInjector.toAxis (.fin x) = ⌊x * absMax⌋ := by
  have nonneg : 0 ≤ x * absMax := mul_nonneg left (by norm_num [absMax])
  have below : ⌊x * absMax⌋ ≤ absMax :=
    Int.floor_le_iff.mpr ((mul_le_of_le_one_left (by norm_num [absMax]) right).trans_lt
      (lt_add_one _))
  have clamped : (Ext.fin x).clamp 0 1 = .fin x := Ext.clamp_of_mem left right
  have product : (Ext.fin x).mul (.fin absMax) = .fin (x * absMax) := rfl
  have floor := Int.floor_nonneg.mpr nonneg
  have room : absMax ≤ 2 ^ 31 - 1 := by decide
  rw [UinputInjector.toAxis, clamped, product, Ext.toInt_floor nonneg]
  generalize ⌊x * (absMax : Rat)⌋ = v at below floor
  omega

/-- Along one axis, a place on the desktop is a share of it. -/
theorem share_mem {o m d x : Rat} (low : 0 ≤ o) (high : o + m ≤ d) (wide : 0 < d) (size : 0 ≤ m)
    (left : 0 ≤ x) (right : x ≤ 1) : 0 ≤ (o + x * m) / d ∧ (o + x * m) / d ≤ 1 := by
  have start := mul_nonneg left size
  have part := mul_le_of_le_one_left size right
  exact ⟨div_nonneg (by linarith) wide.le, (div_le_one wide).mpr (by linarith)⟩

/-- What is the same part of the desktop is so at every position. -/
theorem mapped_share {o m d o' m' d' x : Rat} (wide : 0 < d) (start : o / d = o' / d')
    (size : m / d = m' / d') (left : 0 ≤ x) (right : x ≤ 1) :
    ((Ext.fin o).add (((Ext.fin x).clamp 0 1).mul (.fin m))).div (.fin d) =
      .fin ((o' + x * m') / d') := by
  have clamped : (Ext.fin x).clamp 0 1 = .fin x := Ext.clamp_of_mem left right
  rw [clamped, show (o' + x * m') / d' = o' / d' + x * (m' / d') by ring, ← start, ← size]
  refine (div_fin (o + x * m) wide).trans ?_
  congr 1
  ring

theorem toAxis_place {o m d x : Rat} (low : 0 ≤ o) (high : o + m ≤ d) (wide : 0 < d) (size : 0 ≤ m)
    (left : 0 ≤ x) (right : x ≤ 1) :
    UinputInjector.toAxis (((Ext.fin o).add (((Ext.fin x).clamp 0 1).mul (.fin m))).div (.fin d)) =
      ⌊(o + x * m) / d * absMax⌋ := by
  obtain ⟨low, high⟩ := share_mem low high wide size left right
  rw [mapped_share wide rfl rfl left right, toAxis_share low high]

theorem mapsInto_place {state : DisplayState} {l : Logical} {lx ly x y w h dw dh : Rat}
    (n : Numbers state (lrect state l) lx ly x y w h dw dh) (wide : 0 < w) (high : 0 < h) :
    MapsInto ((desktop (state.logicals.map (lrect state))).place (lrect state l)) := by
  have dwPos : 0 < dw := by linarith [n.lowX, n.highX]
  have dhPos : 0 < dh := by linarith [n.lowY, n.highY]
  intro s rect px py pxLow pxHigh pyLow pyHigh
  rw [n.place] at rect ⊢
  refine ⟨⌊(x - lx + px * w) / dw * absMax⌋, ⌊(y - ly + py * h) / dh * absMax⌋, ?_,
    ⟨_, _, _, x - lx + px * w, rfl, rfl, rfl, ?_, ?_, rfl⟩,
    ⟨_, _, _, y - ly + py * h, rfl, rfl, rfl, ?_, ?_, rfl⟩⟩
  · rw [UinputInjector.map, rect]
    simp only [Ext.isFinite, Bool.and_self, if_true]
    rw [toAxis_place n.lowX n.highX dwPos wide.le pxLow pxHigh,
      toAxis_place n.lowY n.highY dhPos high.le pyLow pyHigh]
  · linarith [mul_nonneg pxLow wide.le]
  · linarith [mul_le_of_le_one_left wide.le pxHigh]
  · linarith [mul_nonneg pyLow high.le]
  · linarith [mul_le_of_le_one_left high.le pyHigh]

/-! ## Which output it is -/

theorem isOutput_iff {state : DisplayState} (positive : PositiveScales state) {l : Logical}
    (member : l ∈ state.logicals) (c : String) :
    IsOutput state c ((desktop (state.logicals.map (lrect state))).place (lrect state l)) ↔
      ShownAt state c l := by
  constructor
  · rintro ⟨l', known, shows_, same⟩
    exact ⟨l', known, shows_, (place_eq_iff positive member known).mp same⟩
  · rintro ⟨l', known, shows_, same⟩
    exact ⟨l', known, shows_, (place_eq_iff positive member known).mpr same⟩

theorem shownAt_self {state : DisplayState} {l : Logical} (member : l ∈ state.logicals) {c : String}
    (h : l.ids.head?.map (·.connector) = some c) : ShownAt state c l := by
  obtain ⟨id, first, rfl⟩ := Option.map_eq_some_iff.mp h
  exact ⟨l, member, List.mem_map_of_mem (List.mem_of_head? first), rfl, rfl, rfl, rfl⟩

/-- A logical monitor without outputs has no size. -/
theorem sizeless (state : DisplayState) {l : Logical} (scale : ∃ q : Rat, 0 < q ∧ l.scale = .fin q)
    (none : l.ids.head? = none) : (lrect state l).w.gt 0 = false := by
  obtain ⟨q, pos, scale⟩ := scale
  have zero : (Ext.fin 0).div (.fin q) = 0 := by
    rw [div_fin _ pos, zero_div]
    rfl
  simp only [lrect, none, scale, Option.bind_none, Option.getD_none, zero, ite_self]
  rfl

theorem shown_iff {var : Option String} {state : DisplayState} {c : String} {l : Logical}
    (positive : PositiveScales state) (named : primaryConnector var (some state) = some c)
    (chosen : taken var state = some l) (sized : (lrect state l).w.gt 0 = true) :
    ShownAt state c l ↔ Coherent var state := by
  have member := taken_mem chosen
  rw [primaryConnector] at named
  rw [taken] at chosen
  rw [Coherent]
  cases given : override var with
  | some w =>
      rw [given] at named chosen
      cases named
      rw [Option.bind_some] at chosen
      cases first : state.logicals.find? (·.ids.head?.map (·.connector) = some c) with
      | some l' =>
          rw [first, Option.some_or] at chosen
          cases chosen
          have here := List.find?_some first
          rw [decide_eq_true_eq] at here
          exact iff_of_true (shownAt_self member here) (.inl ⟨l, member, here⟩)
      | none =>
          rw [first, Option.none_or] at chosen
          have nowhere := List.find?_eq_none.mp first
          constructor
          · exact fun shown => .inr ⟨l, chosen, shown⟩
          · rintro (⟨l', known, here⟩ | ⟨l', same, shown⟩)
            · exact absurd (decide_eq_true here) (nowhere l' known)
            · cases chosen.symm.trans same
              exact shown
  | none =>
      rw [given] at named chosen
      rw [Option.bind_none, Option.none_or] at chosen
      simp only [Option.bind_some] at named
      cases primary : state.logicals.find? (·.primary) with
      | some l' =>
          rw [primary] at named chosen
          rw [Option.some_or] at chosen
          cases chosen
          rw [Option.bind_some] at named
          cases first : l.ids.head? with
          | none =>
              have flat := sizeless state (positive l member) first
              rw [flat] at sized
              cases sized
          | some id =>
              rw [first] at named
              cases named
              exact iff_of_true (shownAt_self member (by rw [first]; rfl))
                (.inl ⟨l, member, List.find?_some primary⟩)
      | none =>
          rw [primary] at named chosen
          rw [Option.none_or] at chosen
          obtain ⟨m, first, rfl⟩ := Option.map_eq_some_iff.mp named
          have nowhere := List.find?_eq_none.mp primary
          constructor
          · exact fun shown => .inr ⟨l, m, chosen, first, shown⟩
          · rintro (⟨l', known, here⟩ | ⟨l', m', same, same', shown⟩)
            · exact absurd here (nowhere l' known)
            · cases chosen.symm.trans same
              cases first.symm.trans same'
              exact shown

/-- The rectangle lies inside the desktop and the pointer stays inside the rectangle; it is that of
the output that is recorded exactly where the two agree. -/
theorem captured_output_iff {var : Option String} {state : DisplayState} {c : String}
    {r : MonitorRect} (positive : PositiveScales state)
    (named : primaryConnector var (some state) = some c)
    (placed : computeMonitorRect var (some state) = some r) :
    OutputAgrees state c r ↔ Coherent var state := by
  obtain ⟨l, chosen, wide, high, rfl⟩ := computeMonitorRect_some placed
  have member := taken_mem chosen
  have shown := (isOutput_iff positive member c).trans (shown_iff positive named chosen wide)
  constructor
  · exact fun agrees => shown.mp agrees.output
  · intro coherent
    obtain ⟨lx, ly, x, y, w, h, dw, dh, n⟩ := exists_numbers positive member
    rw [n.wide] at wide
    rw [n.high] at high
    refine ⟨shown.mpr coherent, ?_, ?_, mapsInto_place n (Ext.gt_fin.mp wide) (Ext.gt_fin.mp high)⟩
    · rw [n.place]
      exact ⟨_, _, _, rfl, rfl, rfl, n.lowX, n.highX⟩
    · rw [n.place]
      exact ⟨_, _, _, rfl, rfl, rfl, n.lowY, n.highY⟩

def sampleId (connector : String) : MonId where
  connector := connector
  vendor := ""
  product := ""
  serial := ""

def sampleMonitor (connector : String) (width height : Int) : Monitor where
  id := sampleId connector
  modes := [{ width := width, height := height, isCurrent := true }]

/-- A rotated output at a fractional scale, left of the primary one. -/
def rotatedLeft : DisplayState where
  monitors := [sampleMonitor "DP-1" 2560 1440, sampleMonitor "HDMI-1" 1920 1080]
  logicals := [
    { x := -1152, y := 0, scale := .fin (5 / 4), transform := 1, primary := false,
      ids := [sampleId "DP-1"] },
    { x := 0, y := 0, scale := .fin 1, transform := 0, primary := true, ids := [sampleId "HDMI-1"] }]

theorem captured_output_iff_rotated :
    OutputAgrees rotatedLeft "HDMI-1"
      { ox := .fin 1152, oy := .fin 0, mw := .fin 1920, mh := .fin 1080, dw := .fin 3072,
        dh := .fin 2048 } := by
  have positive : PositiveScales rotatedLeft := by
    intro l member
    obtain rfl | rfl : l = _ ∨ l = _ := by simpa [rotatedLeft] using member
    · exact ⟨5 / 4, by norm_num, rfl⟩
    · exact ⟨1, by norm_num, rfl⟩
  have named : primaryConnector none (some rotatedLeft) = some "HDMI-1" := by decide
  have primary : ∃ l ∈ rotatedLeft.logicals, l.primary = true :=
    ⟨_, List.mem_cons_of_mem _ List.mem_cons_self, rfl⟩
  exact (captured_output_iff positive named (by decide +kernel)).mpr (.inl primary)

/-- No monitor is primary, and the first monitor is not the first logical one. -/
def noPrimary : DisplayState where
  monitors := [sampleMonitor "HDMI-1" 1920 1080, sampleMonitor "DP-1" 1920 1080]
  logicals := [
    { x := 0, y := 0, scale := .fin 1, transform := 0, primary := false, ids := [sampleId "DP-1"] },
    { x := 1920, y := 0, scale := .fin 1, transform := 0, primary := false,
      ids := [sampleId "HDMI-1"] }]

/-- The second of two mirrored outputs, beside the primary one. -/
def mirrored : DisplayState where
  monitors := [sampleMonitor "HDMI-1" 1920 1080, sampleMonitor "DP-1" 1920 1080,
    sampleMonitor "DP-2" 1920 1080]
  logicals := [
    { x := 0, y := 0, scale := .fin 1, transform := 0, primary := true, ids := [sampleId "HDMI-1"] },
    { x := 1920, y := 0, scale := .fin 1, transform := 0, primary := false,
      ids := [sampleId "DP-1", sampleId "DP-2"] }]

def leftHalf : MonitorRect where
  ox := .fin 0
  oy := .fin 0
  mw := .fin 1920
  mh := .fin 1080
  dw := .fin 3840
  dh := .fin 1080

/-- The output on the right is recorded, and the pointer goes to the left one. -/
theorem wrong_output :
    (primaryConnector none (some noPrimary) = some "HDMI-1" ∧
      (∃ l ∈ noPrimary.logicals, l.Shows "HDMI-1") ∧
      computeMonitorRect none (some noPrimary) = some leftHalf ∧
      ¬ OutputAgrees noPrimary "HDMI-1" leftHalf) ∧
    primaryConnector (some "DP-2") (some mirrored) = some "DP-2" ∧
      (∃ l ∈ mirrored.logicals, l.Shows "DP-2") ∧
      computeMonitorRect (some "DP-2") (some mirrored) = some leftHalf ∧
      ¬ OutputAgrees mirrored "DP-2" leftHalf := by
  have elsewhere : ∀ state c, (∀ l ∈ state.logicals, c ∈ l.ids.map (·.connector) →
      leftHalf ≠ (desktop (state.logicals.map (lrect state))).place (lrect state l)) →
      ¬ OutputAgrees state c leftHalf := by
    intro state c apart agrees
    obtain ⟨l, member, shows_, same⟩ := agrees.output
    exact apart l member shows_ same
  refine ⟨⟨by decide, ⟨_, List.mem_cons_of_mem _ List.mem_cons_self, List.mem_cons_self⟩,
    by decide +kernel, elsewhere _ _ (by decide +kernel)⟩, by decide,
    ⟨_, List.mem_cons_of_mem _ List.mem_cons_self, List.mem_cons_of_mem _ List.mem_cons_self⟩,
    by decide +kernel, elsewhere _ _ (by decide +kernel)⟩

end Mutter
end ReachMyDevice
