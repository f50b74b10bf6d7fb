/-
  The table of the sessions on the overview (`pages/console/scroll.rs`, the handlers of `pages/console/mod.rs`, and
  the `ListSieve` of `ui/kit.rs`).

  A session is its identity here; the other fields of a row are painted only. The wheel is as in the source; what
  the keys and the bar ask for is any offset at all. The hit list is always the one of the sessions, the offset and
  the page that are there (`run_good`). From it: which session is under a point of the page (`under_pointer_iff`),
  which press a release answers (`released_iff`), that the wheel brings every session to its button, which a low
  page does not show (`every_session_can_be_stopped`), and on which pages no wheel is needed (`all_live_iff`) and
  no button is below its card (`buttons_inside_iff`). The numbers are plain, and stand for `i32`s that do not
  overflow.
-/
import RemoteX11.Gui.Console
import RemoteX11.Gui.ScrollBar
import RemoteX11.Lib.Register

namespace RemoteX11.Gui.Console

open RemoteX11.Lib

/-! ## The kit -/

structure ListSieve where
  hover : Option Nat
  pressed : Option Nat
  deriving DecidableEq, Repr

namespace ListSieve

/-- `ListSieve::default`. -/
def default : ListSieve := ⟨none, none⟩

/-- `move_to`: whether the hover changed, and the sieve afterwards. -/
def moveTo (s : ListSieve) (idx : Option Nat) : Bool × ListSieve :=
  if s.hover = idx then (false, s) else (true, { s with hover := idx })

/-- `exit`: whether a repaint is due. -/
def exit (s : ListSieve) : Bool × ListSieve := (s.hover.isSome || s.pressed.isSome, ⟨none, none⟩)

/-- `press`: whether the gesture is claimed. -/
def press (s : ListSieve) (idx : Option Nat) : Bool × ListSieve := (idx.isSome, { s with pressed := idx })

/-- `release`: the index that fires. -/
def release (s : ListSieve) (idx : Option Nat) : Option Nat × ListSieve :=
  let fired := match s.pressed, idx with
    | some p, some r => if p = r then some p else none
    | _, _ => none
  (fired, { s with pressed := none })

end ListSieve

theorem release_eq_some {s : ListSieve} {idx : Option Nat} {i : Nat} :
    (s.release idx).1 = some i ↔ s.pressed = some i ∧ idx = some i := by
  cases hpressed : s.pressed with
  | none => simp [ListSieve.release, hpressed]
  | some p =>
    cases idx with
    | none => simp [ListSieve.release, hpressed]
    | some r =>
      simp only [ListSieve.release, hpressed, Option.some.injEq]
      grind

/-! ## The hit list -/

structure RowHit where
  sessionId : Nat
  stop : Option Rect
  deriving DecidableEq, Repr

def tableMaxScroll (total fit : Nat) : Int := listMaxScroll total fit rowH

def rowWindow (scrollPx : Int) (total fit : Nat) : Nat × Int × Nat := listRowWindow scrollPx total fit rowH

/-- `i32::clamp`. -/
@[irreducible] def clampTo (v max_ : Int) : Int := max 0 (min v max_)

/-- `compute_row_hits`. The slots are the places of a stretch of the list, which `list_row_window` keeps inside it. -/
def computeRowHits (geometry : ConsoleLayout) (solved : Solved) (sessions : List Nat) (scrollPx : Int) :
    List RowHit :=
  let area := geometry.rowArea solved
  let fit := listRows area
  let scroll := clampTo scrollPx (tableMaxScroll sessions.length fit)
  let (first, frac, count) := rowWindow scroll sessions.length fit
  let bandBottom := area.y + fit * rowH
  ((sessions.drop first).take count).mapIdx fun slot id =>
    let ry := area.y + slot * rowH - frac
    let action := (geometry.columnRects solved slot).getD 4 (geometry.rowRect solved slot)
    let rect : Rect := ⟨action.right - sessionActionW, ry + (rowH - 24).tdiv 2, sessionActionW, 24⟩
    let whole := decide (rect.y ≥ area.y) && decide (rect.bottom ≤ bandBottom)
    { sessionId := id, stop := if whole then some rect else none }

/-! ## The page -/

structure ConsoleState where
  sessions : List Nat
  rows : List RowHit
  sieve : ListSieve
  scrollPx : Int
  deriving DecidableEq, Repr

structure ConsolePage where
  st : ConsoleState
  rect : Rect
  /-- the sessions the handler of `StopSession` was asked to stop; history -/
  stopped : List Nat
  deriving DecidableEq, Repr

/-- `apply_table_scroll`. -/
def applyTableScroll (s : ConsoleState) (value : Int) (fit : Nat) : Bool × ConsoleState :=
  let next := clampTo value (tableMaxScroll s.sessions.length fit)
  (decide (next ≠ s.scrollPx), { s with scrollPx := next })

/-- `reflow_rows`. -/
def reflowRows (s : ConsoleState) (geometry : ConsoleLayout) (solved : Solved) : ConsoleState :=
  { s with rows := computeRowHits geometry solved s.sessions s.scrollPx }

/-- `move_offset`. -/
def moveOffset (s : ConsoleState) (geometry : ConsoleLayout) (solved : Solved) (fit : Nat) (value : Int) :
    Bool × ConsoleState :=
  match applyTableScroll s value fit with
  | (true, s) => (true, reflowRows s geometry solved)
  | (false, s) => (false, s)

/-- The events the page's own handler reads. -/
inductive Event where
  | move
  | enter
  | leave
  | push
  | released
  | other
  deriving DecidableEq, Repr

namespace ConsolePage

def geometry (p : ConsolePage) : ConsoleLayout := console p.st.sessions.length

def solved (p : ConsolePage) : Solved := p.geometry.layout.solve p.rect

/-- `layout`, without the widgets it places. -/
def layout (p : ConsolePage) : ConsolePage :=
  let fit := listRows (p.geometry.rowArea p.solved)
  let s := { p.st with scrollPx := clampTo p.st.scrollPx (tableMaxScroll p.st.sessions.length fit) }
  { p with st := reflowRows s p.geometry p.solved }

/-- `new`. -/
def new (rect : Rect) : ConsolePage := layout ⟨⟨[], [], .default, 0⟩, rect, []⟩

/-- `set_data`. -/
def setData (p : ConsolePage) (sessions : List Nat) : ConsolePage :=
  layout { p with st := { p.st with sessions := sessions } }

/-- `resize`. -/
def resize (p : ConsolePage) (rect : Rect) : ConsolePage := layout { p with rect := rect }

/-- `scroll_to` of `install_input`. -/
def scrollTo (p : ConsolePage) (value : Int) : Bool × ConsolePage :=
  let (changed, st) := moveOffset p.st p.geometry p.solved (listRows (p.geometry.rowArea p.solved)) value
  (changed, { p with st := st })

/-- The wheel: one row a notch. -/
def wheel (p : ConsolePage) (dy : Int) : Bool × ConsolePage :=
  if dy = 0 then (false, p)
  else
    let step := if dy > 0 then rowH else -rowH
    p.scrollTo (p.st.scrollPx + step)

/-- The row whose button is at a point. -/
def hit (p : ConsolePage) (mx my : Int) : Option Nat :=
  p.st.rows.findIdx? fun r => r.stop.any fun rect => rect.contains mx my

/-- The pointer handler: whether the event is consumed. An index that fires is one of the hit list. -/
def handle (p : ConsolePage) (ev : Event) (mx my : Int) : Bool × ConsolePage :=
  let hit := p.hit mx my
  let sieve := p.st.sieve
  match ev with
  | .move | .enter => (true, { p with st := { p.st with sieve := (sieve.moveTo hit).2 } })
  | .leave => (true, { p with st := { p.st with sieve := sieve.exit.2 } })
  | .push =>
    let (claimed, sieve) := sieve.press hit
    (claimed, { p with st := { p.st with sieve := sieve } })
  | .released =>
    let pressed := sieve.pressed
    let (fired, sieve) := sieve.release hit
    let p := { p with st := { p.st with sieve := sieve } }
    let action := fired.bind fun i => p.st.rows[i]?.map RowHit.sessionId
    (pressed.isSome, { p with stopped := p.stopped ++ action.toList })
  | .other => (false, p)

end ConsolePage

/-- What happens to the page. -/
inductive Call where
  | setData (sessions : List Nat)
  | resize (rect : Rect)
  | wheel (dy : Int)
  /-- a key or the bar asks for an offset -/
  | scrollTo (value : Int)
  | event (ev : Event) (mx my : Int)
  deriving DecidableEq, Repr

namespace ConsolePage

def step (p : ConsolePage) : Call → ConsolePage
  | .setData sessions => p.setData sessions
  | .resize rect => p.resize rect
  | .wheel dy => (p.wheel dy).2
  | .scrollTo value => (p.scrollTo value).2
  | .event ev mx my => (p.handle ev mx my).2

def run (rect : Rect) (calls : List Call) : ConsolePage := calls.foldl step (new rect)

end ConsolePage

/-! ## The hit list in numbers -/

/-- The button of the session at place `k` of the list, in an area scrolled by `scroll`. -/
def buttonRect (area : Rect) (scroll : Int) (k : Nat) : Rect :=
  ⟨area.right - 54, area.y + 46 * k - scroll + 11, 54, 24⟩

/-- The band of whole rows shows all of the button. -/
def Shown (area : Rect) (scroll : Int) (k : Nat) : Prop :=
  scroll ≤ 46 * k + 11 ∧ 46 * (k : Int) + 35 ≤ scroll + 46 * listRows area

instance (area : Rect) (scroll : Int) (k : Nat) : Decidable (Shown area scroll k) :=
  inferInstanceAs (Decidable (_ ∧ _))

/-- The area of the rows of a page. -/
def ConsolePage.area (p : ConsolePage) : Rect := areaRect (cardRect p.rect p.st.sessions.length)

/-- The offsets there are. -/
def InRange (area : Rect) (sessions : List Nat) (scroll : Int) : Prop :=
  0 ≤ scroll ∧ scroll ≤ tableMaxScroll sessions.length (listRows area)

theorem listRows_pos (area : Rect) : 1 ≤ listRows area := by
  unfold listRows
  omega

theorem clampTo_of_inRange {area : Rect} {sessions : List Nat} {scroll : Int} (h : InRange area sessions scroll) :
    clampTo scroll (tableMaxScroll sessions.length (listRows area)) = scroll := by
  obtain ⟨hlo, hhi⟩ := h
  unfold clampTo
  omega

theorem clampTo_inRange (area : Rect) (sessions : List Nat) (value : Int) :
    InRange area sessions (clampTo value (tableMaxScroll sessions.length (listRows area))) := by
  have hmax : 0 ≤ tableMaxScroll sessions.length (listRows area) := by
    simp only [tableMaxScroll, listMaxScroll, rowH]
    omega
  unfold InRange clampTo
  omega

theorem row_first {scroll : Int} (h : 0 ≤ scroll) : (max (scroll.tdiv rowH) 0).toNat = (scroll / 46).toNat := by
  rw [Int.tdiv_eq_ediv_of_nonneg h, rowH]
  omega

/-- The stretch of the list that is drawn. -/
theorem drawn_getElem? (sessions : List Nat) (first fit slot : Nat) :
    ((sessions.drop first).take (min (fit + 1) (sessions.length - first)))[slot]? =
      if slot ≤ fit then sessions[first + slot]? else none := by
  rw [List.getElem?_take, List.getElem?_drop]
  by_cases hslot : slot ≤ fit
  · rw [if_pos hslot]
    by_cases hin : first + slot < sessions.length
    · rw [if_pos (by omega)]
    · rw [List.getElem?_eq_none (Nat.not_lt.mp hin), ite_self]
  · rw [if_neg hslot, if_neg (by omega)]

/-- The slot `slot` shows the session at place `scroll / 46 + slot`. -/
theorem rowHits_getElem? (page : Rect) {sessions : List Nat} {scroll : Int}
    (h : InRange (areaRect (cardRect page sessions.length)) sessions scroll) (slot : Nat) :
    (computeRowHits (console sessions.length) ((console sessions.length).layout.solve page) sessions scroll)[slot]? =
      if slot ≤ listRows (areaRect (cardRect page sessions.length)) then
        sessions[(scroll / 46).toNat + slot]?.map fun id =>
          ⟨id, if Shown (areaRect (cardRect page sessions.length)) scroll ((scroll / 46).toNat + slot) then
            some (buttonRect (areaRect (cardRect page sessions.length)) scroll ((scroll / 46).toNat + slot))
            else none⟩
      else none := by
  obtain ⟨r, hr, hright⟩ := action_right page sessions.length slot
  have hclamp := clampTo_of_inRange h
  obtain ⟨hlo, _⟩ := h
  have hfirst := row_first hlo
  have htop : ∀ y : Int, y + (slot : Int) * rowH - scroll.emod rowH + (rowH - 24).tdiv 2 =
      y + 46 * (((scroll / 46).toNat + slot : Nat) : Int) - scroll + 11 := by
    intro y
    have hmod : scroll.emod rowH = scroll % 46 := rfl
    have hhalf : (rowH - 24).tdiv 2 = 11 := rfl
    rw [hmod, hhalf, rowH]
    omega
  unfold computeRowHits
  simp only [rowArea_eq]
  generalize areaRect (cardRect page sessions.length) = area at *
  have hwhole : (decide (area.y + 46 * (((scroll / 46).toNat + slot : Nat) : Int) - scroll + 11 ≥ area.y) &&
      decide ((⟨area.right - sessionActionW, area.y + 46 * (((scroll / 46).toNat + slot : Nat) : Int) - scroll + 11,
        sessionActionW, 24⟩ : Rect).bottom ≤ area.y + listRows area * rowH)) = true ↔
      Shown area scroll ((scroll / 46).toNat + slot) := by
    rw [Bool.and_eq_true, decide_eq_true_iff, decide_eq_true_iff]
    unfold Shown Rect.bottom rowH
    simp only
    omega
  simp only [hclamp, rowWindow, listRowWindow, List.getElem?_mapIdx, hfirst, drawn_getElem?, hr, hright, htop,
    hwhole, List.getD_eq_getElem?_getD, Option.getD_some]
  by_cases hslot : slot ≤ listRows area
  · rw [if_pos hslot, if_pos hslot]
    rfl
  · rw [if_neg hslot, if_neg hslot]
    rfl

-- The hit list is read by this lemma only.
attribute [irreducible] computeRowHits

/-! ## The session under a point -/

/-- The button of the session at place `k` is shown, and is under the point. -/
def Under (area : Rect) (scroll : Int) (x y : Int) (k : Nat) : Prop :=
  Shown area scroll k ∧ (buttonRect area scroll k).contains x y

theorem contains_iff {r : Rect} {x y : Int} :
    r.contains x y = true ↔ (r.x ≤ x ∧ x < r.right) ∧ r.y ≤ y ∧ y < r.bottom := by
  simp only [Rect.contains, Bool.and_eq_true, decide_eq_true_iff]
  tauto

/-- Two buttons are apart. -/
theorem under_inj {area : Rect} {scroll x y : Int} {k k' : Nat} (h : Under area scroll x y k)
    (h' : Under area scroll x y k') : k = k' := by
  have hk := (contains_iff.mp h.2).2
  have hk' := (contains_iff.mp h'.2).2
  simp only [buttonRect, Rect.bottom] at hk hk'
  omega

/-- A session that is shown has a slot. -/
theorem slot_of_shown {area : Rect} {scroll : Int} (hlo : 0 ≤ scroll) {k : Nat} (h : Shown area scroll k) :
    ∃ slot, slot ≤ listRows area ∧ k = (scroll / 46).toNat + slot := by
  obtain ⟨htop, hbottom⟩ := h
  exact ⟨k - (scroll / 46).toNat, by omega, by omega⟩

/-- What every state of the page keeps: the hit list is the one of the sessions, the offset and the page. -/
structure Good (p : ConsolePage) : Prop where
  inRange : InRange p.area p.st.sessions p.st.scrollPx
  rows : p.st.rows = computeRowHits p.geometry p.solved p.st.sessions p.st.scrollPx

/-- Where one element at most satisfies `P`, a search finds it. -/
theorem findIdx?_eq_some_of_unique {rows : List RowHit} {P : RowHit → Bool}
    (hunique : ∀ {i j : Nat} {a b : RowHit}, rows[i]? = some a → rows[j]? = some b →
      P a = true → P b = true → i = j)
    {i : Nat} : rows.findIdx? P = some i ↔ ∃ a, rows[i]? = some a ∧ P a = true := by
  rw [List.findIdx?_eq_some_iff_getElem]
  constructor
  · rintro ⟨hi, hP, _⟩
    exact ⟨rows[i], List.getElem?_eq_getElem hi, hP⟩
  · rintro ⟨a, ha, hP⟩
    obtain ⟨hi, rfl⟩ := List.getElem?_eq_some_iff.mp ha
    refine ⟨hi, hP, fun j hji hPj => ?_⟩
    have := hunique (List.getElem?_eq_getElem (Nat.lt_trans hji hi)) ha hPj hP
    omega

/-- A row of the hit list whose button is under a point. -/
theorem row_under {p : ConsolePage} (h : Good p) {x y : Int} {slot : Nat} (hit : RowHit) :
    (p.st.rows[slot]? = some hit ∧ (hit.stop.any fun rect => rect.contains x y) = true) ↔
      hit.stop = some (buttonRect p.area p.st.scrollPx ((p.st.scrollPx / 46).toNat + slot)) ∧
        p.st.sessions[(p.st.scrollPx / 46).toNat + slot]? = some hit.sessionId ∧
        Under p.area p.st.scrollPx x y ((p.st.scrollPx / 46).toNat + slot) := by
  have hget := rowHits_getElem? p.rect h.inRange slot
  have hrow : p.st.rows[slot]? = _ := (congrArg (·[slot]?) h.rows).trans hget
  have harea : areaRect (cardRect p.rect p.st.sessions.length) = p.area := rfl
  rw [hrow, harea]
  generalize hk : (p.st.scrollPx / 46).toNat + slot = k
  constructor
  · rintro ⟨hhit, hany⟩
    by_cases hslot : slot ≤ listRows p.area
    · rw [if_pos hslot] at hhit
      obtain ⟨id, hid, rfl⟩ := Option.map_eq_some_iff.mp hhit
      by_cases hshown : Shown p.area p.st.scrollPx k
      · simp only [if_pos hshown, Option.any_some] at hany ⊢
        exact ⟨trivial, hid, hshown, hany⟩
      · simp only [if_neg hshown, Option.any_none] at hany
        cases hany
    · rw [if_neg hslot] at hhit
      cases hhit
  · rintro ⟨hstop, hid, hshown, hcontains⟩
    have hslot : slot ≤ listRows p.area := by
      obtain ⟨hlo, _⟩ := h.inRange
      obtain ⟨_, hbottom⟩ := hshown
      omega
    rw [if_pos hslot, hid, hstop]
    simp only [if_pos hshown, Option.map_some, Option.any_some]
    refine ⟨?_, hcontains⟩
    rw [← hstop]

/-- The hit test, in places of the list. -/
theorem hit_eq_some {p : ConsolePage} (h : Good p) {x y : Int} {slot : Nat} :
    p.hit x y = some slot ↔
      (p.st.scrollPx / 46).toNat + slot < p.st.sessions.length ∧
        Under p.area p.st.scrollPx x y ((p.st.scrollPx / 46).toNat + slot) := by
  have hunique : ∀ {i j : Nat} {a b : RowHit}, p.st.rows[i]? = some a → p.st.rows[j]? = some b →
      (a.stop.any fun rect => rect.contains x y) = true → (b.stop.any fun rect => rect.contains x y) = true →
      i = j := by
    intro i j a b ha hb hPa hPb
    have hi := ((row_under h _).mp ⟨ha, hPa⟩).2.2
    have hj := ((row_under h _).mp ⟨hb, hPb⟩).2.2
    have := under_inj hi hj
    omega
  rw [ConsolePage.hit, findIdx?_eq_some_of_unique hunique]
  constructor
  · rintro ⟨hit, hrow⟩
    obtain ⟨_, hid, hunder⟩ := (row_under h hit).mp hrow
    exact ⟨(List.getElem?_eq_some_iff.mp hid).1, hunder⟩
  · rintro ⟨hlt, hunder⟩
    exact ⟨⟨_, _⟩, (row_under h _).mpr ⟨rfl, List.getElem?_eq_getElem hlt, hunder⟩⟩

/-- The session of a row that is hit. -/
theorem row_of_hit {p : ConsolePage} (h : Good p) {x y : Int} {slot : Nat} (hhit : p.hit x y = some slot) :
    p.st.rows[slot]?.map RowHit.sessionId = p.st.sessions[(p.st.scrollPx / 46).toNat + slot]? := by
  obtain ⟨hlt, hunder⟩ := (hit_eq_some h).mp hhit
  have hrow := ((row_under h ⟨p.st.sessions[(p.st.scrollPx / 46).toNat + slot], _⟩).mpr
    ⟨rfl, List.getElem?_eq_getElem hlt, hunder⟩).1
  rw [hrow, List.getElem?_eq_getElem hlt]
  rfl

/-! ## Every state of the page -/

theorem rowArea_page (p : ConsolePage) : p.geometry.rowArea p.solved = p.area :=
  rowArea_eq p.rect p.st.sessions.length

/-- A page with the hit list of an offset in range. -/
theorem good_of_eq (p : ConsolePage) {q : ConsolePage} (value : Int) (hrect : q.rect = p.rect)
    (hsessions : q.st.sessions = p.st.sessions)
    (hscroll : q.st.scrollPx = clampTo value (tableMaxScroll p.st.sessions.length (listRows p.area)))
    (hrows : q.st.rows = computeRowHits p.geometry p.solved p.st.sessions q.st.scrollPx) : Good q := by
  have hgeometry : q.geometry = p.geometry := by
    unfold ConsolePage.geometry
    rw [hsessions]
  have hsolved : q.solved = p.solved := by
    unfold ConsolePage.solved
    rw [hgeometry, hrect]
  have harea : q.area = p.area := by
    unfold ConsolePage.area
    rw [hrect, hsessions]
  constructor
  · rw [harea, hsessions, hscroll]
    exact clampTo_inRange _ _ _
  · rw [hgeometry, hsolved, hsessions, hrows]

theorem layout_good (p : ConsolePage) : Good p.layout := by
  refine good_of_eq p p.st.scrollPx ?_ ?_ ?_ ?_
  all_goals unfold ConsolePage.layout reflowRows
  · rfl
  · rfl
  · rw [rowArea_page]
  · rfl

/-- What `scroll_to` does, in numbers. -/
theorem scrollTo_eq {p : ConsolePage} (h : Good p) (value : Int) :
    (p.scrollTo value).2.rect = p.rect ∧ (p.scrollTo value).2.st.sessions = p.st.sessions ∧
      (p.scrollTo value).2.st.scrollPx =
        clampTo value (tableMaxScroll p.st.sessions.length (listRows p.area)) ∧
      (p.scrollTo value).2.st.rows =
        computeRowHits p.geometry p.solved p.st.sessions (p.scrollTo value).2.st.scrollPx := by
  simp only [ConsolePage.scrollTo, moveOffset, applyTableScroll, rowArea_page]
  generalize hnext : clampTo value (tableMaxScroll p.st.sessions.length (listRows p.area)) = next
  by_cases hsame : next = p.st.scrollPx
  · -- The hit list of an offset that stays is there already.
    simp only [hsame, ne_eq, not_true, decide_false]
    exact ⟨trivial, trivial, trivial, h.rows⟩
  · simp only [hsame, ne_eq, not_false_eq_true, decide_true]
    exact ⟨trivial, rfl, rfl, rfl⟩

theorem scrollTo_good {p : ConsolePage} (h : Good p) (value : Int) : Good (p.scrollTo value).2 := by
  obtain ⟨hrect, hsessions, hscroll, hrows⟩ := scrollTo_eq h value
  exact good_of_eq p value hrect hsessions hscroll hrows

/-- The pointer changes neither the list nor the offset. -/
theorem handle_good {p : ConsolePage} (h : Good p) (ev : Event) (mx my : Int) : Good (p.handle ev mx my).2 := by
  cases ev <;> exact ⟨h.inRange, h.rows⟩

theorem step_good {p : ConsolePage} (h : Good p) (c : Call) : Good (p.step c) := by
  cases c with
  | setData sessions => exact layout_good _
  | resize rect => exact layout_good _
  | wheel dy =>
    show Good (p.wheel dy).2
    unfold ConsolePage.wheel
    split
    · exact h
    · exact scrollTo_good h _
  | scrollTo value => exact scrollTo_good h value
  | event ev mx my => exact handle_good h ev mx my

theorem foldl_good {p : ConsolePage} (h : Good p) (calls : List Call) : Good (calls.foldl ConsolePage.step p) := by
  induction calls generalizing p with
  | nil => exact h
  | cons c calls ih => exact ih (step_good h c)

/-- Drawing and hit testing never disagree: the hit list is the one of the sessions, the offset and the page. -/
theorem run_good (rect : Rect) (calls : List Call) : Good (.run rect calls) := foldl_good (layout_good _) calls

/-- The session of the row that is hit is the one under the point. -/
theorem pointed_iff {p : ConsolePage} (h : Good p) (x y : Int) (id : Nat) :
    ((p.hit x y).bind fun slot => p.st.rows[slot]?.map RowHit.sessionId) = some id ↔
      ∃ k, p.st.sessions[k]? = some id ∧ Under p.area p.st.scrollPx x y k := by
  constructor
  · intro hid
    obtain ⟨slot, hslot, hrow⟩ := Option.bind_eq_some_iff.mp hid
    rw [row_of_hit h hslot] at hrow
    exact ⟨_, hrow, ((hit_eq_some h).mp hslot).2⟩
  · rintro ⟨k, hid, hunder⟩
    obtain ⟨slot, _, rfl⟩ := slot_of_shown h.inRange.1 hunder.1
    have hhit : p.hit x y = some slot := (hit_eq_some h).mpr ⟨(List.getElem?_eq_some_iff.mp hid).1, hunder⟩
    rw [hhit, Option.bind_some, row_of_hit h hhit, hid]

/-- Which session the pointer is on, in every state: the one whose button is there, with all of it in the band of
    whole rows. -/
theorem under_pointer_iff (rect : Rect) (calls : List Call) (x y : Int) (id : Nat) :
    ((ConsolePage.run rect calls).hit x y).bind
        (fun slot => (ConsolePage.run rect calls).st.rows[slot]?.map RowHit.sessionId) = some id ↔
      ∃ k, (ConsolePage.run rect calls).st.sessions[k]? = some id ∧
        Under (ConsolePage.run rect calls).area (ConsolePage.run rect calls).st.scrollPx x y k :=
  pointed_iff (run_good rect calls) x y id

/-! ## What a release stops -/

/-- A press is forgotten at the next one, at a release, and when the pointer leaves. -/
def Call.endsPress : Call → Bool
  | .event .push _ _ => true
  | .event .released _ _ => true
  | .event .leave _ _ => true
  | _ => false

theorem scrollTo_sieve (p : ConsolePage) (value : Int) :
    (p.scrollTo value).2.st.sieve = p.st.sieve ∧ (p.scrollTo value).2.stopped = p.stopped := by
  simp only [ConsolePage.scrollTo, moveOffset, applyTableScroll]
  generalize decide (clampTo _ _ ≠ _) = changed
  cases changed <;> exact ⟨rfl, trivial⟩

theorem wheel_sieve (p : ConsolePage) (dy : Int) :
    (p.wheel dy).2.st.sieve = p.st.sieve ∧ (p.wheel dy).2.stopped = p.stopped := by
  unfold ConsolePage.wheel
  split
  · exact ⟨rfl, rfl⟩
  · exact scrollTo_sieve p _

/-- What a call that ends a press puts in its place. -/
def Call.pressedBy (p : ConsolePage) : Call → Option Nat
  | .event .push mx my => p.hit mx my
  | _ => none

/-- What one call does to the press. -/
theorem step_pressed (p : ConsolePage) (c : Call) :
    (p.step c).st.sieve.pressed = if c.endsPress then c.pressedBy p else p.st.sieve.pressed := by
  have hmove : ∀ idx, (p.st.sieve.moveTo idx).2.pressed = p.st.sieve.pressed := by
    intro idx
    unfold ListSieve.moveTo
    split <;> rfl
  cases c with
  | setData sessions => rfl
  | resize rect => rfl
  | wheel dy => exact congrArg ListSieve.pressed (wheel_sieve p dy).1
  | scrollTo value => exact congrArg ListSieve.pressed (scrollTo_sieve p value).1
  | event ev mx my =>
    cases ev with
    | push => rfl
    | released => rfl
    | leave => rfl
    | other => rfl
    | move => exact hmove _
    | enter => exact hmove _

/-- The slot that is pressed is the one the last push hit, with nothing behind it that ends a press. -/
theorem pressed_iff (rect : Rect) (calls : List Call) (slot : Nat) :
    (ConsolePage.run rect calls).st.sieve.pressed = some slot ↔
      ∃ before px py between, calls = before ++ .event .push px py :: between ∧
        (∀ c ∈ between, c.endsPress = false) ∧ (ConsolePage.run rect before).hit px py = some slot := by
  have hnew : (ConsolePage.new rect).st.sieve.pressed = none := rfl
  refine (foldl_written_iff (fun p : ConsolePage => p.st.sieve.pressed) step_pressed hnew).trans ?_
  constructor
  · rintro ⟨before, c, between, hsplit, _, hquiet, hpressed⟩
    unfold Call.pressedBy at hpressed
    split at hpressed
    · exact ⟨before, _, _, between, hsplit, hquiet, hpressed⟩
    · cases hpressed
  · rintro ⟨before, px, py, between, hsplit, hquiet, hhit⟩
    exact ⟨before, _, between, hsplit, rfl, hquiet, hhit⟩

/-- What a release adds to the sessions that were stopped. -/
theorem released_stopped {p : ConsolePage} (x y : Int) (id : Nat) :
    (p.step (.event .released x y)).stopped = p.stopped ++ [id] ↔
      ∃ slot, p.st.sieve.pressed = some slot ∧ p.hit x y = some slot ∧
        p.st.rows[slot]?.map RowHit.sessionId = some id := by
  have hstopped : (p.step (.event .released x y)).stopped = p.stopped ++
      ((p.st.sieve.release (p.hit x y)).1.bind fun i => p.st.rows[i]?.map RowHit.sessionId).toList := rfl
  rw [hstopped, List.append_cancel_left_eq]
  constructor
  · intro h
    have hsome := Option.toList_eq_singleton_iff.mp h
    obtain ⟨slot, hfired, hrow⟩ := Option.bind_eq_some_iff.mp hsome
    obtain ⟨hpressed, hhit⟩ := release_eq_some.mp hfired
    exact ⟨slot, hpressed, hhit, hrow⟩
  · rintro ⟨slot, hpressed, hhit, hrow⟩
    rw [release_eq_some.mpr ⟨hpressed, hhit⟩, Option.bind_some, hrow]
    rfl

/-- A release stops a session exactly if its button is under the pointer, and the last press was on the button in
    the same slot of the table, wherever its session has gone since. -/
theorem released_iff (rect : Rect) (calls : List Call) (x y : Int) (id : Nat) :
    (ConsolePage.run rect (calls ++ [.event .released x y])).stopped = (ConsolePage.run rect calls).stopped ++ [id] ↔
      (∃ k, (ConsolePage.run rect calls).st.sessions[k]? = some id ∧
        Under (ConsolePage.run rect calls).area (ConsolePage.run rect calls).st.scrollPx x y k) ∧
        ∃ before px py between, calls = before ++ .event .push px py :: between ∧
          (∀ c ∈ between, c.endsPress = false) ∧
          (ConsolePage.run rect before).hit px py = (ConsolePage.run rect calls).hit x y := by
  rw [← pointed_iff (run_good rect calls)]
  have hlast : ConsolePage.run rect (calls ++ [.event .released x y]) =
      (ConsolePage.run rect calls).step (.event .released x y) := List.foldl_concat ..
  rw [hlast, released_stopped]
  constructor
  · rintro ⟨slot, hpressed, hhit, hrow⟩
    obtain ⟨before, px, py, between, hsplit, hquiet, hpush⟩ := (pressed_iff rect calls slot).mp hpressed
    exact ⟨by rw [hhit, Option.bind_some, hrow], before, px, py, between, hsplit, hquiet, by rw [hpush, hhit]⟩
  · rintro ⟨hunder, before, px, py, between, hsplit, hquiet, hpush⟩
    obtain ⟨slot, hhit, hrow⟩ := Option.bind_eq_some_iff.mp hunder
    have hpressed := (pressed_iff rect calls slot).mpr
      ⟨before, px, py, between, hsplit, hquiet, by rw [hpush, hhit]⟩
    exact ⟨slot, hpressed, hhit, hrow⟩

/-! ## Every session has its button -/

/-- What scrolling leaves alone. -/
structure Scrolled (p q : ConsolePage) : Prop where
  good : Good q
  rect : q.rect = p.rect
  sessions : q.st.sessions = p.st.sessions
  stopped : q.stopped = p.stopped

theorem Scrolled.area {p q : ConsolePage} (h : Scrolled p q) : q.area = p.area := by
  unfold ConsolePage.area
  rw [h.rect, h.sessions]

theorem Scrolled.trans {p q r : ConsolePage} (h : Scrolled p q) (h' : Scrolled q r) : Scrolled p r :=
  ⟨h'.good, h'.rect.trans h.rect, h'.sessions.trans h.sessions, h'.stopped.trans h.stopped⟩

/-- One notch. -/
theorem wheel_scrolled {p : ConsolePage} (h : Good p) (dy : Int) (hdy : dy ≠ 0) :
    Scrolled p (p.step (.wheel dy)) ∧ (p.step (.wheel dy)).st.scrollPx =
      clampTo (p.st.scrollPx + if dy > 0 then 46 else -46)
        (tableMaxScroll p.st.sessions.length (listRows p.area)) := by
  have hstep : p.step (.wheel dy) = (p.scrollTo (p.st.scrollPx + if dy > 0 then 46 else -46)).2 :=
    congrArg Prod.snd (if_neg hdy)
  rw [hstep]
  obtain ⟨hrect, hsessions, hscroll, _⟩ := scrollTo_eq h (p.st.scrollPx + if dy > 0 then 46 else -46)
  exact ⟨⟨scrollTo_good h _, hrect, hsessions, (scrollTo_sieve p _).2⟩, hscroll⟩

theorem wheel_up {p : ConsolePage} (h : Good p) (m : Nat) :
    Scrolled p ((List.replicate m (.wheel (-1))).foldl ConsolePage.step p) ∧
      ((List.replicate m (.wheel (-1))).foldl ConsolePage.step p).st.scrollPx = max (p.st.scrollPx - 46 * m) 0 := by
  induction m generalizing p with
  | zero =>
    have := h.inRange.1
    refine ⟨⟨h, rfl, rfl, rfl⟩, ?_⟩
    show p.st.scrollPx = _
    omega
  | succ m ih =>
    rw [List.replicate_succ, List.foldl_cons]
    obtain ⟨hone, hscroll⟩ := wheel_scrolled h (-1) (by decide)
    obtain ⟨hrest, hlast⟩ := ih hone.good
    refine ⟨hone.trans hrest, ?_⟩
    have hrange := h.inRange
    rw [hlast, hscroll]
    unfold InRange at hrange
    unfold clampTo
    simp only [show ¬ (-1 : Int) > 0 by decide, if_false]
    omega

theorem wheel_down {p : ConsolePage} (h : Good p) (m : Nat) :
    Scrolled p ((List.replicate m (.wheel 1)).foldl ConsolePage.step p) ∧
      ((List.replicate m (.wheel 1)).foldl ConsolePage.step p).st.scrollPx =
        min (p.st.scrollPx + 46 * m) (tableMaxScroll p.st.sessions.length (listRows p.area)) := by
  induction m generalizing p with
  | zero =>
    have := h.inRange.2
    refine ⟨⟨h, rfl, rfl, rfl⟩, ?_⟩
    show p.st.scrollPx = _
    omega
  | succ m ih =>
    rw [List.replicate_succ, List.foldl_cons]
    obtain ⟨hone, hscroll⟩ := wheel_scrolled h 1 (by decide)
    obtain ⟨hrest, hlast⟩ := ih hone.good
    refine ⟨hone.trans hrest, ?_⟩
    have hrange := h.inRange
    rw [hlast, hscroll, hone.sessions, hone.area]
    unfold InRange at hrange
    unfold clampTo
    simp only [show (1 : Int) > 0 by decide, if_true]
    omega

/-- Wheeled to place `k` or to the end, the band shows the button of the session there. -/
theorem shown_at {area : Rect} {n k : Nat} (hk : k < n) :
    Shown area (min (46 * (k : Int)) (tableMaxScroll n (listRows area))) k := by
  have hpos := listRows_pos area
  simp only [Shown, tableMaxScroll, listMaxScroll, rowH]
  omega

/-- A push and a release on a button stop its session. -/
theorem click_stops {p : ConsolePage} (h : Good p) {k id : Nat} (hid : p.st.sessions[k]? = some id)
    (hshown : Shown p.area p.st.scrollPx k) :
    ((p.step (.event .push (buttonRect p.area p.st.scrollPx k).x (buttonRect p.area p.st.scrollPx k).y)).step
      (.event .released (buttonRect p.area p.st.scrollPx k).x (buttonRect p.area p.st.scrollPx k).y)).stopped =
        p.stopped ++ [id] := by
  obtain ⟨slot, _, rfl⟩ := slot_of_shown h.inRange.1 hshown
  generalize hk : (p.st.scrollPx / 46).toNat + slot = k at *
  have hunder : Under p.area p.st.scrollPx (buttonRect p.area p.st.scrollPx k).x
      (buttonRect p.area p.st.scrollPx k).y k := by
    refine ⟨hshown, contains_iff.mpr ?_⟩
    simp only [buttonRect, Rect.right, Rect.bottom]
    omega
  generalize (buttonRect p.area p.st.scrollPx k).x = x at *
  generalize (buttonRect p.area p.st.scrollPx k).y = y at *
  have hhit : p.hit x y = some slot := (hit_eq_some h).mpr (by
    rw [hk]
    exact ⟨(List.getElem?_eq_some_iff.mp hid).1, hunder⟩)
  refine (released_stopped x y id).mpr ⟨slot, hhit, hhit, ?_⟩
  show p.st.rows[slot]?.map RowHit.sessionId = some id
  rw [row_of_hit h hhit, hk, hid]

theorem listRows_areaRect (card : Rect) : (listRows (areaRect card) : Int) = max ((areaRect card).h / 46) 1 := by
  have hdiv : ((areaRect card).h).tdiv rowH = (areaRect card).h / 46 :=
    Int.tdiv_eq_ediv_of_nonneg (Int.le_max_right _ 0)
  unfold listRows
  rw [hdiv]
  omega

/-- Wheeled to place `k` or to the end, the corner of the button there is on a page of some size. -/
theorem corner_on_page {page : Rect} {n k : Nat} (hk : k < n) (hh : 546 ≤ page.h) (hw : 94 ≤ page.w) :
    page.contains
      (buttonRect (areaRect (cardRect page n))
        (min (46 * (k : Int)) (tableMaxScroll n (listRows (areaRect (cardRect page n))))) k).x
      (buttonRect (areaRect (cardRect page n))
        (min (46 * (k : Int)) (tableMaxScroll n (listRows (areaRect (cardRect page n))))) k).y = true := by
  have hrows := listRows_areaRect (cardRect page n)
  generalize listRows (areaRect (cardRect page n)) = fit at *
  simp only [contains_iff, buttonRect, areaRect, cardRect, roomIn, roomFor, needed, sessionChromeH, rowH,
    tableMaxScroll, listMaxScroll, Rect.right, Rect.bottom] at *
  omega

/-- From every state, the wheel alone brings every session to its button: up to the top, and down to its row. A
    page of 546 by 94 units or more has a point of the button on it. -/
theorem every_session_can_be_stopped (rect : Rect) (calls : List Call) (k id : Nat)
    (hid : (ConsolePage.run rect calls).st.sessions[k]? = some id) :
    ∃ x y, (ConsolePage.run rect (calls ++
        List.replicate (ConsolePage.run rect calls).st.sessions.length (.wheel (-1)) ++ List.replicate k (.wheel 1) ++
        [.event .push x y, .event .released x y])).stopped = (ConsolePage.run rect calls).stopped ++ [id] ∧
      (546 ≤ (ConsolePage.run rect calls).rect.h → 94 ≤ (ConsolePage.run rect calls).rect.w →
        (ConsolePage.run rect calls).rect.contains x y = true) := by
  have h := run_good rect calls
  obtain ⟨hup, htop⟩ := wheel_up h (ConsolePage.run rect calls).st.sessions.length
  obtain ⟨hdown, hrow⟩ := wheel_down hup.good k
  have hall := hup.trans hdown
  have hzero : max ((ConsolePage.run rect calls).st.scrollPx -
      46 * (ConsolePage.run rect calls).st.sessions.length) 0 = 0 := by
    have hmax := h.inRange.2
    have hpos := listRows_pos (ConsolePage.run rect calls).area
    simp only [tableMaxScroll, listMaxScroll, rowH] at hmax
    omega
  rw [htop, hzero, Int.zero_add, hup.sessions, hup.area] at hrow
  simp only [ConsolePage.run, List.foldl_append, List.foldl_cons, List.foldl_nil] at *
  rw [← hall.stopped]
  have hk := (List.getElem?_eq_some_iff.mp hid).1
  refine ⟨_, _, click_stops hall.good (by rw [hall.sessions]; exact hid) ?_, fun hh hw => ?_⟩
  · rw [hall.area, hrow]
    exact shown_at hk
  · rw [hall.area, hrow]
    exact corner_on_page hk hh hw

/-- The third session of a short page. -/
theorem third_session_stopped :
    ∃ x y, (ConsolePage.run ⟨0, 0, 944, 600⟩ ([.setData [7, 8, 9]] ++ List.replicate 3 (.wheel (-1)) ++
      List.replicate 2 (.wheel 1) ++ [.event .push x y, .event .released x y])).stopped = [] ++ [9] ∧
      (⟨0, 0, 944, 600⟩ : Rect).contains x y = true := by
  obtain ⟨x, y, hstopped, hpage⟩ := every_session_can_be_stopped ⟨0, 0, 944, 600⟩ [.setData [7, 8, 9]] 2 9 rfl
  exact ⟨x, y, hstopped, hpage (by decide) (by decide)⟩

/-! ## How high the page has to be -/

theorem listRows_ge_iff (page : Rect) (n : Nat) :
    n ≤ listRows (areaRect (cardRect page n)) ↔ n ≤ 1 ∨ 618 + 46 * (n : Int) ≤ page.h := by
  have hrows := listRows_areaRect (cardRect page n)
  generalize listRows (areaRect (cardRect page n)) = fit at *
  simp only [areaRect, cardRect, roomIn, roomFor, needed, sessionChromeH, rowH] at hrows
  omega

theorem inRange_top (area : Rect) (sessions : List Nat) : InRange area sessions 0 := by
  simp only [InRange, tableMaxScroll, listMaxScroll, rowH]
  omega

/-- At rest every session has its own live button, in order, if and only if the page is high enough for them all;
    one session has it on any page. -/
theorem all_live_iff (page : Rect) (sessions : List Nat) :
    ((computeRowHits (console sessions.length) ((console sessions.length).layout.solve page) sessions 0).map
        fun hit => (hit.sessionId, hit.stop.isSome)) = sessions.map (·, true) ↔
      sessions.length ≤ 1 ∨ 618 + 46 * (sessions.length : Int) ≤ page.h := by
  rw [← listRows_ge_iff]
  have hget := rowHits_getElem? page (inRange_top (areaRect (cardRect page sessions.length)) sessions)
  have hzero : ((0 : Int) / 46).toNat = 0 := rfl
  simp only [hzero, Nat.zero_add] at hget
  generalize computeRowHits (console sessions.length) ((console sessions.length).layout.solve page) sessions 0 = hits
    at hget
  generalize areaRect (cardRect page sessions.length) = area at *
  have hshown : ∀ slot, Shown area 0 slot ↔ slot < listRows area := by
    intro slot
    unfold Shown
    omega
  constructor
  · intro hall
    -- The last session has its button only if the band shows its row.
    by_contra hmore
    have hlast : sessions.length - 1 < sessions.length := by omega
    have := congrArg (·[sessions.length - 1]?) hall
    simp only [List.getElem?_map, hget, List.getElem?_eq_getElem hlast] at this
    by_cases hslot : sessions.length - 1 ≤ listRows area
    · rw [if_pos hslot, Option.map_some, if_neg (by rw [hshown]; omega)] at this
      cases this
    · rw [if_neg hslot] at this
      cases this
  · intro hfit
    refine List.ext_getElem? fun slot => ?_
    rw [List.getElem?_map, List.getElem?_map, hget]
    by_cases hslot : slot < sessions.length
    · rw [if_pos (by omega), if_pos ((hshown slot).mpr (by omega)), List.getElem?_eq_getElem hslot]
      rfl
    · rw [List.getElem?_eq_none (Nat.not_lt.mp hslot)]
      split <;> rfl

/-- The live buttons are those the band shows. -/
theorem live_iff {p : ConsolePage} (h : Good p) (r : Rect) :
    (∃ hit ∈ p.st.rows, hit.stop = some r) ↔
      ∃ k < p.st.sessions.length, Shown p.area p.st.scrollPx k ∧ r = buttonRect p.area p.st.scrollPx k := by
  have hget : ∀ slot, p.st.rows[slot]? = _ := fun slot =>
    (congrArg (·[slot]?) h.rows).trans (rowHits_getElem? p.rect h.inRange slot)
  have harea : areaRect (cardRect p.rect p.st.sessions.length) = p.area := rfl
  rw [harea] at hget
  constructor
  · rintro ⟨hit, hmem, hstop⟩
    obtain ⟨slot, hslot⟩ := List.mem_iff_getElem?.mp hmem
    rw [hget] at hslot
    by_cases hfit : slot ≤ listRows p.area
    · rw [if_pos hfit] at hslot
      obtain ⟨id, hid, rfl⟩ := Option.map_eq_some_iff.mp hslot
      simp only at hstop
      by_cases hshown : Shown p.area p.st.scrollPx ((p.st.scrollPx / 46).toNat + slot)
      · rw [if_pos hshown] at hstop
        exact ⟨_, (List.getElem?_eq_some_iff.mp hid).1, hshown, (Option.some.inj hstop).symm⟩
      · rw [if_neg hshown] at hstop
        cases hstop
    · rw [if_neg hfit] at hslot
      cases hslot
  · rintro ⟨k, hk, hshown, rfl⟩
    obtain ⟨slot, hfit, rfl⟩ := slot_of_shown h.inRange.1 hshown
    have hslot := hget slot
    rw [if_pos hfit, List.getElem?_eq_getElem hk, Option.map_some, if_pos hshown] at hslot
    exact ⟨_, List.mem_of_getElem? hslot, rfl⟩

/-- A button in its card, in numbers. -/
theorem button_inside_iff {page : Rect} {n : Nat} {scroll : Int} {k : Nat} :
    (buttonRect (areaRect (cardRect page n)) scroll k).inside (cardRect page n) = true ↔
      116 ≤ page.w ∧ scroll ≤ 46 * k + 35 + min 54 (roomIn (cardRect page n)) ∧
        46 * k - scroll + 59 + min 54 (roomIn (cardRect page n)) ≤ (cardRect page n).h := by
  rw [inside_iff .column]
  simp only [mainEnd, Axis.mainStart, Axis.main, Axis.crossStart, Axis.cross, buttonRect, Rect.right]
  generalize hroom : roomIn (cardRect page n) = room
  have hwidth : (cardRect page n).w = max (page.w - 44) 0 := rfl
  simp only [areaRect, hroom, hwidth]
  omega

/-- Every button the page shows is inside the card. -/
def ButtonsInside (p : ConsolePage) : Prop :=
  ∀ hit ∈ p.st.rows, ∀ r, hit.stop = some r → r.inside (p.geometry.sessionCard p.solved) = true

theorem buttonsInside_iff {p : ConsolePage} (h : Good p) :
    ButtonsInside p ↔ ∀ k < p.st.sessions.length, Shown p.area p.st.scrollPx k →
      (buttonRect p.area p.st.scrollPx k).inside (cardRect p.rect p.st.sessions.length) = true := by
  have hcard : p.geometry.sessionCard p.solved = cardRect p.rect p.st.sessions.length := sessionCard_eq _ _
  unfold ButtonsInside
  rw [hcard]
  constructor
  · intro hall k hk hshown
    obtain ⟨hit, hmem, hstop⟩ := (live_iff h _).mpr ⟨k, hk, hshown, rfl⟩
    exact hall hit hmem _ hstop
  · intro hall hit hmem r hstop
    obtain ⟨k, hk, hshown, rfl⟩ := (live_iff h r).mp ⟨hit, hmem, hstop⟩
    exact hall k hk hshown

/-- In every run on a page, every live button is inside the card, if and only if the page is 656 high and 116 wide:
    below that height the one row that is always listed leaves the card. -/
theorem buttons_inside_iff (page : Rect) :
    (∀ calls, (ConsolePage.run page calls).rect = page → ButtonsInside (.run page calls)) ↔
      656 ≤ page.h ∧ 116 ≤ page.w := by
  constructor
  · intro hall
    -- A page scrolled until the button of the second session is at the end of the band.
    have hstart := run_good page [.setData [0, 1]]
    obtain ⟨hrect, hsessions, hscroll, _⟩ := scrollTo_eq hstart 35
    have hin := (buttonsInside_iff (run_good page [.setData [0, 1], .scrollTo 35])).mp
      (hall [.setData [0, 1], .scrollTo 35] hrect)
    change (ConsolePage.run page [.setData [0, 1], .scrollTo 35]).rect = page at hrect
    change (ConsolePage.run page [.setData [0, 1], .scrollTo 35]).st.sessions = [0, 1] at hsessions
    change (ConsolePage.run page [.setData [0, 1], .scrollTo 35]).st.scrollPx =
      clampTo 35 (tableMaxScroll 2 (listRows (areaRect (cardRect page 2)))) at hscroll
    generalize ConsolePage.run page [.setData [0, 1], .scrollTo 35] = p at *
    have harea : p.area = areaRect (cardRect page 2) := by
      unfold ConsolePage.area
      rw [hrect, hsessions]
      rfl
    rw [harea, hrect, hsessions, hscroll] at hin
    by_cases hlow : listRows (areaRect (cardRect page 2)) = 1
    · have hend : clampTo 35 (tableMaxScroll 2 1) = 35 := by
        unfold clampTo
        decide
      rw [hlow, hend] at hin
      obtain ⟨hw, _, hbottom⟩ := button_inside_iff.mp (hin 1 (by decide) ⟨by decide, by rw [hlow]; decide⟩)
      refine ⟨?_, hw⟩
      simp only [roomIn, cardRect, roomFor, needed, sessionChromeH, rowH] at hbottom
      omega
    · have hpos := listRows_pos (areaRect (cardRect page 2))
      have htop : clampTo 35 (tableMaxScroll 2 (listRows (areaRect (cardRect page 2)))) = 0 := by
        simp only [clampTo, tableMaxScroll, listMaxScroll, rowH]
        omega
      rw [htop] at hin
      obtain ⟨hw, _, _⟩ := button_inside_iff.mp (hin 0 (by decide) ⟨by decide, by omega⟩)
      have hhigh := (listRows_ge_iff page 2).mp (by omega)
      exact ⟨by omega, hw⟩
  · rintro ⟨hh, hw⟩ calls hrect
    have h := run_good page calls
    generalize ConsolePage.run page calls = p at *
    rw [buttonsInside_iff h]
    intro k hk hshown
    obtain ⟨htop, hbottom⟩ := hshown
    refine button_inside_iff.mpr ⟨by rw [hrect]; exact hw, ?_⟩
    unfold ConsolePage.area at hbottom
    rw [listRows_areaRect] at hbottom
    simp only [areaRect, roomIn, cardRect, roomFor, needed, sessionChromeH, rowH, hrect] at *
    omega

end RemoteX11.Gui.Console
