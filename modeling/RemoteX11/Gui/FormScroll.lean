/-
  Scrolling a settings page (`pages/form/scroll.rs`, the `layout` and `install_input` of `pages/form/mod.rs`, the `Grip`
  of `ui/kit.rs` and the `hit` of `ui/scrollbar.rs`).

  The widgets of a page are its fields' inputs, by their keys, and the button that picks the identity file; the other
  buttons, which do not scroll, are left out. The numbers of a page are plain, those of a bar are `i32`s as in
  `Gui.ScrollBar`. Whatever happens to a page, its inputs are where the rows of the tree are (`run_good`). From it:
  which inputs are shown (`input_shown_iff`), that none of them is above or below the band and no two overlap
  (`shown_clear`), that the keys bring every field into view (`every_field_reachable`), and when the button is on its
  field (`button_on_row_iff`). The rectangle of an input is that of its control; `Field::resize` leaves a pixel of it
  on every side.
-/
import RemoteX11.Gui.Form
import RemoteX11.Gui.SessionTable

namespace RemoteX11.Gui

open RemoteX11.Lib

/-! ## The bar under the pointer -/

inductive Hit where
  | thumb (grab : Int32)
  | track (dir : Int32)
  deriving DecidableEq

/-- `BAR_W`. -/
def barW : Int32 := 4

def ScrollBar.hit (b : ScrollBar) (px py : Int32) : Option Hit :=
  if px < b.x ∨ px > b.x + barW + 4 then none
  else if py < b.top ∨ py > b.top + b.height then none
  else if py ≥ b.thumbTop ∧ py < b.thumbTop + b.thumbH then some (.thumb (py - b.thumbTop))
  else if py < b.thumbTop then some (.track (-1))
  else some (.track 1)

/-- `fltk::enums::Key`, as far as a page reads it. -/
inductive NavKey where
  | up
  | down
  | pageUp
  | pageDown
  | home
  | «end»
  | other
  deriving DecidableEq

inductive Glide where
  | by (d : Int)
  | page (dir : Int32)
  | start
  | «end»
  deriving DecidableEq

def glide (key : NavKey) (rowPx : Int) : Option Glide :=
  match key with
  | .up => some (.by (-rowPx))
  | .down => some (.by rowPx)
  | .pageUp => some (.page (-1))
  | .pageDown => some (.page 1)
  | .home => some .start
  | .end => some .end
  | .other => none

inductive PageInput where
  | wheel (dy : Int)
  | push (x y : Int32)
  | drag (x y : Int32)
  | release
  | key (key : NavKey)
  deriving DecidableEq

structure Grip where
  grab : Option Int32
  knob : Option Int32
  deriving DecidableEq

namespace Form

open RemoteX11.Gui.Console (clampTo)

/-! ## The band -/

/-- `page_y_start`. -/
def pageYStart (pageY pad : Int) : Int := pageY + pad + 64 + 20

/-- `scroll_band`. -/
def scrollBand (r : Rect) : Rect :=
  let top := r.y + pad + 84
  let bottom := r.y + r.h - pad
  ⟨r.x + pad, top, max (r.w - pad * 2 - sideW - gap + 16) 40, bottom - top⟩

/-- `row_fits`. -/
def rowFits (g : RowGeom) (top bottom : Int) : Bool := decide (g.inputY ≥ top) && decide (g.hintY + 16 ≤ bottom)

/-! ## The page -/

structure FormState where
  scroll : Int
  contentH : Int
  viewH : Int
  grip : Grip
  deriving DecidableEq

/-- A widget: where it is, and whether it is shown. -/
structure Placed where
  rect : Rect
  shown : Bool
  deriving DecidableEq, Repr

structure FormPage where
  page : Page
  st : FormState
  widgets : Key → Placed
  pickFile : Option Rect
  rect : Rect

/-- `scroll_bar`. -/
def scrollBar (r : Rect) (s : FormState) : Option ScrollBar :=
  let band := scrollBand r
  let contentX := r.x + pad
  let contentW := r.w - pad * 2
  let mainW := contentW - sideW - gap
  ScrollBar.new (.ofInt (contentX + mainW + 5)) (.ofInt band.y) (.ofInt band.h) (.ofInt s.contentH) (.ofInt band.h)
    (.ofInt s.scroll)

/-- The rectangle an input is resized to; a switch keeps its size. -/
def inputRect (r : Rect) (g : RowGeom) (widget : Widget) (old : Rect) : Rect :=
  let inputX := r.x + pad + 18 + labelCol
  let inputW := (r.w - pad * 2 - sideW - gap) - 36 - labelCol
  match widget with
  | .text => ⟨inputX, g.inputY, inputW, g.inputH⟩
  | .toggle => { old with x := inputX, y := g.inputY + 2 }
  | .select _ => ⟨inputX, g.inputY, min inputW 320, g.inputH⟩

namespace FormPage

/-- `place_fields`. -/
def placeFields (p : FormPage) : FormPage :=
  let rows := (geometry (spec p.page) p.rect.x p.rect.y p.rect.w p.st.scroll).2
  let band := scrollBand p.rect
  { p with
    widgets := fun key =>
      match rows.find? fun g => g.key = key with
      | none => p.widgets key
      | some g =>
        { rect := inputRect p.rect g key.widget (p.widgets key).rect, shown := rowFits g band.y (band.y + band.h) } }

/-- `apply_scroll`. -/
def applyScroll (p : FormPage) (value : Int) : Bool × FormPage :=
  let max_ := max (p.st.contentH - p.st.viewH) 0
  let next := clampTo value max_
  if next = p.st.scroll then (false, p) else (true, placeFields { p with st := { p.st with scroll := next } })

/-- `layout`. -/
def layout (p : FormPage) : FormPage :=
  let r := p.rect
  let solved := formLayout (spec p.page) r.x r.y r.w 0
  let viewH := r.h - (pageYStart r.y pad - r.y)
  let contentH := solved.contentBottom - pageYStart r.y pad
  let scroll := clampTo p.st.scroll (max (contentH - viewH) 0)
  let pickFile := p.pickFile.map fun old =>
    match (formLayout (spec p.page) r.x r.y r.w scroll).rowRect "identity" with
    | some row => ⟨row.x + labelCol + (row.w - labelCol) - 104, row.y + 4, 104, 26⟩
    | none => old
  placeFields { p with
    st := { p.st with scroll := scroll, contentH := contentH, viewH := viewH }
    pickFile := pickFile }

/-- A widget as it is built. -/
def fresh (widget : Widget) : Placed :=
  match widget with
  | .toggle => ⟨⟨0, 0, 38, 20⟩, true⟩
  | _ => ⟨⟨0, 0, 10, 10⟩, true⟩

/-- `new`. -/
def new (page : Page) (rect : Rect) : FormPage :=
  let hasIdentity := (keysFor (spec page)).any fun key => "identity".toList.isSuffixOf key.path.toList
  layout {
    page := page
    st := ⟨0, 0, rect.h, ⟨none, none⟩⟩
    widgets := fun key => fresh key.widget
    pickFile := if hasIdentity then some ⟨0, 0, 10, 10⟩ else none
    rect := rect }

/-- `resize`. -/
def resize (p : FormPage) (rect : Rect) : FormPage := layout { p with rect := rect }

/-- `show`. -/
def «show» (p : FormPage) : FormPage := placeFields p

/-! ## Input -/

def setGrip (p : FormPage) (grip : Grip) : FormPage := { p with st := { p.st with grip := grip } }

def bar (p : FormPage) : Option ScrollBar := scrollBar p.rect p.st

def scrollBy (p : FormPage) (d : Int) : Bool × FormPage := p.applyScroll (p.st.scroll + d)

/-- The `wheel` of `install_input`. -/
def wheel (p : FormPage) (dy : Int) : Bool × FormPage :=
  if p.st.contentH > p.st.viewH then (true, (p.applyScroll (p.st.scroll + (dy * rowH * 3).tdiv 2)).2) else (false, p)

/-- `Grip::on_key`, with the row of a form. -/
def onKey (p : FormPage) (key : NavKey) : Bool × FormPage :=
  match glide key rowH, p.bar with
  | some (.by d), some _ => p.scrollBy d
  | some (.page dir), some b => p.scrollBy (dir * b.view).toInt
  | some .start, some _ => p.applyScroll 0
  | some .end, some _ => p.applyScroll 2147483647
  | _, _ => (false, p)

/-- `Grip::on_input`. -/
def onInput (p : FormPage) : PageInput → Bool × FormPage
  | .wheel dy => if dy = 0 then (false, p) else p.wheel dy
  | .push x y =>
    match p.bar with
    | none => (false, p)
    | some b =>
      match b.hit x y with
      | some (.thumb grab) => (true, p.setGrip ⟨some grab, some b.thumbTop⟩)
      | some (.track dir) => (true, (p.scrollBy (dir * b.view).toInt).2)
      | none => (false, p)
  | .drag _ y =>
    match p.st.grip.grab, p.bar with
    | some grab, some b =>
      let (lo, hi) := b.knobTopRange
      let knob := ScrollBar.clamp (y - grab) lo hi
      (true, ((p.setGrip ⟨some grab, some knob⟩).applyScroll (b.scrollAt knob).toInt).2)
    | _, _ => (false, p)
  | .release => (p.st.grip.grab.isSome, p.setGrip ⟨none, none⟩)
  | .key _ => (false, p)

/-- The handler of `install_input`. -/
def input (p : FormPage) : PageInput → Bool × FormPage
  | .key key => p.onKey key
  | other => p.onInput other

end FormPage

/-- What happens to a page. -/
inductive Call where
  | resize (rect : Rect)
  | show
  | input (input : PageInput)
  deriving DecidableEq

def Call.isResize : Call → Bool
  | .resize _ => true
  | _ => false

namespace FormPage

def step (p : FormPage) : Call → FormPage
  | .resize rect => p.resize rect
  | .show => p.show
  | .input i => (p.input i).2

def run (page : Page) (rect : Rect) (calls : List Call) : FormPage := calls.foldl step (new page rect)

end FormPage

/-! ## Rows by their keys -/

/-- How far below the top of the content a field's row starts. -/
def offset (page : Page) (key : Key) : Int :=
  (((rowTops 0 (spec page).sections).find? fun row => row.1 = key).map Prod.snd).getD 0

theorem rowTops_add (top d : Int) (sections : List SectionSpec) :
    rowTops (top + d) sections = (rowTops top sections).map fun row => (row.1, row.2 + d) := by
  induction sections generalizing top with
  | nil => rfl
  | cons s sections ih =>
    have hnext : top + d + s.cardH + 16 = top + s.cardH + 16 + d := by omega
    rw [rowTops, rowTops, List.map_append, List.map_map, hnext, ih]
    congr 1
    refine List.map_congr_left fun row _ => ?_
    have : top + d + 46 + 52 * (row.2 : Int) = top + 46 + 52 * (row.2 : Int) + d := by omega
    simp only [Function.comp_apply, this]

variable {page : Page} {key key' : Key}

theorem find_row (hk : key ∈ page.fields) :
    (rowTops 0 (spec page).sections).find? (fun row => row.1 = key) = some (key, offset page key) := by
  revert key
  cases page <;> decide

theorem offset_range (hk : key ∈ page.fields) :
    46 ≤ offset page key ∧ offset page key + 80 ≤ contentH (spec page) := by
  revert key
  cases page <;> decide

theorem contentH_le (page : Page) : contentH (spec page) ≤ 2000 := by cases page <;> decide

/-- The rows do not overlap. -/
theorem offset_apart (hk : key ∈ page.fields) (hk' : key' ∈ page.fields) (hne : key ≠ key') :
    offset page key + 52 ≤ offset page key' ∨ offset page key' + 52 ≤ offset page key := by
  have hrows : ∀ key ∈ page.fields, ∀ key' ∈ page.fields, key ≠ key' →
      offset page key + 52 ≤ offset page key' ∨ offset page key' + 52 ≤ offset page key := by
    cases page <;> decide +kernel
  exact hrows key hk key' hk' hne

/-- The row of a field in the geometry of its page. -/
theorem find_geometry (hk : key ∈ page.fields) (x y w scroll : Int) :
    (geometry (spec page) x y w scroll).2.find? (fun g => g.key = key) =
      some (rowGeom key (y + 106 - scroll + offset page key)) := by
  have htops : rowTops (y + 106 - scroll) (spec page).sections =
      (rowTops 0 (spec page).sections).map fun row => (row.1, row.2 + (y + 106 - scroll)) := by
    rw [← rowTops_add, Int.zero_add]
  rw [rows_eq (fits_spec page), htops, List.map_map, List.find?_map]
  have hfind := find_row hk
  simp only [Function.comp_def, rowGeom] at hfind ⊢
  rw [hfind, Option.map_some, Int.add_comm (offset page key)]

-- An offset is read by these lemmas only.
attribute [irreducible] offset

/-! ## Where the inputs are -/

namespace FormPage

variable {p : FormPage}

/-- The row of a field. -/
def row (p : FormPage) (key : Key) : RowGeom :=
  rowGeom key (p.rect.y + 106 - p.st.scroll + offset p.page key)

/-- An input on its row. -/
def placedAt (p : FormPage) (key : Key) : Placed where
  rect := inputRect p.rect (p.row key) key.widget (fresh key.widget).rect
  shown := rowFits (p.row key) (scrollBand p.rect).y ((scrollBand p.rect).y + (scrollBand p.rect).h)

/-- The switches have their size. -/
def Sized (p : FormPage) : Prop :=
  ∀ key ∈ p.page.fields, key.widget = .toggle → (p.widgets key).rect.w = 38 ∧ (p.widgets key).rect.h = 20

/-- The numbers of the state are those of the page and its form, and the offset is in range. -/
structure Measured (p : FormPage) : Prop where
  contentH : p.st.contentH = Form.contentH (spec p.page)
  viewH : p.st.viewH = p.rect.h - 106
  range : 0 ≤ p.st.scroll ∧ p.st.scroll ≤ max (p.st.contentH - p.st.viewH) 0

structure Good (p : FormPage) : Prop extends Measured p where
  widgets : ∀ key ∈ p.page.fields, p.widgets key = p.placedAt key

theorem Good.sized (h : p.Good) : p.Sized := by
  intro key hk htoggle
  rw [h.widgets key hk, placedAt, htoggle]
  exact ⟨rfl, rfl⟩

theorem placeFields_widgets (h : p.Sized) (hk : key ∈ p.page.fields) : p.placeFields.widgets key = p.placedAt key := by
  have hrect : inputRect p.rect (p.row key) key.widget (p.widgets key).rect =
      inputRect p.rect (p.row key) key.widget (fresh key.widget).rect := by
    cases hwidget : key.widget with
    | toggle =>
      obtain ⟨hw, hh⟩ := h key hk hwidget
      simp only [inputRect, fresh, hw, hh]
    | text => rfl
    | select items => rfl
  unfold placeFields placedAt
  simp only [find_geometry hk]
  rw [← hrect]
  rfl

theorem placeFields_good (h : p.Sized) (hm : p.Measured) : p.placeFields.Good where
  contentH := hm.contentH
  viewH := hm.viewH
  range := hm.range
  widgets := fun _ hk => placeFields_widgets h hk

theorem applyScroll_good (h : p.Good) (value : Int) :
    (p.applyScroll value).2.Good ∧ (p.applyScroll value).2.st.scroll =
      clampTo value (max (p.st.contentH - p.st.viewH) 0) ∧
      (p.applyScroll value).2.page = p.page ∧ (p.applyScroll value).2.rect = p.rect ∧
      (p.applyScroll value).2.pickFile = p.pickFile := by
  have hrange : 0 ≤ clampTo value (max (p.st.contentH - p.st.viewH) 0) ∧
      clampTo value (max (p.st.contentH - p.st.viewH) 0) ≤ max (p.st.contentH - p.st.viewH) 0 := by
    unfold clampTo
    omega
  unfold applyScroll
  simp only
  split
  · rename_i hsame
    exact ⟨h, hsame.symm, rfl, rfl, rfl⟩
  · exact ⟨placeFields_good h.sized ⟨h.contentH, h.viewH, hrange⟩, rfl, rfl, rfl, rfl⟩

theorem layout_good (h : p.Sized) : p.layout.Good := by
  have hbottom := contentBottom_eq (fits_spec p.page) p.rect.x p.rect.y p.rect.w
  unfold layout
  simp only
  refine placeFields_good h ⟨?_, ?_, ?_⟩
  · simp only [hbottom, pageYStart, pad]
    omega
  · simp only [pageYStart, pad]
    omega
  · simp only
    unfold clampTo
    omega

theorem setGrip_good (h : p.Good) (grip : Grip) : (p.setGrip grip).Good :=
  ⟨⟨h.contentH, h.viewH, h.range⟩, h.widgets⟩

/-- An input changes the grip, and may ask for an offset. -/
theorem input_cases (p : FormPage) (i : PageInput) :
    ∃ grip, (p.input i).2 = p.setGrip grip ∨ ∃ value, (p.input i).2 = ((p.setGrip grip).applyScroll value).2 := by
  have hsame : p = p.setGrip p.st.grip := rfl
  cases i with
  | wheel dy =>
    refine ⟨p.st.grip, ?_⟩
    simp only [input, onInput, wheel]
    split
    · exact .inl hsame
    · split
      · exact .inr ⟨_, rfl⟩
      · exact .inl hsame
  | push x y =>
    simp only [input, onInput]
    split
    · exact ⟨p.st.grip, .inl hsame⟩
    · split
      · exact ⟨_, .inl rfl⟩
      · exact ⟨p.st.grip, .inr ⟨_, rfl⟩⟩
      · exact ⟨p.st.grip, .inl hsame⟩
  | drag x y =>
    simp only [input, onInput]
    split
    · exact ⟨_, .inr ⟨_, rfl⟩⟩
    · exact ⟨p.st.grip, .inl hsame⟩
  | release => exact ⟨_, .inl rfl⟩
  | key key =>
    refine ⟨p.st.grip, ?_⟩
    simp only [input, onKey]
    split
    · exact .inr ⟨_, rfl⟩
    · exact .inr ⟨_, rfl⟩
    · exact .inr ⟨_, rfl⟩
    · exact .inr ⟨_, rfl⟩
    · exact .inl hsame

/-- What every step keeps, and what only a new size changes. -/
theorem input_good (h : p.Good) (i : PageInput) :
    (p.input i).2.Good ∧ (p.input i).2.page = p.page ∧ (p.input i).2.rect = p.rect ∧
      (p.input i).2.pickFile = p.pickFile := by
  obtain ⟨grip, hgrip | ⟨value, hvalue⟩⟩ := input_cases p i
  · rw [hgrip]
    exact ⟨setGrip_good h grip, rfl, rfl, rfl⟩
  · obtain ⟨hgood, _, hpage, hrect, hpick⟩ := applyScroll_good (setGrip_good h grip) value
    rw [hvalue]
    exact ⟨hgood, hpage, hrect, hpick⟩

theorem step_good (h : p.Good) (c : Call) : (p.step c).Good ∧ (p.step c).page = p.page := by
  cases c with
  | resize rect =>
    have hsized : FormPage.Sized { p with rect := rect } := h.sized
    exact ⟨layout_good hsized, rfl⟩
  | «show» => exact ⟨placeFields_good h.sized h.toMeasured, rfl⟩
  | input i =>
    obtain ⟨hgood, hpage, _⟩ := input_good h i
    exact ⟨hgood, hpage⟩

theorem foldl_good (h : p.Good) (calls : List Call) :
    (calls.foldl step p).Good ∧ (calls.foldl step p).page = p.page := by
  induction calls generalizing p with
  | nil => exact ⟨h, rfl⟩
  | cons c calls ih =>
    obtain ⟨hgood, hpage⟩ := step_good h c
    rw [List.foldl_cons, ← hpage]
    exact ih hgood

theorem new_good (page : Page) (rect : Rect) : (new page rect).Good ∧ (new page rect).page = page := by
  refine ⟨layout_good fun key _ htoggle => ?_, rfl⟩
  simp only [htoggle]
  exact ⟨rfl, rfl⟩

/-- In every run the inputs are on their rows. -/
theorem run_good (page : Page) (rect : Rect) (calls : List Call) :
    (run page rect calls).Good ∧ (run page rect calls).page = page := by
  obtain ⟨hnew, hpage⟩ := new_good page rect
  obtain ⟨hgood, hsame⟩ := foldl_good hnew calls
  exact ⟨hgood, hsame.trans hpage⟩

/-! ## The inputs that are shown -/

/-- The offset shows the whole row of a field. -/
def ShowsRow (p : FormPage) (key : Key) : Prop :=
  p.st.scroll ≤ offset p.page key ∧ offset p.page key + 47 ≤ p.st.scroll + (p.rect.h - 128)

instance (p : FormPage) (key : Key) : Decidable (p.ShowsRow key) := inferInstanceAs (Decidable (_ ∧ _))

theorem placedAt_shown : (p.placedAt key).shown = true ↔ p.ShowsRow key := by
  unfold placedAt rowFits
  rw [Bool.and_eq_true, decide_eq_true_iff, decide_eq_true_iff]
  simp only [row, rowGeom, scrollBand, pad, ShowsRow]
  omega

/-- The input of a field as it is after a run. -/
theorem run_widget (page : Page) (rect : Rect) (calls : List Call) (hk : key ∈ page.fields) :
    (run page rect calls).widgets key = (run page rect calls).placedAt key := by
  obtain ⟨hgood, hpage⟩ := run_good page rect calls
  refine hgood.widgets key ?_
  rwa [hpage]

/-- **In every run an input is on the row of its field**, and it is shown if and only if the offset shows all of the
    row, down to its hint. -/
theorem input_shown_iff (page : Page) (rect : Rect) (calls : List Call) (hk : key ∈ page.fields) :
    ((run page rect calls).widgets key).rect.y = (run page rect calls).rect.y + 106 + offset page key -
        (run page rect calls).st.scroll + (if key.widget = .toggle then 2 else 0) ∧
      (((run page rect calls).widgets key).shown = true ↔ (run page rect calls).ShowsRow key) := by
  obtain ⟨_, hpage⟩ := run_good page rect calls
  rw [run_widget page rect calls hk]
  refine ⟨?_, placedAt_shown⟩
  simp only [placedAt, inputRect, row, rowGeom, hpage]
  cases key.widget with
  | toggle =>
    simp only [if_true]
    omega
  | text =>
    simp only [reduceCtorEq, if_false]
    omega
  | select items =>
    simp only [reduceCtorEq, if_false]
    omega

/-- The end key shows the last field of the longest page. -/
theorem last_field_shown :
    ((run .runtime ⟨216, 52, 900, 600⟩ [.input (.key .end)]).widgets .flowResumeBytes).shown = true :=
  (input_shown_iff .runtime ⟨216, 52, 900, 600⟩ [.input (.key .end)] (by decide)).2.mpr (by decide +kernel)

/-- An input is no higher than the part of its row above the hint. -/
theorem placedAt_height (p : FormPage) (key : Key) :
    (p.row key).inputY ≤ (p.placedAt key).rect.y ∧
      (p.placedAt key).rect.bottom ≤ (p.row key).inputY + 32 := by
  simp only [placedAt, inputRect, row, rowGeom, Rect.bottom, fresh]
  cases key.widget with
  | toggle =>
    simp only
    omega
  | text =>
    simp only [reduceCtorEq, if_false]
    omega
  | select items =>
    simp only [reduceCtorEq, if_false]
    omega

/-- The input of a field is between the top and the bottom of the band, and above or below that of another. -/
def Clear (p : FormPage) (key key' : Key) : Prop :=
  ((scrollBand p.rect).y ≤ (p.widgets key).rect.y ∧ (p.widgets key).rect.bottom ≤ (scrollBand p.rect).bottom) ∧
    ((p.widgets key).rect.bottom ≤ (p.widgets key').rect.y ∨ (p.widgets key').rect.bottom ≤ (p.widgets key).rect.y)

/-- **In every run the inputs that are shown are between the top and the bottom of the band**, under the heading, and
    no two of them overlap. -/
theorem shown_clear (page : Page) (rect : Rect) (calls : List Call) (hk : key ∈ page.fields)
    (hk' : key' ∈ page.fields) (hne : key ≠ key') (hshown : ((run page rect calls).widgets key).shown = true) :
    (run page rect calls).Clear key key' := by
  obtain ⟨_, hpage⟩ := run_good page rect calls
  have hwidget := run_widget page rect calls hk
  have hwidget' := run_widget page rect calls hk'
  obtain ⟨hlo, hhi⟩ := placedAt_height (run page rect calls) key
  obtain ⟨hlo', hhi'⟩ := placedAt_height (run page rect calls) key'
  rw [hwidget] at hshown
  obtain ⟨htop, hbottom⟩ := placedAt_shown.mp hshown
  have hapart := offset_apart hk hk' hne
  unfold Clear
  rw [hwidget, hwidget']
  simp only [row, rowGeom, hpage] at hlo hhi hlo' hhi' htop hbottom
  simp only [scrollBand, Rect.bottom, pad] at *
  omega

/-- Two switches after nine notches of the wheel. -/
theorem switches_clear : (run .runtime ⟨216, 52, 900, 600⟩ [.input (.wheel 9)]).Clear .audioForward .audioPerApp :=
  shown_clear .runtime ⟨216, 52, 900, 600⟩ [.input (.wheel 9)] (by decide) (by decide) (by decide)
    (by decide +kernel)

/-! ## Scrolling with the keys -/

/-- A page that is not all shown has a bar. -/
theorem bar_eq (h : p.Good) (hlo : 128 < p.rect.h) (hhi : p.rect.h < 2 ^ 31) (hover : p.st.viewH < p.st.contentH) :
    ∃ b, p.bar = some b := by
  have hle := contentH_le p.page
  have hcontent := h.contentH
  have hview := h.viewH
  have hband : (scrollBand p.rect).h = p.rect.h - 128 := by
    simp only [scrollBand, pad]
    omega
  have hheight : (Int32.ofInt (p.rect.h - 128)).toInt = p.rect.h - 128 := toInt_ofInt_of_fits ⟨by omega, by omega⟩
  have htotal : (Int32.ofInt p.st.contentH).toInt = p.st.contentH := toInt_ofInt_of_fits ⟨by omega, by omega⟩
  have hmax : (Int32.ofInt p.st.contentH - Int32.ofInt (p.rect.h - 128)).toInt = p.st.contentH - (p.rect.h - 128) := by
    rw [toInt_sub_of_fits, htotal, hheight]
    rw [htotal, hheight]
    exact ⟨by omega, by omega⟩
  have hzero : (0 : Int32).toInt = 0 := rfl
  unfold bar scrollBar ScrollBar.new
  simp only [hband]
  rw [if_neg]
  · exact ⟨_, rfl⟩
  · rintro (hle | hle | hle)
    · rw [Int32.le_iff_toInt_le, hmax, hzero] at hle
      omega
    · rw [Int32.le_iff_toInt_le, hheight, hzero] at hle
      omega
    · rw [Int32.le_iff_toInt_le, htotal, hzero] at hle
      omega

/-- A page after some presses of a key. -/
def press (p : FormPage) (key : NavKey) (n : Nat) : FormPage :=
  (List.replicate n (Call.input (.key key))).foldl step p

theorem press_succ (p : FormPage) (key : NavKey) (n : Nat) :
    p.press key (n + 1) = (p.input (.key key)).2.press key n := rfl

/-- Each press of the down key moves the content by a row, as far as there is one. -/
theorem press_down (h : p.Good) (hlo : 128 < p.rect.h) (hhi : p.rect.h < 2 ^ 31) (hover : p.st.viewH < p.st.contentH)
    (n : Nat) :
    (p.press .down n).Good ∧ (p.press .down n).page = p.page ∧ (p.press .down n).rect = p.rect ∧
      (p.press .down n).st.scroll = min (p.st.scroll + 52 * (n : Int)) (p.st.contentH - p.st.viewH) := by
  induction n generalizing p with
  | zero =>
    have hrange := h.range
    refine ⟨h, rfl, rfl, ?_⟩
    show p.st.scroll = _
    omega
  | succ n ih =>
    obtain ⟨b, hb⟩ := bar_eq h hlo hhi hover
    obtain ⟨hgood, hpage, hrect, _⟩ := input_good h (.key .down)
    have hscroll : (p.input (.key .down)).2.st.scroll =
        clampTo (p.st.scroll + 52) (max (p.st.contentH - p.st.viewH) 0) := by
      have hinput : (p.input (.key .down)).2 = (p.applyScroll (p.st.scroll + 52)).2 := by
        simp only [input, onKey, glide, hb, scrollBy, rowH]
      rw [hinput]
      exact (applyScroll_good h _).2.1
    have hcontent : (p.input (.key .down)).2.st.contentH = p.st.contentH := by
      rw [hgood.contentH, h.contentH, hpage]
    have hview : (p.input (.key .down)).2.st.viewH = p.st.viewH := by
      rw [hgood.viewH, h.viewH, hrect]
    obtain ⟨hgood', hpage', hrect', hscroll'⟩ := ih hgood (by rwa [hrect]) (by rwa [hrect]) (by rwa [hcontent, hview])
    rw [press_succ]
    refine ⟨hgood', hpage'.trans hpage, hrect'.trans hrect, ?_⟩
    have hrange := h.range
    rw [hscroll', hscroll, hcontent, hview]
    unfold clampTo
    omega

/-- The home key goes back to the top, if the page is not all shown. -/
theorem press_home (h : p.Good) (hlo : 128 < p.rect.h) (hhi : p.rect.h < 2 ^ 31) :
    (p.input (.key .home)).2.st.scroll = 0 := by
  obtain ⟨hgood, hpage, hrect, _⟩ := input_good h (.key .home)
  by_cases hover : p.st.viewH < p.st.contentH
  · obtain ⟨b, hb⟩ := bar_eq h hlo hhi hover
    have hinput : (p.input (.key .home)).2 = (p.applyScroll 0).2 := by
      simp only [input, onKey, glide, hb]
    rw [hinput, (applyScroll_good h 0).2.1]
    unfold clampTo
    omega
  · have hrange := hgood.range
    rw [hgood.contentH, hgood.viewH, hpage, hrect, ← h.contentH, ← h.viewH] at hrange
    omega

/-- **The keys bring every field into view**: on a page that is high enough, from wherever it was scrolled to, the home
    key and some presses of the down key show all of the field's row. -/
theorem every_field_reachable (page : Page) (rect : Rect) (calls : List Call) (hk : key ∈ page.fields)
    (hlo : 226 ≤ (run page rect calls).rect.h) (hhi : (run page rect calls).rect.h < 2 ^ 31) :
    ∃ n, ((run page rect (calls ++ .input (.key .home) ::
      List.replicate n (.input (.key .down)))).widgets key).shown = true := by
  obtain ⟨hgood, hpage⟩ := run_good page rect calls
  have hmore : ∀ n, run page rect (calls ++ .input (.key .home) :: List.replicate n (.input (.key .down))) =
      ((run page rect calls).input (.key .home)).2.press .down n := by
    intro n
    rw [run, List.foldl_append, List.foldl_cons]
    rfl
  obtain ⟨hgood', hpage', hrect', _⟩ := input_good hgood (.key .home)
  have hhome := press_home hgood (by omega) hhi
  generalize run page rect calls = p at *
  generalize (p.input (.key .home)).2 = q at *
  obtain ⟨hoff, hend⟩ := offset_range hk
  have hq : q.page = page := hpage'.trans hpage
  have hcontent := hgood'.contentH
  have hview := hgood'.viewH
  rw [hq] at hcontent
  rw [hrect'] at hview
  by_cases hover : q.st.viewH < q.st.contentH
  · obtain ⟨hdown, hdownPage, hdownRect, hscroll⟩ :=
      press_down hgood' (by rw [hrect']; omega) (by rw [hrect']; omega) hover (offset page key / 52).toNat
    refine ⟨(offset page key / 52).toNat, ?_⟩
    rw [hmore, hdown.widgets key (by rwa [hdownPage, hq]), placedAt_shown]
    unfold ShowsRow
    rw [hdownPage, hq, hdownRect, hrect', hscroll]
    omega
  · refine ⟨0, ?_⟩
    have hzero : q.press .down 0 = q := rfl
    rw [hmore, hzero, hgood'.widgets key (by rwa [hq]), placedAt_shown]
    unfold ShowsRow
    rw [hq, hrect', hhome]
    omega

/-- The last field of the longest page, on the page of a window as it opens. -/
theorem last_field_reachable : ∃ n, ((run .runtime ⟨216, 52, 900, 600⟩ ([.input (.wheel 1)] ++
    .input (.key .home) :: List.replicate n (.input (.key .down)))).widgets .flowResumeBytes).shown = true :=
  every_field_reachable .runtime ⟨216, 52, 900, 600⟩ [.input (.wheel 1)] (by decide) (by decide +kernel)
    (by decide +kernel)

/-! ## The button of the identity file -/

/-- The row that is found by the end of its key. -/
theorem identity_row (x y w scroll : Int) : ∃ r, (formLayout (spec .ssh) x y w scroll).rowRect "identity" = some r ∧
    r.y = y + 106 - scroll + offset .ssh .sshIdentity := by
  obtain ⟨l, side, hl, hform⟩ := form_eq (spec .ssh)
  obtain ⟨_, hrows⟩ := column_placed hform (fits_spec .ssh) x y w (-scroll)
  have htops : rowTops (y + 106 + -scroll) (spec .ssh).sections =
      (rowTops 0 (spec .ssh).sections).map fun row => (row.1, row.2 + (y + 106 + -scroll)) := by
    rw [← rowTops_add, Int.zero_add]
  have hfind : (rowTops 0 (spec .ssh).sections).find?
      (fun row => "identity".toList.isSuffixOf row.1.path.toList) = some (.sshIdentity, offset .ssh .sshIdentity) := by
    decide +kernel
  have hrow := congrArg (List.find? fun row => "identity".toList.isSuffixOf row.1.path.toList) (hrows.trans htops)
  rw [List.find?_map, List.find?_map] at hrow
  simp only [Function.comp_def] at hrow
  rw [hfind, Option.map_some] at hrow
  obtain ⟨found, hfound, heq⟩ := Option.map_eq_some_iff.mp hrow
  obtain ⟨_, hy⟩ := Prod.mk.inj heq
  unfold SolvedForm.rowRect formLayout
  simp only [hl]
  refine ⟨_, by rw [hfound]; rfl, ?_⟩
  rw [virtualPage] at hy
  rw [hy]
  omega

/-- Right after a layout the button is on its field. -/
theorem layout_button (hssh : p.page = .ssh) (hpick : p.pickFile.isSome) :
    ∃ b, p.layout.pickFile = some b ∧ b.y = (p.layout.row .sshIdentity).inputY + 4 := by
  obtain ⟨old, hold⟩ := Option.isSome_iff_exists.mp hpick
  obtain ⟨r, hr, hy⟩ := identity_row p.rect.x p.rect.y p.rect.w p.layout.st.scroll
  refine ⟨⟨r.x + labelCol + (r.w - labelCol) - 104, r.y + 4, 104, 26⟩, ?_, ?_⟩
  · rw [← hssh] at hr
    unfold layout placeFields at hr ⊢
    simp only [hold, Option.map_some] at hr ⊢
    rw [hr]
  · have hpage : p.layout.page = .ssh := hssh
    have hrect : p.layout.rect = p.rect := rfl
    simp only [row, rowGeom, hpage, hrect]
    omega

/-- Only a new size moves the button. -/
theorem step_button (h : p.Good) {c : Call} (hc : c.isResize = false) :
    (p.step c).pickFile = p.pickFile ∧ (p.step c).rect = p.rect := by
  cases c with
  | resize rect => cases hc
  | «show» => exact ⟨rfl, rfl⟩
  | input i =>
    obtain ⟨_, _, hrect, hpick⟩ := input_good h i
    exact ⟨hpick, hrect⟩

theorem foldl_button (h : p.Good) {more : List Call} (hmore : ∀ c ∈ more, c.isResize = false) :
    (more.foldl step p).pickFile = p.pickFile ∧ (more.foldl step p).rect = p.rect := by
  induction more generalizing p with
  | nil => exact ⟨rfl, rfl⟩
  | cons c more ih =>
    obtain ⟨hpick, hrect⟩ := step_button h (hmore c List.mem_cons_self)
    rw [List.foldl_cons, ← hpick, ← hrect]
    exact ih (step_good h c).1 fun d hd => hmore d (List.mem_cons_of_mem _ hd)

/-- A page that has the button keeps it. -/
theorem foldl_has_button (h : p.Good) (calls : List Call) :
    (calls.foldl step p).pickFile.isSome = p.pickFile.isSome := by
  induction calls generalizing p with
  | nil => rfl
  | cons c calls ih =>
    have hstep : (p.step c).pickFile.isSome = p.pickFile.isSome := by
      cases c with
      | resize rect =>
        show (p.pickFile.map _).isSome = _
        rw [Option.isSome_map]
      | «show» => rfl
      | input i => rw [(step_button h rfl).1]
    rw [List.foldl_cons, ih (step_good h c).1, hstep]

theorem has_identity : ((keysFor (spec .ssh)).any fun key => "identity".toList.isSuffixOf key.path.toList) = true := by
  decide +kernel

/-- A page that was just laid out, by its window or as it was built, has its button on the field. -/
theorem laid_button (rect : Rect) {calls : List Call} (hlaid : calls.getLast?.all Call.isResize) :
    ∃ b, (run .ssh rect calls).pickFile = some b ∧ b.y = ((run .ssh rect calls).row .sshIdentity).inputY + 4 := by
  obtain rfl | ⟨before, c, rfl⟩ := List.eq_nil_or_concat calls
  · refine layout_button rfl ?_
    rw [if_pos has_identity]
    rfl
  · rw [List.concat_eq_append, List.getLast?_append, List.getLast?_singleton] at hlaid
    obtain ⟨_, hpage⟩ := run_good .ssh rect before
    have hpick : (run .ssh rect before).pickFile.isSome = true := by
      rw [run, foldl_has_button (new_good .ssh rect).1, new, layout, placeFields]
      simp only [Option.isSome_map]
      rw [if_pos has_identity]
      rfl
    cases c with
    | resize rect' =>
      rw [List.concat_eq_append, run, List.foldl_append]
      exact layout_button hpage hpick
    | «show» => cases hlaid
    | input i => cases hlaid

/-- **The button that picks the identity file does not scroll.** After a layout, whatever is pressed, turned or dragged,
    it is on its field if and only if the offset is the one of the layout. -/
theorem button_on_row_iff (rect : Rect) (calls more : List Call) (hlaid : calls.getLast?.all Call.isResize)
    (hmore : ∀ c ∈ more, c.isResize = false) :
    ∃ b, (run .ssh rect (calls ++ more)).pickFile = some b ∧
      (b.y = ((run .ssh rect (calls ++ more)).widgets .sshIdentity).rect.y + 4 ↔
        (run .ssh rect (calls ++ more)).st.scroll = (run .ssh rect calls).st.scroll) := by
  obtain ⟨hgood, hpage⟩ := run_good .ssh rect calls
  obtain ⟨_, hpage'⟩ := run_good .ssh rect (calls ++ more)
  obtain ⟨b, hb, hy⟩ := laid_button rect hlaid
  obtain ⟨hpick, hrect⟩ := foldl_button hgood hmore
  have hrun : run .ssh rect (calls ++ more) = more.foldl step (run .ssh rect calls) := List.foldl_append
  rw [run_widget .ssh rect (calls ++ more) (by decide)]
  rw [← hrun] at hpick hrect
  refine ⟨b, hpick.trans hb, ?_⟩
  have hwidget : Key.sshIdentity.widget = .text := rfl
  simp only [placedAt, inputRect, hwidget, row, rowGeom, hpage, hpage', hrect] at hy ⊢
  omega

/-- One notch of the wheel leaves the button behind. -/
theorem button_left_behind : ∃ b, (run .ssh ⟨216, 52, 900, 300⟩ ([] ++ [.input (.wheel 1)])).pickFile = some b ∧
    b.y ≠ ((run .ssh ⟨216, 52, 900, 300⟩ ([] ++ [.input (.wheel 1)])).widgets .sshIdentity).rect.y + 4 := by
  obtain ⟨b, hb, hiff⟩ := button_on_row_iff ⟨216, 52, 900, 300⟩ [] [.input (.wheel 1)] rfl (by decide)
  refine ⟨b, hb, fun hy => absurd (hiff.mp hy) ?_⟩
  decide +kernel

end FormPage

end Form
end RemoteX11.Gui
