/-
  The layout of the settings pages (`pages/form/mod.rs`, `pages/config.rs`).

  `formTree` builds the tree of a page as the source does, section by section and row by row, with the solver of
  `Gui.Layout` under it. A page is solved against a column taller than any form; `Fits` says that the form is not
  taller than that. Then the rows are where `rowTops` says, moved up by the offset (`rows_eq`), and the content ends
  where `contentH` says (`contentBottom_eq`). The texts and the colours of a page are left out.
-/
import RemoteX11.Gui.Console
import RemoteX11.Gui.Pages

namespace RemoteX11.Gui.Form

open RemoteX11.Lib

/-! ## The specifications -/

structure SectionSpec where
  fields : List Key

structure FormSpec where
  sections : List SectionSpec

/-- `SERVER`, `CLIENT`, `SSH` and `RUNTIME`. -/
def spec : Page → FormSpec
  | .server => ⟨[⟨[.serverListen, .serverX11Port, .serverToken]⟩]⟩
  | .client => ⟨[⟨[.clientRelay, .clientToken, .clientX11, .clientDisplay]⟩]⟩
  | .ssh =>
    ⟨[⟨[.sshHost, .sshPort, .sshUser, .sshIdentity, .sshRelayPort, .sshToken, .sshReconnect, .sshDisplay]⟩]⟩
  | .runtime => ⟨[
      ⟨[.heartbeatIntervalSecs, .heartbeatTimeoutSecs, .clientReadTimeoutSecs]⟩,
      ⟨[.compressionThreshold, .diffChunkSize, .diffMinBlockSize, .diffMinSavingsRatio, .incrementalUplink,
        .outboundQueueBytes, .tcpSendBufferBytes]⟩,
      ⟨[.imageRecode, .imageRecodeCodec, .imageRecodeQuality, .imageRecodeMinBytes]⟩,
      ⟨[.audioForward, .audioPerApp, .audioBitrateKbps, .audioRecordCommand, .audioPlayCommand]⟩,
      ⟨[.flowControl, .flowPauseBytes, .flowResumeBytes]⟩]⟩

/-- `keys_for`. -/
def keysFor (spec : FormSpec) : List Key := spec.sections.flatMap SectionSpec.fields

theorem keysFor_spec (p : Page) : keysFor (spec p) = p.fields := by cases p <;> rfl

/-! ## The tree -/

def rowH : Int := 52
def sectionHead : Int := 46
def sectionGap : Int := 16
def labelCol : Int := 190
def sideW : Int := 300
def formVirtualH : Int := 4096

/-- The tokens `PAD` and `GAP`, and `PAGE_HEADER_H`. -/
def pad : Int := 22
def gap : Int := 14
def pageHeaderH : Int := 84

/-- `card_h`. -/
def SectionSpec.cardH (s : SectionSpec) : Int := sectionHead + s.fields.length * rowH + 12

/-- The rows of a section; `none`, here and below, where a builder would panic. -/
def sectionRows (layout : Layout) (inner : Nat) : List Key → Option (Layout × List (Key × Nat))
  | [] => some (layout, [])
  | key :: fields => do
    let (layout, id) ← layout.leaf inner (.fixed rowH)
    let (layout, rows) ← sectionRows layout inner fields
    some (layout, (key, id) :: rows)

/-- The card of a section, its inner stack and its head. -/
def sectionTop (layout : Layout) (column index : Nat) (s : SectionSpec) : Option (Layout × Nat × Nat) := do
  let (layout, card) ← layout.leaf column (.fixed s.cardH)
  let layout ← if index > 0 then layout.lead card sectionGap else some layout
  let (layout, inner) ← layout.stack card .column (.fill 1)
  let layout ← layout.pad inner (.xy 18 0)
  let (layout, _) ← layout.leaf inner (.fixed sectionHead)
  some (layout, card, inner)

/-- The loop over the sections. -/
def sectionCards (layout : Layout) (column : Nat) :
    Nat → List SectionSpec → Option (Layout × List Nat × List (Key × Nat))
  | _, [] => some (layout, [], [])
  | index, s :: sections => do
    let (layout, card, inner) ← sectionTop layout column index s
    let (layout, rows) ← sectionRows layout inner s.fields
    let (layout, cards, more) ← sectionCards layout column (index + 1) sections
    some (layout, card :: cards, rows ++ more)

structure FormTree where
  layout : Layout
  header : Nat
  cards : List Nat
  rows : List (Key × Nat)
  side : Nat

/-- The heading, and the column of the fields next to the space of the side column. -/
def formTop : Option (Layout × Nat × Nat × Nat) := do
  let layout ← Layout.column.pad 0 (.all pad)
  let (layout, header) ← layout.leaf 0 (.fixed pageHeaderH)
  let (layout, body) ← layout.stack 0 .row (.fill 1)
  let layout ← layout.gap body gap
  let (layout, column) ← layout.stack body .column (.fill 1)
  some (layout, header, body, column)

/-- The tree of `form_layout`. -/
def formTree (spec : FormSpec) : Option FormTree := do
  let (layout, header, body, column) ← formTop
  let (layout, cards, rows) ← sectionCards layout column 0 spec.sections
  let (layout, side) ← layout.stack body .column (.fixed sideW)
  some ⟨layout, header, cards, rows, side⟩

/-! ## The tree that is built -/

/-- The card of a section with `n` rows, at the ids from `id` on. -/
structure CardAt (l : Layout) (id : Nat) (lead : Int) (s : SectionSpec) : Prop where
  card : l.node id = ⟨.column, .none, 0, lead, .fixed s.cardH, [id + 1]⟩
  inner : l.node (id + 1) = ⟨.column, .xy 18 0, 0, 0, .fill 1, (id + 2) :: List.range' (id + 3) s.fields.length⟩
  head : l.node (id + 2) = .fresh .column (.fixed sectionHead)
  row : ∀ i < s.fields.length, l.node (id + 3 + i) = .fresh .column (.fixed rowH)

/-- The space above a card. -/
def leadOf (index : Nat) : Int := if index > 0 then sectionGap else 0

/-- How many nodes a section has. -/
def SectionSpec.nodes (s : SectionSpec) : Nat := 3 + s.fields.length

/-- The cards of the sections, one behind the other. -/
def CardsAt (l : Layout) : Nat → Nat → List SectionSpec → Prop
  | _, _, [] => True
  | id, index, s :: sections => CardAt l id (leadOf index) s ∧ CardsAt l (id + s.nodes) (index + 1) sections

def cardIds : Nat → List SectionSpec → List Nat
  | _, [] => []
  | id, s :: sections => id :: cardIds (id + s.nodes) sections

def rowIds : Nat → List SectionSpec → List (Key × Nat)
  | _, [] => []
  | id, s :: sections => s.fields.zipIdx (id + 3) ++ rowIds (id + s.nodes) sections

theorem sectionRows_spec {layout : Layout} {inner : Nat} (h : inner < layout.nodes.length) (fields : List Key) :
    ∃ l, sectionRows layout inner fields = some (l, fields.zipIdx layout.nodes.length) ∧
      l.nodes.length = layout.nodes.length + fields.length ∧
      l.node inner = { layout.node inner with
        children := (layout.node inner).children ++ List.range' layout.nodes.length fields.length } ∧
      (∀ i < layout.nodes.length, i ≠ inner → l.node i = layout.node i) ∧
      ∀ i < fields.length, l.node (layout.nodes.length + i) = .fresh .column (.fixed rowH) := by
  induction fields generalizing layout with
  | nil => exact ⟨layout, rfl, rfl, by simp, fun _ _ _ => rfl, fun i hi => absurd hi (Nat.not_lt_zero i)⟩
  | cons key fields ih =>
    have hlen := layout.stacked_length h .column (.fixed rowH)
    have hbelow : inner < (layout.stacked h .column (.fixed rowH)).nodes.length := by omega
    obtain ⟨l, hl, hlength, hinner, hsame, hrow⟩ := ih hbelow
    rw [hlen] at hl hlength hinner hsame hrow
    refine ⟨l, ?_, ?_, ?_, ?_, ?_⟩
    · simp only [sectionRows, Option.bind_eq_bind, Layout.leaf_bind layout h, hl, Option.bind_some,
        List.zipIdx_cons]
    · rw [hlength, List.length_cons]
      omega
    · rw [hinner, Layout.stacked_node, if_pos rfl, List.length_cons, List.range'_succ]
      simp
    · intro i hi hne
      rw [hsame i (by omega) hne, Layout.stacked_node, if_neg hne, if_neg (by omega)]
    · intro i hi
      cases i with
      | zero =>
        rw [Nat.add_zero, hsame _ (by omega) (by omega), Layout.stacked_node, if_neg (by omega), if_pos rfl]
      | succ i =>
        rw [List.length_cons] at hi
        have := hrow i (by omega)
        rwa [Nat.add_right_comm] at this

theorem leadOf_zero : leadOf 0 = 0 := rfl

theorem leadOf_succ (index : Nat) : leadOf (index + 1) = sectionGap := rfl

/-- The top of a card leaves the other nodes as they are, and its column has one child more. -/
theorem sectionTop_spec {layout : Layout} {column : Nat} (h : column < layout.nodes.length) (index : Nat)
    (s : SectionSpec) :
    ∃ l, sectionTop layout column index s = some (l, layout.nodes.length, layout.nodes.length + 1) ∧
      l.nodes.length = layout.nodes.length + 3 ∧
      l.node column = { layout.node column with
        children := (layout.node column).children ++ [layout.nodes.length] } ∧
      (∀ i < layout.nodes.length, i ≠ column → l.node i = layout.node i) ∧
      l.node layout.nodes.length =
        ⟨.column, .none, 0, leadOf index, .fixed s.cardH, [layout.nodes.length + 1]⟩ ∧
      l.node (layout.nodes.length + 1) = ⟨.column, .xy 18 0, 0, 0, .fill 1, [layout.nodes.length + 2]⟩ ∧
      l.node (layout.nodes.length + 2) = .fresh .column (.fixed sectionHead) := by
  have hne : column ≠ layout.nodes.length := Nat.ne_of_lt h
  have hne₁ : column ≠ layout.nodes.length + 1 := by omega
  have hne₂ : column ≠ layout.nodes.length + 2 := by omega
  cases index with
  | zero =>
    simp [sectionTop, ↓Option.bind_eq_bind, ↓Layout.stack_bind, ↓Layout.leaf_bind, ↓Layout.pad_bind, h, leadOf_zero,
      hne, hne₁, hne₂, hne.symm, Node.fresh]
    refine ⟨fun i hi hcolumn => ?_, ?_⟩
    · simp [hcolumn, show i ≠ layout.nodes.length by omega, show i ≠ layout.nodes.length + 1 by omega,
        show i ≠ layout.nodes.length + 2 by omega]
    · omega
  | succ index =>
    simp [sectionTop, ↓Option.bind_eq_bind, ↓Layout.stack_bind, ↓Layout.leaf_bind, ↓Layout.pad_bind,
      ↓Layout.lead_bind, h, leadOf_succ, hne, hne₁, hne₂, hne.symm, Node.fresh]
    refine ⟨fun i hi hcolumn => ?_, ?_⟩
    · simp [hcolumn, show i ≠ layout.nodes.length by omega, show i ≠ layout.nodes.length + 1 by omega,
        show i ≠ layout.nodes.length + 2 by omega]
    · omega

/-- How many nodes the sections have. -/
def nodesOf (sections : List SectionSpec) : Nat := (sections.map SectionSpec.nodes).sum

/-- A card stays where it is while the nodes from its first to its last do. -/
theorem CardAt.of_same {l l' : Layout} {id : Nat} {lead : Int} {s : SectionSpec} (h : CardAt l id lead s)
    (hsame : ∀ i, id ≤ i → i < id + s.nodes → l'.node i = l.node i) : CardAt l' id lead s where
  card := (hsame id (Nat.le_refl id) (by unfold SectionSpec.nodes; omega)).trans h.card
  inner := (hsame (id + 1) (by omega) (by unfold SectionSpec.nodes; omega)).trans h.inner
  head := (hsame (id + 2) (by omega) (by unfold SectionSpec.nodes; omega)).trans h.head
  row := fun i hi => (hsame (id + 3 + i) (by omega) (by unfold SectionSpec.nodes; omega)).trans (h.row i hi)

/-- One section: its card is there, and the rest is as it was. -/
theorem section_spec {layout : Layout} {column : Nat} (h : column < layout.nodes.length) (index : Nat)
    (s : SectionSpec) :
    ∃ l l', sectionTop layout column index s = some (l, layout.nodes.length, layout.nodes.length + 1) ∧
      sectionRows l (layout.nodes.length + 1) s.fields = some (l', s.fields.zipIdx (layout.nodes.length + 3)) ∧
      l'.nodes.length = layout.nodes.length + s.nodes ∧
      l'.node column = { layout.node column with
        children := (layout.node column).children ++ [layout.nodes.length] } ∧
      (∀ i < layout.nodes.length, i ≠ column → l'.node i = layout.node i) ∧
      CardAt l' layout.nodes.length (leadOf index) s := by
  obtain ⟨l, hl, hlen, hcolumn, hsame, hcard, hinner, hhead⟩ := sectionTop_spec h index s
  have hbelow : layout.nodes.length + 1 < l.nodes.length := by omega
  obtain ⟨l', hl', hlen', hinner', hsame', hrow'⟩ := sectionRows_spec hbelow s.fields
  rw [hlen] at hl' hlen' hinner' hsame' hrow'
  refine ⟨l, l', hl, hl', ?_, ?_, ?_, ?_⟩
  · rw [hlen', SectionSpec.nodes]
    omega
  · rw [hsame' column (by omega) (by omega), hcolumn]
  · intro i hi hne
    rw [hsame' i (by omega) (by omega), hsame i hi hne]
  · exact {
      card := by rw [hsame' _ (by omega) (by omega), hcard]
      inner := by rw [hinner', hinner]; rfl
      head := by rw [hsame' _ (by omega) (by omega), hhead]
      row := hrow' }

theorem sectionCards_spec {layout : Layout} {column : Nat} (h : column < layout.nodes.length) (index : Nat)
    (sections : List SectionSpec) :
    ∃ l, sectionCards layout column index sections =
        some (l, cardIds layout.nodes.length sections, rowIds layout.nodes.length sections) ∧
      l.nodes.length = layout.nodes.length + nodesOf sections ∧
      l.node column = { layout.node column with
        children := (layout.node column).children ++ cardIds layout.nodes.length sections } ∧
      (∀ i < layout.nodes.length, i ≠ column → l.node i = layout.node i) ∧
      CardsAt l layout.nodes.length index sections := by
  induction sections generalizing layout index with
  | nil => exact ⟨layout, rfl, rfl, by simp [cardIds], fun _ _ _ => rfl, trivial⟩
  | cons s sections ih =>
    obtain ⟨l, l', htop, hrows, hlen, hcolumn, hsame, hcard⟩ := section_spec h index s
    have hbelow : column < l'.nodes.length := by omega
    obtain ⟨l₁, hl₁, hlen₁, hcolumn₁, hsame₁, hcards₁⟩ := ih hbelow (index + 1)
    rw [hlen] at hl₁ hlen₁ hcolumn₁ hsame₁ hcards₁
    refine ⟨l₁, ?_, ?_, ?_, ?_, ?_, hcards₁⟩
    · simp only [sectionCards, htop, hrows, hl₁, Option.bind_eq_bind, Option.bind_some]
      rfl
    · rw [hlen₁, nodesOf, nodesOf, List.map_cons, List.sum_cons]
      omega
    · rw [hcolumn₁, hcolumn]
      simp [cardIds]
    · intro i hi hne
      rw [hsame₁ i (by omega) hne, hsame i hi hne]
    · exact hcard.of_same fun i hlo hhi => hsame₁ i hhi (by omega)

theorem CardsAt.of_same {l l' : Layout} {id index : Nat} {sections : List SectionSpec}
    (h : CardsAt l id index sections) (hsame : ∀ i, id ≤ i → i < id + nodesOf sections → l'.node i = l.node i) :
    CardsAt l' id index sections := by
  induction sections generalizing id index with
  | nil => trivial
  | cons s sections ih =>
    have hnodes : nodesOf (s :: sections) = s.nodes + nodesOf sections := by
      rw [nodesOf, nodesOf, List.map_cons, List.sum_cons]
    refine ⟨h.1.of_same fun i hlo hhi => hsame i hlo (by omega), ih h.2 fun i hlo hhi => hsame i ?_ (by omega)⟩
    have : 0 < s.nodes := by
      unfold SectionSpec.nodes
      omega
    omega

/-- What the tree of a form says of its nodes. -/
structure IsForm (l : Layout) (side : Nat) (sections : List SectionSpec) : Prop where
  root : l.node 0 = ⟨.column, .all pad, 0, 0, .fill 1, [1, 2]⟩
  header : l.node 1 = .fresh .column (.fixed pageHeaderH)
  body : l.node 2 = ⟨.row, .none, gap, 0, .fill 1, [3, side]⟩
  column : l.node 3 = ⟨.column, .none, 0, 0, .fill 1, cardIds 4 sections⟩
  cards : CardsAt l 4 0 sections
  side : l.node side = .fresh .column (.fixed sideW)

/-- The nodes above the sections. -/
theorem formTop_spec : ∃ l, formTop = some (l, 1, 2, 3) ∧ l.nodes.length = 4 ∧
    l.node 0 = ⟨.column, .all pad, 0, 0, .fill 1, [1, 2]⟩ ∧ l.node 1 = .fresh .column (.fixed pageHeaderH) ∧
    l.node 2 = ⟨.row, .none, gap, 0, .fill 1, [3]⟩ ∧ l.node 3 = .fresh .column (.fill 1) := by
  have h : Layout.column.nodes.length = 1 := rfl
  have h0 : Layout.column.node 0 = .fresh .column (.fill 1) := rfl
  simp [formTop, ↓Option.bind_eq_bind, ↓Layout.stack_bind, ↓Layout.leaf_bind, ↓Layout.pad_bind, ↓Layout.gap_bind, h]
  simp [h0, Node.fresh]

theorem formTree_spec (spec : FormSpec) :
    ∃ l side, formTree spec = some ⟨l, 1, cardIds 4 spec.sections, rowIds 4 spec.sections, side⟩ ∧
      IsForm l side spec.sections := by
  obtain ⟨l, htop, hlen, hroot, hheader, hbody, hcolumn⟩ := formTop_spec
  have hthree : 3 < l.nodes.length := by omega
  obtain ⟨l₁, hl₁, hlen₁, hcolumn₁, hsame₁, hcards₁⟩ := sectionCards_spec hthree 0 spec.sections
  rw [hlen] at hl₁ hlen₁ hcolumn₁ hsame₁ hcards₁
  have hbelow : 2 < l₁.nodes.length := by omega
  refine ⟨l₁.stacked hbelow .column (.fixed sideW), l₁.nodes.length, ?_, ?_⟩
  · simp only [formTree, htop, hl₁, Option.bind_eq_bind, Option.bind_some, Layout.stack_bind l₁ hbelow]
  · have hkept : ∀ i < 4 + nodesOf spec.sections, i ≠ 2 →
        (l₁.stacked hbelow .column (.fixed sideW)).node i = l₁.node i := by
      intro i hi hne
      rw [Layout.stacked_node, if_neg hne, if_neg (by omega)]
    exact {
      root := by rw [hkept 0 (by omega) (by decide), hsame₁ 0 (by decide) (by decide), hroot]
      header := by rw [hkept 1 (by omega) (by decide), hsame₁ 1 (by decide) (by decide), hheader]
      body := by
        rw [Layout.stacked_node, if_pos rfl, hsame₁ 2 (by decide) (by decide), hbody]
        rfl
      column := by
        rw [hkept 3 (by omega) (by decide), hcolumn₁, hcolumn]
        rfl
      cards := hcards₁.of_same fun i hlo hhi => hkept i hhi (by omega)
      side := by rw [Layout.stacked_node, if_neg (by omega), if_pos rfl] }

/-- `form_layout` never panics. -/
def form (spec : FormSpec) : FormTree := (formTree spec).get (by
  obtain ⟨l, side, hl, _⟩ := formTree_spec spec
  rw [hl]
  rfl)

theorem form_eq (spec : FormSpec) :
    ∃ l side, form spec = ⟨l, 1, cardIds 4 spec.sections, rowIds 4 spec.sections, side⟩ ∧
      IsForm l side spec.sections := by
  obtain ⟨l, side, hl, hform⟩ := formTree_spec spec
  refine ⟨l, side, ?_, hform⟩
  simp only [form, hl, Option.get_some]

-- The tree is read by this lemma only.
attribute [irreducible] form

/-! ## Solving -/

/-- `Solved::shift`. -/
def shift (s : Solved) (dy : Int) : Solved := { s with rects := s.rects.map fun r => { r with y := r.y + dy } }

structure SolvedForm where
  solved : Solved
  cards : List Nat
  rows : List (Key × Nat)
  side : Nat
  contentBottom : Int

/-- `form_layout`. -/
def formLayout (spec : FormSpec) (x y w scroll : Int) : SolvedForm :=
  let page : Rect := ⟨x, y, w, pageHeaderH + formVirtualH⟩
  let tree := form spec
  let solved := tree.layout.solve page
  let contentBottom := match tree.cards.getLast? with
    | some id => (solved.get id).bottom + sectionGap
    | none => (solved.get tree.header).bottom
  ⟨shift solved (-scroll), tree.cards, tree.rows, tree.side, contentBottom + scroll⟩

namespace SolvedForm

/-- `side_rect`. -/
def sideRect (f : SolvedForm) : Rect := f.solved.get f.side

/-- `row_rect`. -/
def rowRect (f : SolvedForm) (keySuffix : String) : Option Rect :=
  (f.rows.find? fun row => keySuffix.toList.isSuffixOf row.1.path.toList).map fun row => f.solved.get row.2

end SolvedForm

structure SectionGeom where
  index : Nat
  y : Int
  h : Int
  deriving DecidableEq, Repr

structure RowGeom where
  key : Key
  inputY : Int
  inputH : Int
  labelY : Int
  hintY : Int
  deriving DecidableEq, Repr

/-- A row of the form from its top. -/
def rowGeom (key : Key) (ry : Int) : RowGeom :=
  ⟨key, ry, if key.widget = .toggle then 20 else 32, ry + 6, ry + 31⟩

/-- `geometry`. -/
def geometry (spec : FormSpec) (x y w scroll : Int) : List SectionGeom × List RowGeom :=
  let solved := formLayout spec x y w scroll
  (solved.cards.mapIdx fun index id => ⟨index, (solved.solved.get id).y, (solved.solved.get id).h⟩,
    solved.rows.map fun row => rowGeom row.1 (solved.solved.get row.2).y)

/-! ## Where the rows are -/

/-- The rows of the sections, from the top of the first card. -/
def rowTops (top : Int) : List SectionSpec → List (Key × Int)
  | [] => []
  | s :: sections =>
    (s.fields.zipIdx.map fun row => (row.1, top + 46 + 52 * (row.2 : Int))) ++ rowTops (top + s.cardH + 16) sections

/-- The cards: their tops and heights. -/
def cardTops (top : Int) : List SectionSpec → List (Int × Int)
  | [] => []
  | s :: sections => (top, s.cardH) :: cardTops (top + s.cardH + 16) sections

/-- The content: every card and the gap behind it. -/
def contentH (spec : FormSpec) : Int := (spec.sections.map fun s => s.cardH + 16).sum

/-- The form is no taller than the column it is solved against. -/
def Fits (spec : FormSpec) : Prop := contentH spec ≤ 4068

instance (spec : FormSpec) : Decidable (Fits spec) := inferInstanceAs (Decidable (_ ≤ _))

theorem fits_spec (p : Page) : Fits (spec p) := by cases p <;> decide

theorem cardH_eq (s : SectionSpec) : s.cardH = 58 + 52 * (s.fields.length : Int) := by
  unfold SectionSpec.cardH sectionHead rowH
  omega

variable {l : Layout} {side : Nat} {sections : List SectionSpec}

/-- A turn pays a fixed child while there is room. -/
theorem handOut_fixed (l : Layout) (axis : Axis) (gap : Int) (inner : Rect) (leftover : Int) (weights : Nat)
    {child : Nat} (rest : List Nat) (cursor : Int) {remaining v : Int} (hsize : l.size child = .fixed v)
    (hv : 0 ≤ v) (hroom : v ≤ remaining) :
    l.handOut axis gap inner leftover weights (child :: rest) cursor remaining =
      (child, Layout.childRect axis inner (cursor + (l.node child).lead) v) ::
        l.handOut axis gap inner leftover weights rest (cursor + (l.node child).lead + v + gap) (remaining - v) := by
  have htake : min (want leftover weights remaining (rest.map l.size) (l.size child)) remaining = v := by
    rw [hsize, want]
    omega
  rw [Layout.handOut, htake]

/-- The rows below the head of a section. -/
theorem rows_mem (inner : Rect) (leftover : Int) (weights : Nat) {id n : Nat}
    (h : ∀ i < n, l.node (id + i) = .fresh .column (.fixed rowH)) {cursor remaining : Int}
    (hroom : 52 * (n : Int) ≤ remaining) {i : Nat} (hi : i < n) :
    (id + i, Layout.childRect .column inner (cursor + 52 * (i : Int)) 52) ∈
      l.handOut .column 0 inner leftover weights (List.range' id n) cursor remaining := by
  induction n generalizing id cursor remaining i with
  | zero => omega
  | succ n ih =>
    have hfirst := h 0 (Nat.succ_pos n)
    rw [Nat.add_zero] at hfirst
    have hsize : l.size id = .fixed 52 := by rw [Layout.size, hfirst]; rfl
    have hlead : (l.node id).lead = 0 := by rw [hfirst]; rfl
    rw [List.range'_succ, handOut_fixed l .column 0 inner leftover weights _ cursor hsize (by omega) (by omega), hlead]
    cases i with
    | zero =>
      simp
    | succ i =>
      have hnodes : ∀ j < n, l.node (id + 1 + j) = .fresh .column (.fixed rowH) := by
        intro j hj
        have := h (j + 1) (by omega)
        rwa [Nat.add_comm j 1, ← Nat.add_assoc] at this
      have hrest : (id + 1 + i, Layout.childRect .column inner (cursor + 0 + 52 + 0 + 52 * (i : Int)) 52) ∈
          l.handOut .column 0 inner leftover weights (List.range' (id + 1) n) (cursor + 0 + 52 + 0)
            (remaining - 52) := ih hnodes (by omega) (by omega)
      refine List.mem_cons_of_mem _ ?_
      have hid : id + 1 + i = id + (i + 1) := by omega
      have htop : cursor + 0 + 52 + 0 + 52 * (i : Int) = cursor + 52 * ((i + 1 : Nat) : Int) := by omega
      rwa [hid, htop] at hrest

/-- The inner stack of a card is as high as the card. -/
theorem inner_mem {id : Nat} {lead : Int} {s : SectionSpec} (h : CardAt l id lead s) {card : Rect}
    (hh : 0 ≤ card.h) : ∃ r, (id + 1, r) ∈ l.childRects id card ∧ r.y = card.y ∧ r.h = card.h := by
  have hinner : l.size (id + 1) = .fill 1 ∧ (l.node (id + 1)).lead = 0 := by
    rw [Layout.size, h.inner]
    exact ⟨rfl, rfl⟩
  simp [Layout.childRects, Layout.handOut, h.card, hinner, Layout.available, Layout.gapTotal, Layout.leadTotal,
    Layout.childRect, want, Axis.main, Axis.mainStart, Rect.inset, Insets.none, weightTotal, Size.weight, Layout.sizes]
  omega

/-- The rows of a card start under its head. -/
theorem card_rows_mem {id : Nat} {lead : Int} {s : SectionSpec} (h : CardAt l id lead s) {inner : Rect}
    (hh : inner.h = s.cardH) {i : Nat} (hi : i < s.fields.length) :
    ∃ r, (id + 3 + i, r) ∈ l.childRects (id + 1) inner ∧ r.y = inner.y + 46 + 52 * (i : Int) := by
  have hcard := cardH_eq s
  have hhead : l.size (id + 2) = .fixed 46 ∧ (l.node (id + 2)).lead = 0 := by
    rw [Layout.size, h.head]
    exact ⟨rfl, rfl⟩
  have hleads : l.leadTotal (id + 1) = 0 := by
    rw [Layout.leadTotal, h.inner, List.map_cons, hhead.2, List.sum_cons, Int.zero_add]
    refine List.sum_eq_zero fun v hv => ?_
    obtain ⟨c, hc, rfl⟩ := List.mem_map.mp hv
    obtain ⟨j, hj, rfl⟩ := List.mem_range'.mp hc
    rw [Nat.one_mul, h.row j hj]
    rfl
  have havail : l.available (id + 1) inner = s.cardH := by
    rw [Layout.available, hleads, Layout.gapTotal, h.inner]
    simp only [Axis.main, Rect.inset, Insets.xy]
    omega
  refine ⟨Layout.childRect .column (inner.inset (.xy 18 0)) (inner.y + 46 + 52 * (i : Int)) 52, ?_, rfl⟩
  have hrow : (id + 3 + i, Layout.childRect .column (inner.inset (.xy 18 0)) (inner.y + 46 + 52 * (i : Int)) 52) ∈
      l.handOut .column 0 (inner.inset (.xy 18 0)) (l.leftover (id + 1) inner) (weightTotal (l.sizes (id + 1)))
        (List.range' (id + 3) s.fields.length) (inner.y + 46) (s.cardH - 46) :=
    rows_mem _ _ _ h.row (by omega) hi
  rw [Layout.childRects, h.inner, havail]
  simp only [Axis.mainStart]
  rw [handOut_fixed l .column 0 _ _ _ _ _ hhead.1 (by decide) (by omega), hhead.2]
  have htop : (inner.inset (.xy 18 0)).y + 0 + 46 + 0 = inner.y + 46 := by
    simp only [Rect.inset, Insets.xy]
    omega
  rw [htop]
  exact List.mem_cons_of_mem _ hrow

/-- A rectangle of a call, in a solved tree that was moved. -/
theorem shift_get {page : Rect} {call : Nat × Rect} (h : call ∈ l.calls page) (dy : Int) :
    (shift (l.solve page) dy).get call.1 = { call.2 with y := call.2.y + dy } := by
  have hnode : call.1 < l.nodes.length := by
    obtain rfl | ⟨p, _, hp⟩ := visits_parent h
    · exact l.nonempty
    · exact l.tree.below p.1 _ (mem_children_of_step (childRects_fst l) hp)
  have hlength : call.1 < (List.replicate l.nodes.length (⟨0, 0, 0, 0⟩ : Rect)).length := by
    rwa [List.length_replicate]
  have hrects : (l.solve page).rects[call.1]? = some call.2 := by
    rw [solve_eq, (foldl_visit l _ _).1]
    exact foldl_set_of_mem (visits_nodup l.tree (childRects_fst l) _ _ _) h hlength
  rw [Solved.get, List.getD_eq_getElem?_getD, shift, List.getElem?_map, hrects]
  rfl

theorem shift_zero (s : Solved) : shift s 0 = s := by
  have hid : s.rects.map (fun r : Rect => { r with y := r.y + 0 }) = s.rects := by
    simp only [Int.add_zero]
    exact List.map_id _
  rw [shift, hid]

/-- A section whose card is a call of the solver: where its rows are. -/
theorem section_rows {page : Rect} (dy : Int) {id : Nat} {lead : Int} {s : SectionSpec} (h : CardAt l id lead s)
    {card : Rect} (hcard : (id, card) ∈ l.calls page) (hh : card.h = s.cardH) :
    (s.fields.zipIdx (id + 3)).map (fun row => (row.1, ((shift (l.solve page) dy).get row.2).y)) =
      s.fields.zipIdx.map fun row => (row.1, card.y + dy + 46 + 52 * (row.2 : Int)) := by
  have hpos := cardH_eq s
  have hnonneg : 0 ≤ card.h := by omega
  obtain ⟨inner, hinner, htop, hheight⟩ := inner_mem h hnonneg
  have hcall := Console.child_mem_calls hcard hinner
  refine List.ext_getElem (by simp) fun i hi _ => ?_
  rw [List.length_map, List.length_zipIdx] at hi
  obtain ⟨r, hr, hy⟩ := card_rows_mem h (hheight.trans hh) hi
  have hget : (shift (l.solve page) dy).get (id + 3 + i) = { r with y := r.y + dy } :=
    shift_get (Console.child_mem_calls hcall hr) dy
  simp only [List.getElem_map, List.getElem_zipIdx, hget, hy, htop, Nat.zero_add, Prod.mk.injEq, true_and]
  omega

/-- The sections of a column that has room for them. -/
theorem sections_placed {page inner : Rect} (dy : Int) {leftover : Int} {weights id index : Nat}
    {cursor remaining : Int} (h : CardsAt l id index sections)
    (hcalls : ∀ r ∈ l.handOut .column 0 inner leftover weights (cardIds id sections) cursor remaining,
      r ∈ l.calls page)
    (hroom : (sections.map SectionSpec.cardH).sum ≤ remaining) :
    (cardIds id sections).map (fun c =>
        (((shift (l.solve page) dy).get c).y, ((shift (l.solve page) dy).get c).h)) =
        cardTops (cursor + leadOf index + dy) sections ∧
      (rowIds id sections).map (fun row => (row.1, ((shift (l.solve page) dy).get row.2).y)) =
        rowTops (cursor + leadOf index + dy) sections := by
  induction sections generalizing id index cursor remaining with
  | nil => exact ⟨rfl, rfl⟩
  | cons s sections ih =>
    obtain ⟨hcard, hrest⟩ := h
    have hpos := cardH_eq s
    have hothers : 0 ≤ (sections.map SectionSpec.cardH).sum := by
      refine List.sum_nonneg fun v hv => ?_
      obtain ⟨t, _, rfl⟩ := List.mem_map.mp hv
      rw [cardH_eq]
      omega
    rw [List.map_cons, List.sum_cons] at hroom
    have hsize : l.size id = .fixed s.cardH := by rw [Layout.size, hcard.card]
    have hlead : (l.node id).lead = leadOf index := by rw [hcard.card]
    rw [cardIds, handOut_fixed l .column 0 inner leftover weights _ cursor hsize (by omega) (by omega), hlead] at hcalls
    have hfirst := hcalls _ List.mem_cons_self
    obtain ⟨hcards, hrows⟩ := ih hrest (fun r hr => hcalls r (List.mem_cons_of_mem _ hr)) (by omega)
    have hnext : cursor + leadOf index + s.cardH + 0 + leadOf (index + 1) + dy =
        cursor + leadOf index + dy + s.cardH + 16 := by
      rw [leadOf_succ, sectionGap]
      omega
    rw [hnext] at hcards hrows
    have hget := shift_get hfirst dy
    constructor
    · rw [cardIds, List.map_cons, hcards, hget]
      rfl
    · rw [rowIds, List.map_append, hrows, section_rows dy hcard hfirst rfl]
      rfl

/-- The space between the cards: none above the first. -/
theorem leads_sum {id index : Nat} (h : CardsAt l id index sections) :
    ((cardIds id sections).map fun c => (l.node c).lead).sum =
      if sections = [] then 0 else leadOf index + 16 * ((sections.length : Int) - 1) := by
  induction sections generalizing id index with
  | nil => rfl
  | cons s sections ih =>
    have hlead : (l.node id).lead = leadOf index := by rw [h.1.card]
    rw [cardIds, List.map_cons, List.sum_cons, ih h.2, hlead, leadOf_succ, sectionGap, if_neg (List.cons_ne_nil _ _),
      List.length_cons]
    cases sections with
    | nil => simp
    | cons t sections =>
      rw [if_neg (List.cons_ne_nil _ _), List.length_cons]
      omega

theorem contentH_eq (spec : FormSpec) :
    contentH spec = (spec.sections.map SectionSpec.cardH).sum + 16 * (spec.sections.length : Int) := by
  unfold contentH
  induction spec.sections with
  | nil => rfl
  | cons s sections ih =>
    rw [List.map_cons, List.sum_cons, List.map_cons, List.sum_cons, ih, List.length_cons]
    omega

/-- The page a form is solved against. -/
def virtualPage (x y w : Int) : Rect := ⟨x, y, w, pageHeaderH + formVirtualH⟩

theorem header_mem (h : IsForm l side sections) (x y w : Int) :
    ∃ r, (1, r) ∈ l.childRects 0 (virtualPage x y w) ∧ r.bottom = y + 106 := by
  have hheader : l.size 1 = .fixed 84 ∧ (l.node 1).lead = 0 := by
    rw [Layout.size, h.header]
    exact ⟨rfl, rfl⟩
  have hbody : (l.node 2).lead = 0 := by rw [h.body]
  simp [Layout.childRects, Layout.handOut, h.root, hheader, hbody, Layout.available, Layout.gapTotal,
    Layout.leadTotal, Layout.childRect, want, Axis.main, Axis.mainStart, Rect.inset, Insets.all, virtualPage,
    pageHeaderH, formVirtualH, pad, Rect.bottom]
  omega

theorem body_mem (h : IsForm l side sections) (x y w : Int) :
    ∃ r, (2, r) ∈ l.childRects 0 (virtualPage x y w) ∧ r.y = y + 106 ∧ r.h = 4052 := by
  have hheader : l.size 1 = .fixed 84 ∧ (l.node 1).lead = 0 := by
    rw [Layout.size, h.header]
    exact ⟨rfl, rfl⟩
  have hbody : l.size 2 = .fill 1 ∧ (l.node 2).lead = 0 := by
    rw [Layout.size, h.body]
    exact ⟨rfl, rfl⟩
  simp [Layout.childRects, Layout.handOut, h.root, hheader, hbody, Layout.available, Layout.gapTotal,
    Layout.leadTotal, Layout.childRect, want, Axis.main, Axis.mainStart, Rect.inset, Insets.all, virtualPage,
    pageHeaderH, formVirtualH, pad, weightTotal, Size.weight, Layout.sizes]
  omega

theorem column_mem (h : IsForm l side sections) {body : Rect} (hh : 0 ≤ body.h) :
    ∃ r, (3, r) ∈ l.childRects 2 body ∧ r.y = body.y ∧ r.h = body.h := by
  simp [Layout.childRects, Layout.handOut, h.body, Layout.childRect, Axis.mainStart, Rect.inset, Insets.none]
  omega

/-- The sections are handed out in the column, which has room for them. -/
theorem column_placed (h : IsForm l side sections) (hfits : Fits ⟨sections⟩) (x y w dy : Int) :
    (cardIds 4 sections).map (fun c =>
        (((shift (l.solve (virtualPage x y w)) dy).get c).y, ((shift (l.solve (virtualPage x y w)) dy).get c).h)) =
        cardTops (y + 106 + dy) sections ∧
      (rowIds 4 sections).map (fun row => (row.1, ((shift (l.solve (virtualPage x y w)) dy).get row.2).y)) =
        rowTops (y + 106 + dy) sections := by
  obtain ⟨body, hbody, hbodyTop, hbodyHeight⟩ := body_mem h x y w
  have hnonneg : 0 ≤ body.h := by omega
  obtain ⟨column, hcolumn, htop, hheight⟩ := column_mem h hnonneg
  have hcall : (3, column) ∈ l.calls (virtualPage x y w) :=
    Console.child_mem_calls (Console.child_mem_calls (Console.root_mem_calls l _) hbody) hcolumn
  have hleads := leads_sum h.cards
  have hcontent := contentH_eq ⟨sections⟩
  unfold Fits at hfits
  have hroom : (sections.map SectionSpec.cardH).sum ≤ l.available 3 column := by
    rw [Layout.available, Layout.gapTotal, Layout.leadTotal, h.column, hleads]
    simp only [Axis.main, Rect.inset, Insets.none, leadOf_zero] at hcontent ⊢
    split
    · rename_i hnil
      subst hnil
      simp
    · omega
  have hcalls : ∀ r ∈ l.handOut .column 0 (column.inset .none) (l.leftover 3 column) (weightTotal (l.sizes 3))
      (cardIds 4 sections) (column.inset .none).y (l.available 3 column), r ∈ l.calls (virtualPage x y w) := by
    intro r hr
    refine Console.child_mem_calls hcall ?_
    rw [Layout.childRects, h.column]
    exact hr
  have hplaced := sections_placed dy h.cards hcalls hroom
  have hstart : (column.inset .none).y + leadOf 0 = y + 106 := by
    simp only [Rect.inset, Insets.none, leadOf_zero]
    omega
  rwa [hstart] at hplaced

/-- The rows of a page, moved up by the offset. -/
theorem rows_eq {spec : FormSpec} (h : Fits spec) (x y w scroll : Int) :
    (geometry spec x y w scroll).2 =
      (rowTops (y + 106 - scroll) spec.sections).map fun row => rowGeom row.1 row.2 := by
  obtain ⟨l, side, hl, hform⟩ := form_eq spec
  obtain ⟨_, hrows⟩ := column_placed hform h x y w (-scroll)
  unfold geometry formLayout
  simp only [hl]
  rw [Int.sub_eq_add_neg, ← hrows, List.map_map]
  rfl

-- The geometry is read by this lemma only.
attribute [irreducible] geometry

/-- The last card ends a gap before the content does. -/
theorem cardTops_getLast? (top : Int) (sections : List SectionSpec) :
    (cardTops top sections).getLast?.map (fun card => card.1 + card.2 + 16) =
      if sections = [] then none else some (top + (sections.map fun s => s.cardH + 16).sum) := by
  induction sections generalizing top with
  | nil => rfl
  | cons s sections ih =>
    rw [if_neg (List.cons_ne_nil _ _), List.map_cons, List.sum_cons, cardTops]
    cases sections with
    | nil =>
      simp only [cardTops, List.getLast?_singleton, Option.map_some, List.map_nil, List.sum_nil]
      congr 1
      omega
    | cons t sections =>
      have hne : cardTops (top + s.cardH + 16) (t :: sections) ≠ [] := List.cons_ne_nil _ _
      rw [List.getLast?_cons_of_ne_nil hne, ih, if_neg (List.cons_ne_nil _ _)]
      congr 1
      omega

/-- The content ends behind the gap of its last card. -/
theorem contentBottom_eq {spec : FormSpec} (h : Fits spec) (x y w : Int) :
    (formLayout spec x y w 0).contentBottom = y + 106 + contentH spec := by
  obtain ⟨l, side, hl, hform⟩ := form_eq spec
  obtain ⟨hcards, _⟩ := column_placed hform h x y w 0
  rw [shift_zero] at hcards
  have hlast := cardTops_getLast? (y + 106 + 0) spec.sections
  rw [← hcards, List.getLast?_map, Option.map_map] at hlast
  obtain ⟨r, hr, hbottom⟩ := header_mem hform x y w
  have hheader : (l.solve (virtualPage x y w)).get 1 = r :=
    solve_get (Console.child_mem_calls (Console.root_mem_calls l _) hr)
  unfold formLayout
  simp only [hl]
  rw [← virtualPage, hheader, hbottom]
  split
  · rename_i id hid
    rw [hid, Option.map_some] at hlast
    split at hlast
    · cases hlast
    · have hsome := Option.some.inj hlast
      simp only [Function.comp_apply] at hsome
      rw [Rect.bottom, sectionGap, contentH, hsome]
      omega
  · rename_i hnone
    rw [hnone, Option.map_none] at hlast
    split at hlast
    · rename_i hnil
      rw [contentH, hnil]
      rfl
    · cases hlast

end RemoteX11.Gui.Form
