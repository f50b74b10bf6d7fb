/-
  The layout of the overview (`pages/console/mod.rs`).

  `buildLayout` builds the tree of the page as the source does, with the solver of `Gui.Layout` under it, and never
  panics (`console`). The sessions are listed in one area of that tree: `sessionCard_eq` and `rowArea_eq` say where
  its card and the area are on a page of any size, and `action_right` where its last column ends.
-/
import RemoteX11.Gui.Layout

namespace RemoteX11.Gui

open RemoteX11.Lib

def Insets.all (n : Int) : Insets := ⟨n, n, n, n⟩

def Insets.xy (x y : Int) : Insets := ⟨y, x, y, x⟩

def Rect.contains (r : Rect) (x y : Int) : Bool :=
  decide (r.x ≤ x) && decide (x < r.right) && decide (r.y ≤ y) && decide (y < r.bottom)

/-! ## Builders that do not panic -/

namespace Layout

variable (l : Layout) {parent id : Nat}

/-- What `stack` builds under a node that is there. -/
def stacked (h : parent < l.nodes.length) (axis : Axis) (size : Size) : Layout :=
  ((l.stack parent axis size).get (by rw [stack, dif_pos h]; rfl)).1

theorem stack_eq (h : parent < l.nodes.length) (axis : Axis) (size : Size) :
    l.stack parent axis size = some (l.stacked h axis size, l.nodes.length) := by
  simp only [stacked, stack, dif_pos h, Option.get_some]

theorem stacked_nodes (h : parent < l.nodes.length) (axis : Axis) (size : Size) :
    (l.stacked h axis size).nodes = (l.nodes ++ [Node.fresh axis size]).modify parent fun p =>
      { p with children := p.children ++ [l.nodes.length] } := by
  simp only [stacked, stack, dif_pos h, Option.get_some]

@[simp] theorem stacked_length (h : parent < l.nodes.length) (axis : Axis) (size : Size) :
    (l.stacked h axis size).nodes.length = l.nodes.length + 1 := by
  rw [stacked_nodes, List.length_modify, List.length_append, List.length_singleton]

@[simp] theorem stacked_node (h : parent < l.nodes.length) (axis : Axis) (size : Size) (i : Nat) :
    (l.stacked h axis size).node i =
      if i = parent then { l.node i with children := (l.node i).children ++ [l.nodes.length] }
      else if i = l.nodes.length then .fresh axis size else l.node i := by
  unfold node
  rw [stacked_nodes, List.getD_eq_getElem?_getD, List.getD_eq_getElem?_getD, List.getElem?_modify]
  by_cases hi : i = parent
  · subst hi
    rw [if_pos rfl, List.getElem?_append_left h, List.getElem?_eq_getElem h]
    simp
  · rw [if_neg hi]
    have hother : ¬ parent = i := fun heq => hi heq.symm
    by_cases hnew : i = l.nodes.length
    · subst hnew
      simp [hother]
    · rw [if_neg hnew]
      rcases Nat.lt_or_ge i l.nodes.length with hlt | hge
      · rw [List.getElem?_append_left hlt, List.getElem?_eq_getElem hlt]
        simp [hother]
      · have hpast : (l.nodes ++ [Node.fresh axis size]).length ≤ i := by
          rw [List.length_append, List.length_singleton]
          omega
        rw [List.getElem?_eq_none hpast, List.getElem?_eq_none hge]
        rfl

/-- What a setter builds. -/
def setted (h : id < l.nodes.length) (f : Node → Node) (hf : ∀ node, (f node).children = node.children) : Layout :=
  (l.set id f hf).get (by rw [set, if_pos h]; rfl)

theorem set_eq (h : id < l.nodes.length) (f : Node → Node) (hf : ∀ node, (f node).children = node.children) :
    l.set id f hf = some (l.setted h f hf) := by
  simp only [setted, set, if_pos h, Option.get_some]

theorem setted_nodes (h : id < l.nodes.length) (f : Node → Node) (hf : ∀ node, (f node).children = node.children) :
    (l.setted h f hf).nodes = l.nodes.modify id f := by
  simp only [setted, set, if_pos h, Option.get_some]

theorem setted_length (h : id < l.nodes.length) (f : Node → Node)
    (hf : ∀ node, (f node).children = node.children) : (l.setted h f hf).nodes.length = l.nodes.length := by
  rw [setted_nodes, List.length_modify]

theorem setted_node (h : id < l.nodes.length) (f : Node → Node)
    (hf : ∀ node, (f node).children = node.children) (i : Nat) :
    (l.setted h f hf).node i = if i = id then f (l.node i) else l.node i := by
  unfold node
  rw [setted_nodes, List.getD_eq_getElem?_getD, List.getD_eq_getElem?_getD, List.getElem?_modify]
  by_cases hi : i = id
  · subst hi
    rw [if_pos rfl, List.getElem?_eq_getElem h]
    simp
  · have hother : ¬ id = i := fun heq => hi heq.symm
    rw [if_neg hi]
    cases l.nodes[i]? <;> simp [hother]

theorem children_insets (insets : Insets) (node : Node) : { node with insets := insets }.children = node.children := rfl

theorem children_gap (gap : Int) (node : Node) : { node with gap := gap }.children = node.children := rfl

theorem children_lead (lead : Int) (node : Node) : { node with lead := lead }.children = node.children := rfl

/-- What `pad` builds. -/
def padded (h : id < l.nodes.length) (insets : Insets) : Layout :=
  l.setted h (fun node => { node with insets := insets }) (children_insets insets)

/-- What `gap` builds. -/
def gapped (h : id < l.nodes.length) (gap : Int) : Layout :=
  l.setted h (fun node => { node with gap := gap }) (children_gap gap)

/-- What `lead` builds. -/
def leaded (h : id < l.nodes.length) (lead : Int) : Layout :=
  l.setted h (fun node => { node with lead := lead }) (children_lead lead)

@[simp] theorem padded_length (h : id < l.nodes.length) (insets : Insets) :
    (l.padded h insets).nodes.length = l.nodes.length := l.setted_length h _ _

@[simp] theorem gapped_length (h : id < l.nodes.length) (gap : Int) :
    (l.gapped h gap).nodes.length = l.nodes.length := l.setted_length h _ _

@[simp] theorem leaded_length (h : id < l.nodes.length) (lead : Int) :
    (l.leaded h lead).nodes.length = l.nodes.length := l.setted_length h _ _

@[simp] theorem padded_node (h : id < l.nodes.length) (insets : Insets) (i : Nat) :
    (l.padded h insets).node i = if i = id then { l.node i with insets := insets } else l.node i :=
  l.setted_node h _ _ i

@[simp] theorem gapped_node (h : id < l.nodes.length) (gap : Int) (i : Nat) :
    (l.gapped h gap).node i = if i = id then { l.node i with gap := gap } else l.node i :=
  l.setted_node h _ _ i

@[simp] theorem leaded_node (h : id < l.nodes.length) (lead : Int) (i : Nat) :
    (l.leaded h lead).node i = if i = id then { l.node i with lead := lead } else l.node i :=
  l.setted_node h _ _ i

-- The steps of a builder are read by these lemmas only.
attribute [irreducible] stacked padded gapped leaded

variable {α : Type}

theorem stack_bind (h : parent < l.nodes.length) (axis : Axis) (size : Size) (k : Layout × Nat → Option α) :
    (l.stack parent axis size).bind k = k (l.stacked h axis size, l.nodes.length) := by
  rw [stack_eq l h]
  rfl

theorem leaf_bind (h : parent < l.nodes.length) (size : Size) (k : Layout × Nat → Option α) :
    (l.leaf parent size).bind k = k (l.stacked h .column size, l.nodes.length) := l.stack_bind h .column size k

theorem pad_bind (h : id < l.nodes.length) (insets : Insets) (k : Layout → Option α) :
    (l.pad id insets).bind k = k (l.padded h insets) := by
  rw [pad, set_eq l h, padded]
  rfl

theorem gap_bind (h : id < l.nodes.length) (gap : Int) (k : Layout → Option α) :
    (l.gap id gap).bind k = k (l.gapped h gap) := by
  rw [Layout.gap, set_eq l h, gapped]
  rfl

theorem lead_bind (h : id < l.nodes.length) (lead : Int) (k : Layout → Option α) :
    (l.lead id lead).bind k = k (l.leaded h lead) := by
  rw [Layout.lead, set_eq l h, leaded]
  rfl

end Layout

namespace Console

/-! ## The tree -/

/-- The numbers of `Metrics`, the page and its cards. -/
def pagePad : Int := 22
def pageGap : Int := 14
def pageHeaderH : Int := 84
def cardTitleH : Int := 20
def summaryH : Int := 76
def bandH : Int := 300
def rightW : Int := 296
def startCardH : Int := 178
def capCardGap : Int := 12
def rowH : Int := 46
def sessionRoleW : Int := 86
def sessionHealthW : Int := 96
def sessionTrafficW : Int := 132
def sessionActionW : Int := 54
def sessionChromeH : Int := 106
def sessionPad : Insets := ⟨16, 18, 8, 18⟩
def scopePad : Insets := ⟨16, 18, 18, 18⟩

structure ConsoleLayout where
  layout : Layout
  header : Nat
  summary : Nat
  scopeCard : Nat
  scopePlot : Nat
  startCard : Nat
  startButtons : List Nat
  copyToken : Nat
  capCard : Nat
  sessions : Nat
  sessionHead : Nat
  sessionCols : List Nat
  sessionRows : Nat

/-! The paragraphs of `build_layout`; `none` where a builder would panic. -/

/-- The heading, the summary and the middle band: its two cards. -/
def overviewTop : Option (Layout × Nat × Nat × Nat × Nat) := do
  let layout ← Layout.column.pad 0 (.all pagePad)
  let (layout, header) ← layout.leaf 0 (.fixed pageHeaderH)
  let (layout, summary) ← layout.leaf 0 (.fixed summaryH)
  let (layout, band) ← layout.stack 0 .row (.fixed bandH)
  let layout ← layout.lead band pageGap
  let layout ← layout.gap band pageGap
  let (layout, scopeCard) ← layout.leaf band (.fill 1)
  let (layout, right) ← layout.stack band .column (.fixed rightW)
  let layout ← layout.gap right capCardGap
  some (layout, header, summary, scopeCard, right)

/-- The scope card. -/
def scopeInside (layout : Layout) (scopeCard : Nat) : Option (Layout × Nat) := do
  let (layout, scopeInner) ← layout.stack scopeCard .column (.fill 1)
  let layout ← layout.pad scopeInner scopePad
  let (layout, _) ← layout.leaf scopeInner (.fixed cardTitleH)
  layout.leaf scopeInner (.fill 1)

/-- The start card and the card below it. -/
def startInside (layout : Layout) (right : Nat) : Option (Layout × Nat × List Nat × Nat × Nat) := do
  let (layout, startCard) ← layout.leaf right (.fixed startCardH)
  let (layout, startInner) ← layout.stack startCard .column (.fill 1)
  let layout ← layout.pad startInner (.xy 18 16)
  let (layout, _) ← layout.leaf startInner (.fixed cardTitleH)
  let (layout, pair) ← layout.stack startInner .row (.fixed 30)
  let layout ← layout.lead pair 10
  let layout ← layout.gap pair 8
  let (layout, a) ← layout.leaf pair (.fill 1)
  let (layout, b) ← layout.leaf pair (.fill 1)
  let (layout, c) ← layout.leaf startInner (.fixed 28)
  let layout ← layout.lead c 8
  let (layout, copyToken) ← layout.leaf startInner (.fixed 22)
  let layout ← layout.lead copyToken 17
  let (layout, capCard) ← layout.leaf right (.fill 1)
  some (layout, startCard, [a, b, c], copyToken, capCard)

/-- The height the session card asks for. -/
def needed (sessions : Nat) : Int := sessionChromeH + (max sessions 2 : Nat) * rowH

/-- The session card, as high as its rows need. -/
def sessionsInside (layout : Layout) (sessionCount : Nat) : Option (Layout × Nat × Nat × Nat × List Nat) := do
  let (layout, sessions) ← layout.leaf 0 (.hug (needed sessionCount))
  let layout ← layout.lead sessions pageGap
  let (layout, sessionInner) ← layout.stack sessions .column (.fill 1)
  let layout ← layout.pad sessionInner sessionPad
  let (layout, _) ← layout.leaf sessionInner (.fixed cardTitleH)
  let (layout, sessionHead) ← layout.leaf sessionInner (.fixed 34)
  let (layout, sessionRows) ← layout.stack sessionInner .row (.fill 1)
  let layout ← layout.lead sessionRows 8
  let (layout, role) ← layout.leaf sessionRows (.fixed sessionRoleW)
  let (layout, health) ← layout.leaf sessionRows (.fixed sessionHealthW)
  let (layout, object) ← layout.leaf sessionRows (.fill 1)
  let (layout, traffic) ← layout.leaf sessionRows (.fixed sessionTrafficW)
  let (layout, action) ← layout.leaf sessionRows (.fixed sessionActionW)
  some (layout, sessions, sessionHead, sessionRows, [role, health, object, traffic, action])

/-- `build_layout`. -/
def buildLayout (sessionCount : Nat) : Option ConsoleLayout := do
  let (layout, header, summary, scopeCard, right) ← overviewTop
  let (layout, scopePlot) ← scopeInside layout scopeCard
  let (layout, startCard, startButtons, copyToken, capCard) ← startInside layout right
  let (layout, sessions, sessionHead, sessionRows, sessionCols) ← sessionsInside layout sessionCount
  some ⟨layout, header, summary, scopeCard, scopePlot, startCard, startButtons, copyToken, capCard, sessions,
    sessionHead, sessionCols, sessionRows⟩


namespace ConsoleLayout

/-- `session_card`. -/
def sessionCard (geometry : ConsoleLayout) (solved : Solved) : Rect := solved.get geometry.sessions

/-- `row_area`. -/
def rowArea (geometry : ConsoleLayout) (solved : Solved) : Rect := solved.get geometry.sessionRows

/-- `row_rect`. -/
def rowRect (geometry : ConsoleLayout) (solved : Solved) (slot : Nat) : Rect :=
  { geometry.rowArea solved with y := (geometry.rowArea solved).y + slot * rowH }

/-- `column_rects`. -/
def columnRects (geometry : ConsoleLayout) (solved : Solved) (slot : Nat) : List Rect :=
  geometry.sessionCols.map fun id => { solved.get id with y := (geometry.rowRect solved slot).y }

end ConsoleLayout

/-- `list_rows`. -/
def listRows (area : Rect) : Nat := (max (area.h.tdiv rowH) 1).toNat

/-! ## The tree that is built -/

/-- The middle band and its card are built, the nodes of the page's own stack are there. -/
theorem overviewTop_spec : ∃ l, overviewTop = some (l, 1, 2, 4, 5) ∧ l.nodes.length = 6 ∧
    l.node 0 = ⟨.column, .all 22, 0, 0, .fill 1, [1, 2, 3]⟩ ∧
    (l.size 1 = .fixed 84 ∧ (l.node 1).lead = 0) ∧ (l.size 2 = .fixed 76 ∧ (l.node 2).lead = 0) ∧
    l.size 3 = .fixed 300 ∧ (l.node 3).lead = 14 := by
  have h : Layout.column.nodes.length = 1 := rfl
  have h0 : Layout.column.node 0 = .fresh .column (.fill 1) := rfl
  simp [overviewTop, ↓Option.bind_eq_bind, ↓Layout.stack_bind, ↓Layout.leaf_bind, ↓Layout.pad_bind,
    ↓Layout.gap_bind, ↓Layout.lead_bind, h]
  simp [Layout.size, h, h0, Node.fresh, pagePad, pageHeaderH, summaryH, bandH, pageGap]

/-- The two cards of the band leave the page's own stack as it is. -/
theorem scopeInside_spec {l : Layout} (h : l.nodes.length = 6) :
    ∃ l', scopeInside l 4 = some (l', 8) ∧ l'.nodes.length = 9 ∧ ∀ i < 4, l'.node i = l.node i := by
  simp [scopeInside, ↓Option.bind_eq_bind, ↓Layout.stack_bind, ↓Layout.leaf_bind, ↓Layout.pad_bind, Layout.leaf,
    Layout.stack_eq, h]
  intro i hi
  simp [show i ≠ 4 by omega, show i ≠ 6 by omega, show i ≠ 7 by omega, show i ≠ 8 by omega]

theorem startInside_spec {l : Layout} (h : l.nodes.length = 9) :
    ∃ l', startInside l 5 = some (l', 9, [13, 14, 15], 16, 17) ∧ l'.nodes.length = 18 ∧
      ∀ i < 4, l'.node i = l.node i := by
  simp [startInside, ↓Option.bind_eq_bind, ↓Layout.stack_bind, ↓Layout.leaf_bind, ↓Layout.pad_bind,
    ↓Layout.gap_bind, ↓Layout.lead_bind, h]
  intro i hi
  have hne : ∀ k, 5 ≤ k → i ≠ k := fun k hk => by omega
  simp [hne 5, hne 9, hne 10, hne 11, hne 12, hne 13, hne 14, hne 15, hne 16, hne 17]

theorem sessionsInside_spec {l : Layout} (h : l.nodes.length = 18) (n : Nat) :
    ∃ l', sessionsInside l n = some (l', 18, 21, 22, [23, 24, 25, 26, 27]) ∧
      l'.nodes.length = 28 ∧
      l'.node 0 = { l.node 0 with children := (l.node 0).children ++ [18] } ∧
      (l'.node 1 = l.node 1 ∧ l'.node 2 = l.node 2 ∧ l'.node 3 = l.node 3) ∧
      l'.node 18 = ⟨.column, .none, 0, 14, .hug (needed n), [19]⟩ ∧
      l'.node 19 = ⟨.column, sessionPad, 0, 0, .fill 1, [20, 21, 22]⟩ ∧
      (l'.size 20 = .fixed 20 ∧ (l'.node 20).lead = 0) ∧ (l'.size 21 = .fixed 34 ∧ (l'.node 21).lead = 0) ∧
      l'.node 22 = ⟨.row, .none, 0, 8, .fill 1, [23, 24, 25, 26, 27]⟩ ∧
      (l'.size 23 = .fixed 86 ∧ (l'.node 23).lead = 0) ∧ (l'.size 24 = .fixed 96 ∧ (l'.node 24).lead = 0) ∧
      (l'.size 25 = .fill 1 ∧ (l'.node 25).lead = 0) ∧ (l'.size 26 = .fixed 132 ∧ (l'.node 26).lead = 0) ∧
      l'.size 27 = .fixed 54 ∧ (l'.node 27).lead = 0 := by
  simp [sessionsInside, ↓Option.bind_eq_bind, ↓Layout.stack_bind, ↓Layout.leaf_bind, ↓Layout.pad_bind,
    ↓Layout.lead_bind, h]
  simp [Layout.size, h, Node.fresh, pageGap, cardTitleH, sessionRoleW, sessionHealthW, sessionTrafficW, sessionActionW]

/-- What the tree of the overview says of the nodes that lead to the table. -/
structure OverviewTree (l : Layout) (n : Nat) : Prop where
  root : l.node 0 = ⟨.column, .all 22, 0, 0, .fill 1, [1, 2, 3, 18]⟩
  header : l.size 1 = .fixed 84 ∧ (l.node 1).lead = 0
  summary : l.size 2 = .fixed 76 ∧ (l.node 2).lead = 0
  band : l.size 3 = .fixed 300 ∧ (l.node 3).lead = 14
  card : l.node 18 = ⟨.column, .none, 0, 14, .hug (needed n), [19]⟩
  inner : l.node 19 = ⟨.column, sessionPad, 0, 0, .fill 1, [20, 21, 22]⟩
  title : l.size 20 = .fixed 20 ∧ (l.node 20).lead = 0
  head : l.size 21 = .fixed 34 ∧ (l.node 21).lead = 0
  area : l.node 22 = ⟨.row, .none, 0, 8, .fill 1, [23, 24, 25, 26, 27]⟩
  role : l.size 23 = .fixed 86 ∧ (l.node 23).lead = 0
  health : l.size 24 = .fixed 96 ∧ (l.node 24).lead = 0
  object : l.size 25 = .fill 1 ∧ (l.node 25).lead = 0
  traffic : l.size 26 = .fixed 132 ∧ (l.node 26).lead = 0
  action : l.size 27 = .fixed 54 ∧ (l.node 27).lead = 0

theorem buildLayout_spec (n : Nat) : ∃ l, buildLayout n =
    some ⟨l, 1, 2, 4, 8, 9, [13, 14, 15], 16, 17, 18, 21, [23, 24, 25, 26, 27], 22⟩ ∧ OverviewTree l n := by
  obtain ⟨l₁, htop, hlen₁, hroot, hheader, hsummary, hband⟩ := overviewTop_spec
  obtain ⟨l₂, hscope, hlen₂, hsame₂⟩ := scopeInside_spec hlen₁
  obtain ⟨l₃, hstart, hlen₃, hsame₃⟩ := startInside_spec hlen₂
  obtain ⟨l₄, hsessions, _, hroot₄, ⟨hone, htwo, hthree⟩, hcard, hinner, htitle, hhead, harea, hcolumns⟩ :=
    sessionsInside_spec hlen₃ n
  have hsame : ∀ i < 4, l₃.node i = l₁.node i := fun i hi => (hsame₃ i hi).trans (hsame₂ i hi)
  obtain ⟨hrole, hhealth, hobject, htraffic, haction⟩ := hcolumns
  refine ⟨l₄, ?_, ?_⟩
  · simp only [buildLayout, htop, hscope, hstart, hsessions, Option.bind_eq_bind, Option.bind_some]
  · exact {
      root := by rw [hroot₄, hsame 0 (by decide), hroot]; rfl
      header := by rwa [Layout.size, hone, hsame 1 (by decide)]
      summary := by rwa [Layout.size, htwo, hsame 2 (by decide)]
      band := by rwa [Layout.size, hthree, hsame 3 (by decide)]
      card := hcard
      inner := hinner
      title := htitle
      head := hhead
      area := harea
      role := hrole
      health := hhealth
      object := hobject
      traffic := htraffic
      action := haction }

/-- `build_layout` never panics. -/
def console (n : Nat) : ConsoleLayout := (buildLayout n).get (by
  obtain ⟨l, hl, _⟩ := buildLayout_spec n
  rw [hl]
  rfl)

theorem console_eq (n : Nat) : ∃ l, console n =
    ⟨l, 1, 2, 4, 8, 9, [13, 14, 15], 16, 17, 18, 21, [23, 24, 25, 26, 27], 22⟩ ∧ OverviewTree l n := by
  obtain ⟨l, hl, htree⟩ := buildLayout_spec n
  refine ⟨l, ?_, htree⟩
  simp only [console, hl, Option.get_some]

-- The tree is read by this lemma only.
attribute [irreducible] console

/-! ## Where the table is -/

/-- What the page has for its cards, below the two leads. -/
def roomFor (page : Rect) : Int := max (page.h - 72) 0

/-- The card of the sessions, in numbers. -/
def cardRect (page : Rect) (n : Nat) : Rect where
  x := page.x + 22
  y := page.y + 50 + min 460 (roomFor page)
  w := max (page.w - 44) 0
  h := min (needed n) (max (roomFor page - 460) 0)

/-- What the card has for its title, the headings and the rows. -/
def roomIn (card : Rect) : Int := max (max (card.h - 24) 0 - 8) 0

/-- The rows inside their card, in numbers. -/
def areaRect (card : Rect) : Rect where
  x := card.x + 18
  y := card.y + 24 + min 54 (roomIn card)
  w := max (card.w - 36) 0
  h := max (roomIn card - 54) 0

theorem root_mem_calls (l : Layout) (rect : Rect) : (0, rect) ∈ l.calls rect := by
  have hpos := l.nonempty
  unfold Layout.calls
  obtain ⟨k, hk⟩ : ∃ k, l.nodes.length = k + 1 := ⟨l.nodes.length - 1, by omega⟩
  rw [hk]
  exact List.mem_cons_self

theorem child_mem_calls {l : Layout} {rect : Rect} {call r : Nat × Rect} (hcall : call ∈ l.calls rect)
    (hr : r ∈ l.childRects call.1 call.2) : r ∈ l.calls rect :=
  mem_visits_of_step l.tree (childRects_fst l) (by omega) hcall hr

variable {l : Layout} {n : Nat}

/-- The turn on the page. -/
theorem card_mem (h : OverviewTree l n) (page : Rect) : (18, cardRect page n) ∈ l.childRects 0 page := by
  have hcard : l.size 18 = .hug (needed n) ∧ (l.node 18).lead = 14 := by
    rw [Layout.size, h.card]
    exact ⟨rfl, rfl⟩
  have hneeded : 0 ≤ needed n := by
    unfold needed sessionChromeH rowH
    omega
  simp [Layout.childRects, Layout.handOut, h.root, h.header, h.summary, h.band, hcard, Layout.available,
    Layout.gapTotal, Layout.leadTotal, Layout.childRect, cardRect, want, fixedTotal, Axis.main, Axis.mainStart,
    Rect.inset, Insets.all, roomFor]
  omega

/-- The turn on the card: its inner stack is all of it. -/
theorem inner_mem (h : OverviewTree l n) {card : Rect} (hh : 0 ≤ card.h) (hw : 0 ≤ card.w) :
    (19, card) ∈ l.childRects 18 card := by
  have hinner : l.size 19 = .fill 1 ∧ (l.node 19).lead = 0 := by
    rw [Layout.size, h.inner]
    exact ⟨rfl, rfl⟩
  simp [Layout.childRects, Layout.handOut, h.card, hinner, Layout.available, Layout.gapTotal, Layout.leadTotal,
    Layout.childRect, want, Axis.main, Axis.mainStart, Rect.inset, Insets.none, weightTotal, Size.weight, Layout.sizes]
  rw [Int.max_eq_left hh, Int.max_eq_left hw]

/-- The turn on the inside of the card. -/
theorem area_mem (h : OverviewTree l n) (card : Rect) : (22, areaRect card) ∈ l.childRects 19 card := by
  have harea : l.size 22 = .fill 1 ∧ (l.node 22).lead = 8 := by
    rw [Layout.size, h.area]
    exact ⟨rfl, rfl⟩
  simp [Layout.childRects, Layout.handOut, h.inner, h.title, h.head, harea, Layout.available, Layout.gapTotal,
    Layout.leadTotal, Layout.childRect, want, Axis.main, Axis.mainStart, Rect.inset, sessionPad, weightTotal,
    Size.weight, Layout.sizes, areaRect, roomIn]
  omega

/-- The turn on the rows: the columns are as wide as they together, and the last one ends where they do. -/
theorem action_mem (h : OverviewTree l n) {area : Rect} (hw : 0 ≤ area.w) :
    ∃ r, (27, r) ∈ l.childRects 22 area ∧ r.right = area.right := by
  simp [Layout.childRects, Layout.handOut, h.area, h.role, h.health, h.object, h.traffic, h.action, Layout.available,
    Layout.gapTotal, Layout.leadTotal, Layout.childRect, want, Axis.main, Axis.mainStart, Rect.inset, Insets.none,
    weightTotal, Size.weight, Layout.sizes, Rect.right, Size.isFill, Size.asked]
  rw [Int.max_eq_left hw]
  omega

/-- The session card is where the numbers say, on a page of any size. -/
theorem sessionCard_eq (page : Rect) (n : Nat) :
    (console n).sessionCard ((console n).layout.solve page) = cardRect page n := by
  obtain ⟨l, hl, htree⟩ := console_eq n
  rw [hl]
  exact solve_get (child_mem_calls (root_mem_calls l page) (card_mem htree page))

theorem cardRect_nonneg (page : Rect) (n : Nat) : 0 ≤ (cardRect page n).h ∧ 0 ≤ (cardRect page n).w := by
  simp only [cardRect, needed, sessionChromeH, rowH]
  omega

theorem area_mem_calls (h : OverviewTree l n) (page : Rect) : (22, areaRect (cardRect page n)) ∈ l.calls page := by
  obtain ⟨hh, hw⟩ := cardRect_nonneg page n
  have hcard : (18, cardRect page n) ∈ l.calls page := child_mem_calls (root_mem_calls l page) (card_mem h page)
  have hinner : (19, cardRect page n) ∈ l.calls page := child_mem_calls hcard (inner_mem h hh hw)
  exact child_mem_calls hinner (area_mem h _)

/-- And so are its rows. -/
theorem rowArea_eq (page : Rect) (n : Nat) :
    (console n).rowArea ((console n).layout.solve page) = areaRect (cardRect page n) := by
  obtain ⟨l, hl, htree⟩ := console_eq n
  rw [hl]
  exact solve_get (area_mem_calls htree page)

-- The page of the geometry tests, with two sessions.
example : cardRect ⟨0, 0, 944, 714⟩ 2 = ⟨22, 510, 900, 182⟩ := by decide

example : areaRect (cardRect ⟨0, 0, 944, 714⟩ 2) = ⟨40, 588, 864, 96⟩ := by decide

/-- The action column of a row ends where the row does. -/
theorem action_right (page : Rect) (n slot : Nat) :
    ∃ r, ((console n).columnRects ((console n).layout.solve page) slot)[4]? = some r ∧
      r.right = (areaRect (cardRect page n)).right := by
  obtain ⟨l, hl, htree⟩ := console_eq n
  have hw : 0 ≤ (areaRect (cardRect page n)).w := Int.le_max_right _ 0
  obtain ⟨r, hr, hright⟩ := action_mem htree hw
  have hget : (l.solve page).get 27 = r := solve_get (child_mem_calls (area_mem_calls htree page) hr)
  refine ⟨_, by rw [hl]; rfl, ?_⟩
  simp only [hget]
  exact hright

end Console
end RemoteX11.Gui
