/-
  The layout of a page: a tree of stacks turned into rectangles (`ui/layout.rs`).

  The numbers of the source are `i32`, and plain integers here: the results hold as long as none of them
  overflows. A `Layout` carries the fact that its nodes are a tree, which the builders keep.

  `solve` walks the tree (`place_eq_visits`): every node gets the rectangle its parent's turn hands out
  (`solve_get`), and an overflow is one of some node on the way (`solve_overflow`). The children are not always
  inside: a cursor moves by the insets, the leads and the gaps however little space there is. `children_inside_iff`
  says when they are.
-/
import RemoteX11.Lib.Arena
import Mathlib.Algebra.Order.BigOperators.Group.List
import Mathlib.Algebra.Order.Ring.Int

namespace RemoteX11.Gui

open RemoteX11.Lib

/-! ## Rectangles and nodes -/

structure Insets where
  top : Int
  right : Int
  bottom : Int
  left : Int
  deriving DecidableEq, Repr

/-- `Insets::default`. -/
def Insets.none : Insets := ⟨0, 0, 0, 0⟩

structure Rect where
  x : Int
  y : Int
  w : Int
  h : Int
  deriving DecidableEq, Repr

namespace Rect

def right (r : Rect) : Int := r.x + r.w

def bottom (r : Rect) : Int := r.y + r.h

def inset (r : Rect) (insets : Insets) : Rect where
  x := r.x + insets.left
  y := r.y + insets.top
  w := max (r.w - insets.left - insets.right) 0
  h := max (r.h - insets.top - insets.bottom) 0

def inside (r outer : Rect) : Bool :=
  decide (outer.x ≤ r.x) && decide (outer.y ≤ r.y) && decide (r.right ≤ outer.right) &&
    decide (r.bottom ≤ outer.bottom)

end Rect

inductive Axis where
  | column
  | row
  deriving DecidableEq, Repr

namespace Axis

def main : Axis → Rect → Int
  | column, r => r.h
  | row, r => r.w

def mainStart : Axis → Rect → Int
  | column, r => r.y
  | row, r => r.x

end Axis

/-- What a child asks for; the weight of a `Fill` is a `u32`. -/
inductive Size where
  | fixed (v : Int)
  | hug (v : Int)
  | fill (w : Nat)
  deriving DecidableEq, Repr

structure Node where
  axis : Axis
  insets : Insets
  gap : Int
  lead : Int
  size : Size
  children : List Nat
  deriving DecidableEq, Repr

/-- A node as the builders push it. -/
def Node.fresh (axis : Axis) (size : Size) : Node := ⟨axis, .none, 0, 0, size, []⟩

/-- The children of the node at an index. -/
def childrenOf (nodes : List Node) (id : Nat) : List Nat := (nodes.getD id (.fresh .column (.fill 1))).children

/-- A layout is private to its module, which builds trees only; the root is node 0. -/
structure Layout where
  nodes : List Node
  nonempty : 0 < nodes.length
  tree : IsTree nodes.length (childrenOf nodes)

/-! ## Builders -/

theorem childrenOf_of_ge {nodes : List Node} {id : Nat} (h : nodes.length ≤ id) : childrenOf nodes id = [] := by
  rw [childrenOf, List.getD_eq_getElem?_getD, List.getElem?_eq_none h]
  rfl

/-- A node that is changed without its children. -/
theorem childrenOf_modify {nodes : List Node} {id : Nat} {f : Node → Node}
    (h : ∀ node, (f node).children = node.children) : childrenOf (nodes.modify id f) = childrenOf nodes := by
  funext i
  unfold childrenOf
  rw [List.getD_eq_getElem?_getD, List.getD_eq_getElem?_getD, List.getElem?_modify]
  cases nodes[i]? with
  | none => rfl
  | some node =>
    show (if id = i then f node else node).children = node.children
    by_cases hi : id = i
    · rw [if_pos hi]
      exact h node
    · rw [if_neg hi]

/-- A new node under `parent`. -/
theorem childrenOf_add {nodes : List Node} {parent : Nat} (hparent : parent < nodes.length) {node : Node}
    (hnode : node.children = []) (i : Nat) :
    childrenOf ((nodes ++ [node]).modify parent fun p => { p with children := p.children ++ [nodes.length] }) i =
      if i = parent then childrenOf nodes i ++ [nodes.length] else childrenOf nodes i := by
  unfold childrenOf
  rw [List.getD_eq_getElem?_getD, List.getD_eq_getElem?_getD, List.getElem?_modify]
  by_cases hi : i = parent
  · subst hi
    rw [if_pos rfl, List.getElem?_append_left hparent, List.getElem?_eq_getElem hparent]
    simp
  · have hother : ¬ parent = i := fun h => hi h.symm
    rw [if_neg hi]
    by_cases hlt : i < nodes.length
    · rw [List.getElem?_append_left hlt, List.getElem?_eq_getElem hlt]
      simp [hother]
    · rw [List.getElem?_eq_none (Nat.not_lt.mp hlt)]
      by_cases hnew : i = nodes.length
      · subst hnew
        simp [hother, hnode, Node.fresh]
      · rw [List.getElem?_eq_none (by rw [List.length_append, List.length_singleton]; omega)]
        rfl

namespace Layout

/-- `with_axis`. -/
def withAxis (axis : Axis) : Layout where
  nodes := [.fresh axis (.fill 1)]
  nonempty := Nat.one_pos
  tree := isTree_root fun i => by
    cases i with
    | zero => rfl
    | succ i => exact childrenOf_of_ge (Nat.le_add_left 1 i)

def column : Layout := withAxis .column

def row : Layout := withAxis .row

def root (_ : Layout) : Nat := 0

/-- `stack`; a parent that is no node is a panic. -/
def stack (l : Layout) (parent : Nat) (axis : Axis) (size : Size) : Option (Layout × Nat) :=
  if hparent : parent < l.nodes.length then
    let id := l.nodes.length
    some ({
      nodes := (l.nodes ++ [Node.fresh axis size]).modify parent fun p => { p with children := p.children ++ [id] }
      nonempty := by
        rw [List.length_modify, List.length_append]
        exact Nat.lt_of_lt_of_le l.nonempty (Nat.le_add_right _ _)
      tree := by
        rw [List.length_modify, List.length_append, List.length_singleton]
        exact l.tree.add hparent (childrenOf_add hparent rfl) }, id)
  else none

/-- `leaf`. -/
def leaf (l : Layout) (parent : Nat) (size : Size) : Option (Layout × Nat) := l.stack parent .column size

/-- A setter of a field; a node that is not there is a panic. -/
def set (l : Layout) (id : Nat) (f : Node → Node) (h : ∀ node, (f node).children = node.children) : Option Layout :=
  if id < l.nodes.length then
    some {
      nodes := l.nodes.modify id f
      nonempty := by
        rw [List.length_modify]
        exact l.nonempty
      tree := by
        rw [List.length_modify, childrenOf_modify h]
        exact l.tree }
  else none

def pad (l : Layout) (id : Nat) (insets : Insets) : Option Layout :=
  l.set id (fun node => { node with insets := insets }) fun _ => rfl

def gap (l : Layout) (id : Nat) (gap : Int) : Option Layout :=
  l.set id (fun node => { node with gap := gap }) fun _ => rfl

def lead (l : Layout) (id : Nat) (lead : Int) : Option Layout :=
  l.set id (fun node => { node with lead := lead }) fun _ => rfl

/-- `self.nodes[id]`; every index used is a node of the tree. -/
def node (l : Layout) (id : Nat) : Node := l.nodes.getD id (.fresh .column (.fill 1))

end Layout

/-! ## A turn of the solver -/

/-- What a `Fixed` is promised. -/
def Size.fixedPart : Size → Int
  | fixed v => max v 0
  | hug _ => 0
  | fill _ => 0

/-- What a `Fixed` or a `Hug` asks for. -/
def Size.asked : Size → Int
  | fixed v => max v 0
  | hug v => max v 0
  | fill _ => 0

/-- The weight of a `Fill`. -/
def Size.weight : Size → Nat
  | fixed _ => 0
  | hug _ => 0
  | fill w => max w 1

def Size.isFill : Size → Bool
  | fixed _ => false
  | hug _ => false
  | fill _ => true

/-- `fixed_total`, and `trailing_fixed` of the sizes behind a child. -/
def fixedTotal (sizes : List Size) : Int := (sizes.map Size.fixedPart).sum

def weightTotal (sizes : List Size) : Nat := (sizes.map Size.weight).sum

/-- `want`: what a child takes if it is there, with the sizes of its later siblings. -/
def want (leftover : Int) (weights : Nat) (remaining : Int) (later : List Size) : Size → Int
  | .fixed v => max v 0
  | .hug v => min (max v 0) (max (remaining - fixedTotal later) 0)
  | .fill w =>
    if weights = 0 then 0
    else
      let trailing := (later.map Size.asked).sum
      let lastFill := later.all fun size => !size.isFill
      if lastFill then max (remaining - trailing) 0 else (leftover * max w 1).tdiv weights

namespace Layout

def size (l : Layout) (id : Nat) : Size := (l.node id).size

def gapTotal (l : Layout) (id : Nat) : Int :=
  (l.node id).gap * max (((l.node id).children.length : Int) - 1) 0

def leadTotal (l : Layout) (id : Nat) : Int := ((l.node id).children.map fun c => (l.node c).lead).sum

/-- What the children of a node in `rect` have between them. -/
def available (l : Layout) (id : Nat) (rect : Rect) : Int :=
  max ((l.node id).axis.main (rect.inset (l.node id).insets) - l.gapTotal id - l.leadTotal id) 0

/-- The sizes of the children of a node. -/
def sizes (l : Layout) (id : Nat) : List Size := (l.node id).children.map l.size

def leftover (l : Layout) (id : Nat) (rect : Rect) : Int :=
  max (l.available id rect - fixedTotal (l.sizes id)) 0

/-- Whether the turn on a node in `rect` reports an overflow. -/
def overflows (l : Layout) (id : Nat) (rect : Rect) : Bool :=
  decide (l.available id rect < fixedTotal (l.sizes id))

/-- The rectangle of a child that starts at `cursor`. -/
def childRect (axis : Axis) (inner : Rect) (cursor take : Int) : Rect :=
  match axis with
  | .column => ⟨inner.x, cursor, inner.w, take⟩
  | .row => ⟨cursor, inner.y, take, inner.h⟩

/-- The loop over the children, without the calls on them: the rectangle each is given. -/
def handOut (l : Layout) (axis : Axis) (gap : Int) (inner : Rect) (leftover : Int) (weights : Nat) :
    List Nat → Int → Int → List (Nat × Rect)
  | [], _, _ => []
  | child :: rest, cursor, remaining =>
    let cursor := cursor + (l.node child).lead
    let take := min (want leftover weights remaining (rest.map l.size) (l.size child)) remaining
    (child, childRect axis inner cursor take) ::
      handOut l axis gap inner leftover weights rest (cursor + take + gap) (remaining - take)

/-- The rectangles a node in `rect` gives its children. -/
def childRects (l : Layout) (id : Nat) (rect : Rect) : List (Nat × Rect) :=
  let node := l.node id
  let inner := rect.inset node.insets
  l.handOut node.axis node.gap inner (l.leftover id rect) (weightTotal (l.sizes id)) node.children
    (node.axis.mainStart inner) (l.available id rect)

end Layout

/-! ## Solving -/

structure Solved where
  rects : List Rect
  overflow : Bool
  deriving DecidableEq, Repr

def Solved.get (s : Solved) (id : Nat) : Rect := s.rects.getD id ⟨0, 0, 0, 0⟩

namespace Layout

/-- `place`. The calls on the children do not touch the loop's variables, so they follow it here. A call goes from a
    node to one with a greater number, and the number of nodes is fuel enough. -/
def place (l : Layout) : Nat → Nat → Rect → Solved → Solved
  | 0, _, _, solved => solved
  | fuel + 1, id, rect, solved =>
    let solved := { solved with rects := solved.rects.set id rect }
    if (l.node id).children = [] then solved
    else
      let solved := if l.overflows id rect then { solved with overflow := true } else solved
      (l.childRects id rect).foldl (fun solved child => place l fuel child.1 child.2 solved) solved

def solve (l : Layout) (rect : Rect) : Solved :=
  l.place l.nodes.length l.root rect ⟨List.replicate l.nodes.length ⟨0, 0, 0, 0⟩, false⟩

/-- The calls of `place`, in order: the node and the rectangle it is given. -/
def calls (l : Layout) (rect : Rect) : List (Nat × Rect) := visits l.childRects l.nodes.length 0 rect

/-- One call of `place`, without those on the children. -/
def visit (l : Layout) (solved : Solved) (call : Nat × Rect) : Solved where
  rects := solved.rects.set call.1 call.2
  overflow := solved.overflow || l.overflows call.1 call.2

end Layout

/-! ## What solving computes -/

theorem handOut_fst (l : Layout) (axis : Axis) (gap : Int) (inner : Rect) (leftover : Int) (weights : Nat)
    (children : List Nat) (cursor remaining : Int) :
    (l.handOut axis gap inner leftover weights children cursor remaining).map Prod.fst = children := by
  induction children generalizing cursor remaining with
  | nil => rfl
  | cons child rest ih =>
    unfold Layout.handOut
    rw [List.map_cons, ih]

theorem childRects_fst (l : Layout) (id : Nat) (rect : Rect) :
    (l.childRects id rect).map Prod.fst = childrenOf l.nodes id :=
  handOut_fst l _ _ _ _ _ _ _ _

theorem childRects_nil {l : Layout} {id : Nat} (h : (l.node id).children = []) (rect : Rect) :
    l.childRects id rect = [] := by
  rw [← List.map_eq_nil_iff (f := Prod.fst), childRects_fst]
  exact h

/-- A leaf promises nothing. -/
theorem overflows_leaf {l : Layout} {id : Nat} (h : (l.node id).children = []) (rect : Rect) :
    l.overflows id rect = false := by
  unfold Layout.overflows Layout.sizes Layout.available
  rw [h]
  exact decide_eq_false (Int.not_lt.mpr (Int.le_max_right _ 0))

/-- The recursion is a walk of the tree. -/
theorem place_eq_visits (l : Layout) (fuel id : Nat) (rect : Rect) (solved : Solved) :
    l.place fuel id rect solved = (visits l.childRects fuel id rect).foldl l.visit solved := by
  induction fuel generalizing id rect solved with
  | zero => rfl
  | succ fuel ih =>
    rw [Layout.place, visits, List.foldl_cons, List.foldl_flatMap]
    by_cases hleaf : (l.node id).children = []
    · rw [if_pos hleaf, childRects_nil hleaf, List.foldl_nil, Layout.visit, overflows_leaf hleaf, Bool.or_false]
    · rw [if_neg hleaf]
      have hvisit : (if l.overflows id rect then
          ({ ({ solved with rects := solved.rects.set id rect } : Solved) with overflow := true } : Solved)
          else { solved with rects := solved.rects.set id rect }) = l.visit solved (id, rect) := by
        unfold Layout.visit
        cases l.overflows id rect with
        | true => simp
        | false => simp
      simp only [hvisit, ih]

theorem foldl_visit (l : Layout) (calls : List (Nat × Rect)) (solved : Solved) :
    (calls.foldl l.visit solved).rects = calls.foldl (fun rects call => rects.set call.1 call.2) solved.rects ∧
      (calls.foldl l.visit solved).overflow =
        (solved.overflow || calls.any fun call => l.overflows call.1 call.2) := by
  induction calls generalizing solved with
  | nil => exact ⟨rfl, (Bool.or_false _).symm⟩
  | cons call calls ih =>
    rw [List.foldl_cons, List.foldl_cons, List.any_cons, ← Bool.or_assoc]
    exact ih (l.visit solved call)

theorem solve_eq (l : Layout) (rect : Rect) :
    l.solve rect = (l.calls rect).foldl l.visit ⟨List.replicate l.nodes.length ⟨0, 0, 0, 0⟩, false⟩ :=
  place_eq_visits l _ _ _ _

/-- A node that is called has the rectangle of the call. -/
theorem solve_get {l : Layout} {rect : Rect} {call : Nat × Rect} (h : call ∈ l.calls rect) :
    (l.solve rect).get call.1 = call.2 := by
  have hnode : call.1 < l.nodes.length := by
    obtain rfl | ⟨p, _, hp⟩ := visits_parent h
    · exact l.nonempty
    · exact l.tree.below p.1 _ (mem_children_of_step (childRects_fst l) hp)
  have hlength : call.1 < (List.replicate l.nodes.length (⟨0, 0, 0, 0⟩ : Rect)).length := by
    rwa [List.length_replicate]
  have hrects : (l.solve rect).rects[call.1]? = some call.2 := by
    rw [solve_eq, (foldl_visit l _ _).1]
    exact foldl_set_of_mem (visits_nodup l.tree (childRects_fst l) _ _ _) h hlength
  rw [Solved.get, List.getD_eq_getElem?_getD, hrects, Option.getD_some]

theorem solve_overflow (l : Layout) (rect : Rect) :
    (l.solve rect).overflow = (l.calls rect).any fun call => l.overflows call.1 call.2 := by
  rw [solve_eq, (foldl_visit l _ _).2, Bool.false_or]

/-- A property of every node and its children, in the rectangles they get, is one of every call. -/
theorem forall_children_iff (l : Layout) (rect : Rect) (P : Nat → Rect → Nat → Rect → Prop) :
    (∀ id, ∀ child ∈ (l.node id).children, P id ((l.solve rect).get id) child ((l.solve rect).get child)) ↔
      ∀ call ∈ l.calls rect, ∀ r ∈ l.childRects call.1 call.2, P call.1 call.2 r.1 r.2 := by
  constructor
  · intro h call hcall r hr
    have hchild : r ∈ l.calls rect :=
      mem_visits_of_step l.tree (childRects_fst l) (by omega) hcall hr
    have := h call.1 r.1 (mem_children_of_step (childRects_fst l) hr)
    rwa [solve_get hcall, solve_get hchild] at this
  · intro h id child hchild
    have hid : id < l.nodes.length := by
      by_contra hge
      have hnone : (l.node id).children = [] := childrenOf_of_ge (Nat.not_lt.mp hge)
      rw [hnone] at hchild
      cases hchild
    obtain ⟨r, hcall⟩ := visits_total l.tree (childRects_fst l) (Nat.le_refl _) rect hid
    have hmem : child ∈ (l.childRects id r).map Prod.fst := by
      rw [childRects_fst]
      exact hchild
    obtain ⟨s, hs, rfl⟩ := List.mem_map.mp hmem
    have hcalled : s ∈ l.calls rect := mem_visits_of_step l.tree (childRects_fst l) (by omega) hcall hs
    rw [solve_get hcalled, show (l.solve rect).get id = r from solve_get hcall]
    exact h (id, r) hcall s hs

/-! ## Where the children of a turn end -/

theorem want_nonneg {leftover : Int} (hleftover : 0 ≤ leftover) (weights : Nat) (remaining : Int)
    (later : List Size) (size : Size) : 0 ≤ want leftover weights remaining later size := by
  cases size with
  | fixed v => exact Int.le_max_right v 0
  | hug v => exact Int.le_min.mpr ⟨Int.le_max_right v 0, Int.le_max_right _ 0⟩
  | fill w =>
    unfold want
    simp only
    split
    · exact Int.le_refl 0
    · split
      · exact Int.le_max_right _ 0
      · exact Int.tdiv_nonneg (Int.mul_nonneg hleftover (Int.natCast_nonneg _)) (Int.natCast_nonneg _)

section

variable (l : Layout) (axis : Axis) {gap : Int} (inner : Rect) {leftover : Int} (weights : Nat)

/-- Where a child ends on the main axis. -/
def mainEnd (axis : Axis) (r : Rect) : Int := axis.mainStart r + axis.main r

@[simp] theorem mainStart_childRect (cursor take : Int) :
    axis.mainStart (Layout.childRect axis inner cursor take) = cursor := by
  cases axis <;> rfl

@[simp] theorem main_childRect (cursor take : Int) :
    axis.main (Layout.childRect axis inner cursor take) = take := by
  cases axis <;> rfl

/-- No child starts before the cursor or ends behind what the leads, the gaps and the space there is add up to. -/
theorem handOut_within (hgap : 0 ≤ gap) (hlead : ∀ c, 0 ≤ (l.node c).lead) (hleftover : 0 ≤ leftover)
    {children : List Nat} {cursor remaining : Int} (hremaining : 0 ≤ remaining) {r : Nat × Rect}
    (hr : r ∈ l.handOut axis gap inner leftover weights children cursor remaining) :
    cursor ≤ axis.mainStart r.2 ∧
      mainEnd axis r.2 ≤ cursor + (children.map fun c => (l.node c).lead).sum +
        gap * ((children.length : Int) - 1) + remaining := by
  induction children generalizing cursor remaining with
  | nil => cases hr
  | cons child rest ih =>
    have hfirst := hlead child
    have hrest : 0 ≤ (rest.map fun c => (l.node c).lead).sum :=
      List.sum_nonneg fun x hx => by
        obtain ⟨c, _, rfl⟩ := List.mem_map.mp hx
        exact hlead c
    have hwant := want_nonneg hleftover weights remaining (rest.map l.size) (l.size child)
    rw [List.map_cons, List.sum_cons, List.length_cons]
    unfold Layout.handOut at hr
    simp only [List.mem_cons] at hr
    generalize want leftover weights remaining (rest.map l.size) (l.size child) = wanted at hr hwant
    have hgaps : gap * (((rest.length + 1 : Nat) : Int) - 1) = gap * (rest.length : Int) := by
      congr 1
      omega
    rw [hgaps]
    obtain rfl | hr := hr
    · have hnonneg : 0 ≤ gap * (rest.length : Int) := Int.mul_nonneg hgap (by omega)
      unfold mainEnd
      simp only [mainStart_childRect, main_childRect]
      omega
    · obtain ⟨hstart, hend⟩ := ih (by omega) hr
      rw [Int.mul_sub, Int.mul_one] at hend
      omega

/-- The last child ends behind all the leads and gaps. -/
theorem handOut_last (hleftover : 0 ≤ leftover) {children : List Nat} (hne : children ≠ [])
    (cursor remaining : Int) (hremaining : 0 ≤ remaining) :
    ∃ r ∈ l.handOut axis gap inner leftover weights children cursor remaining,
      cursor + (children.map fun c => (l.node c).lead).sum + gap * ((children.length : Int) - 1) ≤
        mainEnd axis r.2 := by
  induction children generalizing cursor remaining with
  | nil => exact absurd rfl hne
  | cons child rest ih =>
    have hwant := want_nonneg hleftover weights remaining (rest.map l.size) (l.size child)
    rw [List.map_cons, List.sum_cons, List.length_cons]
    unfold Layout.handOut
    simp only [List.mem_cons]
    generalize want leftover weights remaining (rest.map l.size) (l.size child) = wanted at hwant ⊢
    by_cases hrest : rest = []
    · refine ⟨_, .inl rfl, ?_⟩
      subst hrest
      unfold mainEnd
      simp only [mainStart_childRect, main_childRect, List.map_nil, List.sum_nil, List.length_nil]
      have hzero : gap * (((0 + 1 : Nat) : Int) - 1) = 0 := Int.mul_zero gap
      omega
    · obtain ⟨r, hr, hend⟩ := ih hrest (cursor + (l.node child).lead + min wanted remaining + gap)
        (remaining - min wanted remaining) (by omega)
      refine ⟨r, .inr hr, ?_⟩
      have hgaps : gap * (((rest.length + 1 : Nat) : Int) - 1) = gap + gap * ((rest.length : Int) - 1) := by
        have hlength : ((rest.length + 1 : Nat) : Int) - 1 = 1 + ((rest.length : Int) - 1) := by omega
        rw [hlength, Int.mul_add, Int.mul_one]
      omega

end

/-! ## Children inside their parents -/

namespace Axis

def cross : Axis → Rect → Int
  | column, r => r.w
  | row, r => r.h

def crossStart : Axis → Rect → Int
  | column, r => r.x
  | row, r => r.y

/-- The inset before the children, along the stack and across it. -/
def mainInset : Axis → Insets → Int
  | column, insets => insets.top
  | row, insets => insets.left

def crossInset : Axis → Insets → Int
  | column, insets => insets.left
  | row, insets => insets.top

end Axis

def Size.NonNegative : Size → Prop
  | fixed v => 0 ≤ v
  | hug v => 0 ≤ v
  | fill _ => True

instance : DecidablePred Size.NonNegative := fun size =>
  match size with
  | .fixed v => inferInstanceAs (Decidable (0 ≤ v))
  | .hug v => inferInstanceAs (Decidable (0 ≤ v))
  | .fill _ => inferInstanceAs (Decidable True)

def Insets.NonNegative (insets : Insets) : Prop :=
  0 ≤ insets.top ∧ 0 ≤ insets.right ∧ 0 ≤ insets.bottom ∧ 0 ≤ insets.left

instance (insets : Insets) : Decidable insets.NonNegative := inferInstanceAs (Decidable (_ ∧ _))

def Node.NonNegative (node : Node) : Prop :=
  node.insets.NonNegative ∧ 0 ≤ node.gap ∧ 0 ≤ node.lead ∧ node.size.NonNegative

instance (node : Node) : Decidable node.NonNegative := inferInstanceAs (Decidable (_ ∧ _))

namespace Layout

/-- No parameter of the layout is negative. -/
def NonNegative (l : Layout) : Prop := ∀ node ∈ l.nodes, node.NonNegative

instance (l : Layout) : Decidable l.NonNegative := List.decidableBAll _ _

/-- Every child is inside its parent. -/
def ChildrenInside (l : Layout) (solved : Solved) : Prop :=
  ∀ id, ∀ child ∈ (l.node id).children, (solved.get child).inside (solved.get id)

/-- A call that keeps the children of its node inside: across, the rectangle has room for the inset before them, and
    along the main axis for the inset, the gaps and the leads. -/
def Fits (l : Layout) (id : Nat) (rect : Rect) : Prop :=
  (l.node id).children ≠ [] →
    (l.node id).axis.crossInset (l.node id).insets ≤ (l.node id).axis.cross rect ∧
      (l.node id).axis.mainInset (l.node id).insets + l.leadTotal id + l.gapTotal id ≤ (l.node id).axis.main rect

instance (l : Layout) (id : Nat) (rect : Rect) : Decidable (l.Fits id rect) :=
  inferInstanceAs (Decidable (_ → _ ∧ _))

end Layout

theorem node_nonNegative {l : Layout} (h : l.NonNegative) (id : Nat) : (l.node id).NonNegative := by
  unfold Layout.node
  rw [List.getD_eq_getElem?_getD]
  cases hnode : l.nodes[id]? with
  | none =>
    rw [Option.getD_none]
    decide
  | some node => exact h node (List.mem_of_getElem? hnode)

/-- The gaps, as the loop adds them up. -/
theorem gapTotal_eq {l : Layout} {id : Nat} (h : (l.node id).children ≠ []) :
    l.gapTotal id = (l.node id).gap * (((l.node id).children.length : Int) - 1) := by
  have hlength : 0 < (l.node id).children.length := List.length_pos_iff.mpr h
  rw [Layout.gapTotal, Int.max_eq_left (by omega)]

/-- A child has the inner extent on the cross axis. -/
theorem handOut_cross (l : Layout) (axis : Axis) {gap : Int} (inner : Rect) {leftover : Int} (weights : Nat)
    {children : List Nat} {cursor remaining : Int} {r : Nat × Rect}
    (hr : r ∈ l.handOut axis gap inner leftover weights children cursor remaining) :
    axis.crossStart r.2 = axis.crossStart inner ∧ axis.cross r.2 = axis.cross inner := by
  induction children generalizing cursor remaining with
  | nil => cases hr
  | cons child rest ih =>
    unfold Layout.handOut at hr
    obtain rfl | hr := List.mem_cons.mp hr
    · unfold Layout.childRect
      cases axis <;> exact ⟨rfl, rfl⟩
    · exact ih hr

/-- Being inside, along an axis and across it. -/
theorem inside_iff (axis : Axis) {r outer : Rect} :
    r.inside outer = true ↔
      (axis.mainStart outer ≤ axis.mainStart r ∧ mainEnd axis r ≤ mainEnd axis outer) ∧
        axis.crossStart outer ≤ axis.crossStart r ∧
          axis.crossStart r + axis.cross r ≤ axis.crossStart outer + axis.cross outer := by
  have hsides : r.inside outer = true ↔ outer.x ≤ r.x ∧ outer.y ≤ r.y ∧ r.x + r.w ≤ outer.x + outer.w ∧
      r.y + r.h ≤ outer.y + outer.h := by
    unfold Rect.inside Rect.right Rect.bottom
    rw [Bool.and_eq_true, Bool.and_eq_true, Bool.and_eq_true, decide_eq_true_iff, decide_eq_true_iff,
      decide_eq_true_iff, decide_eq_true_iff, and_assoc, and_assoc]
  rw [hsides]
  cases axis with
  | column =>
    simp only [mainEnd, Axis.mainStart, Axis.main, Axis.crossStart, Axis.cross]
    omega
  | row =>
    simp only [mainEnd, Axis.mainStart, Axis.main, Axis.crossStart, Axis.cross]
    omega

/-- The inner rectangle starts behind the inset, and its extent is what is left at most. -/
theorem inset_bounds (axis : Axis) (rect : Rect) {insets : Insets} (h : insets.NonNegative) :
    (axis.mainStart (rect.inset insets) = axis.mainStart rect + axis.mainInset insets ∧
      axis.crossStart (rect.inset insets) = axis.crossStart rect + axis.crossInset insets) ∧
      (0 ≤ axis.mainInset insets ∧ 0 ≤ axis.crossInset insets) ∧
      axis.main (rect.inset insets) ≤ max (axis.main rect - axis.mainInset insets) 0 ∧
      0 ≤ axis.cross (rect.inset insets) ∧
      axis.cross (rect.inset insets) ≤ max (axis.cross rect - axis.crossInset insets) 0 := by
  obtain ⟨htop, hright, hbottom, hleft⟩ := h
  cases axis with
  | column =>
    refine ⟨⟨rfl, rfl⟩, ⟨htop, hleft⟩, ?_⟩
    simp only [Axis.main, Axis.cross, Axis.mainInset, Axis.crossInset, Rect.inset]
    omega
  | row =>
    refine ⟨⟨rfl, rfl⟩, ⟨hleft, htop⟩, ?_⟩
    simp only [Axis.main, Axis.cross, Axis.mainInset, Axis.crossInset, Rect.inset]
    omega

/-- One turn keeps the children inside if and only if the rectangle fits. -/
theorem childRects_inside_iff {l : Layout} (h : l.NonNegative) (id : Nat) (rect : Rect) :
    (∀ r ∈ l.childRects id rect, r.2.inside rect) ↔ l.Fits id rect := by
  by_cases hleaf : (l.node id).children = []
  · rw [childRects_nil hleaf]
    exact ⟨fun _ hne => absurd hleaf hne, fun _ r hr => by cases hr⟩
  · obtain ⟨hinsets, hgap, _, _⟩ := node_nonNegative h id
    have hlead : ∀ c, 0 ≤ (l.node c).lead := fun c => (node_nonNegative h c).2.2.1
    have hleads : 0 ≤ l.leadTotal id := List.sum_nonneg fun x hx => by
      obtain ⟨c, _, rfl⟩ := List.mem_map.mp hx
      exact hlead c
    have hgaps : 0 ≤ l.gapTotal id := Int.mul_nonneg hgap (Int.le_max_right _ 0)
    have hleftover : 0 ≤ l.leftover id rect := Int.le_max_right _ 0
    have havailable : 0 ≤ l.available id rect := Int.le_max_right _ 0
    have hinner := inset_bounds (l.node id).axis rect hinsets
    have hwithin : ∀ r ∈ l.childRects id rect,
        (l.node id).axis.mainStart (rect.inset (l.node id).insets) ≤ (l.node id).axis.mainStart r.2 ∧
          mainEnd (l.node id).axis r.2 ≤ (l.node id).axis.mainStart (rect.inset (l.node id).insets) +
            l.leadTotal id + l.gapTotal id + l.available id rect := by
      intro r hr
      rw [gapTotal_eq hleaf]
      exact handOut_within l _ _ _ hgap hlead hleftover havailable hr
    obtain ⟨last, hlast, hend⟩ : ∃ r ∈ l.childRects id rect,
        (l.node id).axis.mainStart (rect.inset (l.node id).insets) + l.leadTotal id + l.gapTotal id ≤
          mainEnd (l.node id).axis r.2 := by
      rw [gapTotal_eq hleaf]
      exact handOut_last l _ _ _ hleftover hleaf _ _ havailable
    have hcross := fun (r : Nat × Rect) (hr : r ∈ l.childRects id rect) => handOut_cross l _ _ _ hr
    unfold Layout.Fits
    unfold Layout.available at hwithin
    simp only [inside_iff (l.node id).axis]
    constructor
    · intro hinside _
      have hin := hinside last hlast
      have hlastCross := hcross last hlast
      have houter : mainEnd (l.node id).axis rect = (l.node id).axis.mainStart rect + (l.node id).axis.main rect := rfl
      omega
    · intro hfits r hr
      have hroom := hfits hleaf
      have hrWithin := hwithin r hr
      have hrCross := hcross r hr
      have houter : mainEnd (l.node id).axis rect = (l.node id).axis.mainStart rect + (l.node id).axis.main rect := rfl
      omega

/-- Every node is inside its parent if and only if every call of the solver fits. -/
theorem children_inside_iff (l : Layout) (h : l.NonNegative) (rect : Rect) :
    l.ChildrenInside (l.solve rect) ↔ ∀ call ∈ l.calls rect, l.Fits call.1 call.2 := by
  have hall := forall_children_iff l rect fun _ outer _ r => r.inside outer = true
  unfold Layout.ChildrenInside
  rw [hall]
  constructor
  · intro hinside call hcall
    exact (childRects_inside_iff h call.1 call.2).mp (hinside call hcall)
  · intro hfits call hcall
    exact (childRects_inside_iff h call.1 call.2).mpr (hfits call hcall)

/-- A heading of 50, a body that fills and a card that hugs 400, with gaps of 12. -/
def cardPage : Option Layout := do
  let (l, _) ← Layout.column.leaf 0 (.fixed 50)
  let (l, _) ← l.leaf 0 (.fill 1)
  let (l, _) ← l.leaf 0 (.hug 400)
  l.gap 0 12

/-- In a window of height 40 the page stays inside. -/
theorem children_inside_at_40 :
    ∃ l, cardPage = some l ∧ l.ChildrenInside (l.solve ⟨0, 0, 80, 40⟩) :=
  ⟨cardPage.get (by decide), by simp,
    (children_inside_iff (cardPage.get (by decide)) (by decide) ⟨0, 0, 80, 40⟩).mpr (by decide)⟩

/-- In a window of height 20 its two gaps alone take 24, and the card starts below the window. -/
theorem card_leaves_page :
    ∃ l rect, cardPage = some l ∧ l.NonNegative ∧ 0 ≤ rect.w ∧ 0 ≤ rect.h ∧
      ¬ l.ChildrenInside (l.solve rect) := by
  refine ⟨cardPage.get (by decide), ⟨0, 0, 80, 20⟩, by simp, by decide, by decide, by decide, ?_⟩
  intro h
  have hcard := h 0 3 (by decide)
  revert hcard
  decide

end RemoteX11.Gui
