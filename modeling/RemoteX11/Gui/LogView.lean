/-
  What the log page shows: filters, the unread mark and the scroll offset (`ui/pages/logs/state.rs`).

  A page adopts the tail and what arrived, cut to `tailCap` from the front, and scrolls. `unread_counts_arrivals`:
  in every run of the two, the entries counted as unread are those shown that arrived after `follow` last
  changed. The mark moves with the truncation; the scroll offset does not, and what that does to the first row
  drawn is `first_row_stays_iff`.

  `to_lowercase` is the parameter `lower`. The offsets are plain integers: a list has fewer than 2^31 / 20 rows.
-/
import RemoteX11.Gui.ScrollBar
import RemoteX11.Lib.Text
import Mathlib.Data.List.Basic
import Mathlib.Data.List.Induction

namespace RemoteX11.Gui

open RemoteX11.Lib RemoteX11.Lib.Text

/-- `model::LogLevel`, in the order of the source. -/
inductive LogLevel where
  | error
  | warn
  | info
  | debug
  | trace
  deriving DecidableEq, Repr

def LogLevel.rank : LogLevel → Nat
  | error => 0
  | warn => 1
  | info => 2
  | debug => 3
  | trace => 4

structure LogEntry where
  time : String
  level : LogLevel
  target : String
  message : String
  /-- how many entries arrived before it; history -/
  number : Nat
  deriving DecidableEq, Repr

/-- `ROW_LINE_H`. -/
def rowLineH : Int := 20

/-- `TAIL_CAP`. -/
@[irreducible] def tailCap : Nat := 4000

def maxScroll (total rows : Nat) : Int := listMaxScroll total rows rowLineH

structure LogView where
  entries : List LogEntry
  minLevel : LogLevel
  filter : String
  scrollPx : Int
  follow : Bool
  seenAtBottom : Nat
  deriving DecidableEq, Repr

/-- `str::contains`. -/
def containsStr (s needle : String) : Bool := s.toList.tails.any needle.toList.isPrefixOf

namespace LogView

/-- `LogView::default`. -/
def default : LogView := ⟨[], .info, "", 0, true, 0⟩

/-- The level and the text filter of `visible`. -/
def shows (lower : String → String) (v : LogView) (e : LogEntry) : Bool :=
  let needle := lower (trim v.filter)
  decide (e.level.rank ≤ v.minLevel.rank) &&
    (needle == "" || containsStr (lower e.message) needle || containsStr (lower e.target) needle)

/-- `visible`: the indices of the entries shown. -/
def visible (lower : String → String) (v : LogView) : List Nat := v.entries.findIdxs (v.shows lower)

def effectiveScroll (v : LogView) (total rows : Nat) : Int :=
  if v.follow then maxScroll total rows else max (min v.scrollPx (maxScroll total rows)) 0

def rowWindow (scrollPx : Int) (total rows : Nat) : Nat × Int × Nat :=
  listRowWindow scrollPx total rows rowLineH

/-- `scroll_to`: whether anything changed, and the view afterwards. -/
def scrollTo (v : LogView) (value : Int) (total rows : Nat) : Bool × LogView :=
  let max_ := maxScroll total rows
  let next := if value < 0 then 0 else if max_ < value then max_ else value
  let nowFollow := decide (max_ ≤ next)
  let changed := decide (next ≠ v.scrollPx) || decide (nowFollow ≠ v.follow)
  let moved := { v with scrollPx := next }
  (changed, if nowFollow ≠ v.follow then
      { moved with follow := nowFollow, seenAtBottom := v.entries.length }
    else moved)

def unread (v : LogView) (visible : List Nat) : Nat :=
  if v.follow then 0 else (visible.filter fun i => decide (v.seenAtBottom ≤ i)).length

/-- `adopt_entries`. -/
def adoptEntries (v : LogView) (entries : List LogEntry) : LogView :=
  let dropped := entries.length - tailCap
  let kept := entries.drop dropped
  { v with
    entries := kept
    seenAtBottom := if v.follow then kept.length else v.seenAtBottom - dropped }

/-- The entries drawn in the well, from the top (`paint`). -/
def drawn (lower : String → String) (v : LogView) (rows : Nat) : List Nat :=
  let visible := v.visible lower
  let (start, _, count) := rowWindow (v.effectiveScroll visible.length rows) visible.length rows
  (visible.drop start).take count

end LogView

/-! ## Runs of a page -/

/-- A view and its history. -/
structure LogPage where
  view : LogView
  /-- how many entries have arrived -/
  arrived : Nat
  /-- how many had arrived when `follow` last changed -/
  changedAt : Nat

inductive LogCall where
  /-- `adopt_entries` of the current entries and these -/
  | adopt (arrivals : List LogEntry)
  | scrollTo (value : Int) (total rows : Nat)

/-- Arrivals are numbered as they come. -/
def numbered (first : Nat) (arrivals : List LogEntry) : List LogEntry :=
  arrivals.mapIdx fun i e => { e with number := first + i }

namespace LogPage

def init : LogPage := ⟨.default, 0, 0⟩

def step (s : LogPage) : LogCall → LogPage
  | .adopt arrivals =>
    { s with
      view := s.view.adoptEntries (s.view.entries ++ numbered s.arrived arrivals)
      arrived := s.arrived + arrivals.length }
  | .scrollTo value total rows =>
    let view := (s.view.scrollTo value total rows).2
    { s with
      view := view
      changedAt := if view.follow = s.view.follow then s.changedAt else s.arrived }

def run (calls : List LogCall) : LogPage := calls.foldl step init

end LogPage

/-! ## What is unread -/

/-- The numbers and the mark of a page, in terms of its history. -/
structure Aligned (s : LogPage) : Prop where
  arrived_ge : s.view.entries.length ≤ s.arrived
  /-- the entries are the last ones that arrived -/
  numbers : ∀ i e, s.view.entries[i]? = some e → e.number + s.view.entries.length = s.arrived + i
  mark : s.view.follow = false → s.view.seenAtBottom = s.changedAt - (s.arrived - s.view.entries.length)

theorem aligned_init : Aligned .init := by
  constructor
  · exact Nat.le_refl 0
  · intro i e h
    cases h
  · intro h
    cases h

theorem numbered_number {first i : Nat} {arrivals : List LogEntry} {e : LogEntry}
    (h : (numbered first arrivals)[i]? = some e) : e.number = first + i := by
  unfold numbered at h
  rw [List.getElem?_mapIdx] at h
  obtain ⟨_, _, rfl⟩ := Option.map_eq_some_iff.mp h
  rfl

theorem numbered_length (first : Nat) (arrivals : List LogEntry) :
    (numbered first arrivals).length = arrivals.length := List.length_mapIdx

/-- The truncation moves the numbers and the mark together. -/
theorem adopt_aligned {s : LogPage} (h : Aligned s) (arrivals : List LogEntry) :
    Aligned (s.step (.adopt arrivals)) := by
  have harrived := h.arrived_ge
  have hall : (s.view.entries ++ numbered s.arrived arrivals).length =
      s.view.entries.length + arrivals.length := by
    rw [List.length_append, numbered_length]
  have hentries : (s.step (.adopt arrivals)).view.entries =
      (s.view.entries ++ numbered s.arrived arrivals).drop
        (s.view.entries.length + arrivals.length - tailCap) := by
    rw [← hall]
    rfl
  have hmark : (s.step (.adopt arrivals)).view.follow = false →
      (s.step (.adopt arrivals)).view.seenAtBottom =
        s.view.seenAtBottom - (s.view.entries.length + arrivals.length - tailCap) := by
    intro hfollow
    rw [← hall]
    exact if_neg (Bool.eq_false_iff.mp hfollow)
  have hcount : (s.step (.adopt arrivals)).arrived = s.arrived + arrivals.length := rfl
  have hchanged : (s.step (.adopt arrivals)).changedAt = s.changedAt := rfl
  generalize hdrop : s.view.entries.length + arrivals.length - tailCap = dropped at hentries hmark
  have hkept : (s.step (.adopt arrivals)).view.entries.length =
      s.view.entries.length + arrivals.length - dropped := by
    rw [hentries, List.length_drop, hall]
  constructor
  · rw [hkept, hcount]
    omega
  · intro i e he
    rw [hkept, hcount]
    rw [hentries, List.getElem?_drop] at he
    by_cases hold : dropped + i < s.view.entries.length
    · rw [List.getElem?_append_left hold] at he
      have := h.numbers _ e he
      omega
    · have hi : dropped + i < s.view.entries.length + arrivals.length := by
        rw [← hall]
        exact (List.getElem?_eq_some_iff.mp he).1
      rw [List.getElem?_append_right (Nat.not_lt.mp hold)] at he
      have := numbered_number he
      omega
  · intro hfollow
    have hbefore := h.mark hfollow
    rw [hmark hfollow, hkept, hcount, hchanged]
    omega

/-- What `scroll_to` does to the mark. -/
theorem scrollTo_cases (v : LogView) (value : Int) (total rows : Nat) :
    (v.scrollTo value total rows).2.entries = v.entries ∧
      (((v.scrollTo value total rows).2.follow = v.follow ∧
        (v.scrollTo value total rows).2.seenAtBottom = v.seenAtBottom) ∨
      ((v.scrollTo value total rows).2.follow ≠ v.follow ∧
        (v.scrollTo value total rows).2.seenAtBottom = v.entries.length)) := by
  unfold LogView.scrollTo
  simp only
  generalize (if value < 0 then 0 else if maxScroll total rows < value then maxScroll total rows else value) = next
  by_cases hchanged : decide (maxScroll total rows ≤ next) ≠ v.follow
  · rw [if_pos hchanged]
    exact ⟨rfl, .inr ⟨hchanged, rfl⟩⟩
  · rw [if_neg hchanged]
    exact ⟨rfl, .inl ⟨rfl, rfl⟩⟩

/-- A change of `follow` marks every entry there is; nothing else moves the mark. -/
theorem scrollTo_aligned {s : LogPage} (h : Aligned s) (value : Int) (total rows : Nat) :
    Aligned (s.step (.scrollTo value total rows)) := by
  have harrived := h.arrived_ge
  obtain ⟨hentries, hmark⟩ := scrollTo_cases s.view value total rows
  unfold LogPage.step
  constructor
  · simp only [hentries]
    exact harrived
  · simp only [hentries]
    exact h.numbers
  · simp only [hentries]
    intro hfollow
    obtain ⟨hsame, hseen⟩ | ⟨hchanged, hseen⟩ := hmark
    · rw [if_pos hsame, hseen]
      exact h.mark (hsame ▸ hfollow)
    · rw [if_neg hchanged, hseen]
      omega

theorem run_aligned (calls : List LogCall) : Aligned (.run calls) := by
  have hfrom : ∀ s, Aligned s → Aligned (calls.foldl LogPage.step s) := by
    induction calls with
    | nil => exact fun _ h => h
    | cons call calls ih =>
      intro s h
      cases call with
      | adopt arrivals => exact ih _ (adopt_aligned h arrivals)
      | scrollTo value total rows => exact ih _ (scrollTo_aligned h value total rows)
  exact hfrom _ aligned_init

/-! ## What is kept -/

/-- What the calls of a run bring, in order. -/
def arrivedIn : List LogCall → List LogEntry
  | [] => []
  | .adopt new :: calls => new ++ arrivedIn calls
  | .scrollTo _ _ _ :: calls => arrivedIn calls

/-- The last `tailCap` of a list. -/
def lastEntries (l : List LogEntry) : List LogEntry := l.drop (l.length - tailCap)

/-- What was cut before does not come back. -/
theorem lastEntries_append (l new : List LogEntry) : lastEntries (lastEntries l ++ new) = lastEntries (l ++ new) := by
  have hcut : lastEntries l ++ new = (l ++ new).drop (l.length - tailCap) :=
    (List.drop_append_of_le_length (Nat.sub_le _ _)).symm
  unfold lastEntries at hcut ⊢
  rw [hcut, List.drop_drop, List.length_drop, List.length_append]
  congr 1
  omega

theorem numbered_append (first : Nat) (l new : List LogEntry) :
    numbered first (l ++ new) = numbered first l ++ numbered (first + l.length) new := by
  unfold numbered
  rw [List.mapIdx_append, List.append_cancel_left_eq, List.mapIdx_eq_mapIdx_iff]
  intro i _
  rw [Nat.add_comm i, Nat.add_assoc]

/-- One call on a page that holds the end of what arrived. -/
theorem step_entries {s : LogPage} {all : List LogEntry} (hcount : s.arrived = all.length)
    (hentries : s.view.entries = lastEntries (numbered 0 all)) (call : LogCall) :
    (s.step call).arrived = (all ++ arrivedIn [call]).length ∧
      (s.step call).view.entries = lastEntries (numbered 0 (all ++ arrivedIn [call])) := by
  cases call with
  | adopt new =>
    refine ⟨?_, ?_⟩
    · rw [arrivedIn, arrivedIn, List.append_nil, List.length_append, ← hcount]
      rfl
    · rw [arrivedIn, arrivedIn, List.append_nil, numbered_append, Nat.zero_add, ← lastEntries_append, ← hentries,
        ← hcount]
      rfl
  | scrollTo value total rows =>
    have hsame := (scrollTo_cases s.view value total rows).1
    rw [arrivedIn, arrivedIn, List.append_nil]
    exact ⟨hcount, hsame.trans hentries⟩

theorem arrivedIn_append (calls more : List LogCall) :
    arrivedIn (calls ++ more) = arrivedIn calls ++ arrivedIn more := by
  induction calls with
  | nil => rfl
  | cons call calls ih =>
    cases call with
    | adopt new => rw [List.cons_append, arrivedIn, arrivedIn, ih, List.append_assoc]
    | scrollTo value total rows => exact ih

/-- A page holds the last `tailCap` of all entries that arrived. -/
theorem run_entries (calls : List LogCall) :
    (LogPage.run calls).arrived = (arrivedIn calls).length ∧
      (LogPage.run calls).view.entries = lastEntries (numbered 0 (arrivedIn calls)) := by
  induction calls using List.reverseRecOn with
  | nil => exact ⟨rfl, List.drop_nil.symm⟩
  | append_singleton calls call ih =>
    obtain ⟨hcount, hentries⟩ := ih
    have hrun : LogPage.run (calls ++ [call]) = (LogPage.run calls).step call := List.foldl_append
    rw [hrun, arrivedIn_append]
    exact step_entries hcount hentries call

/-! ## Indices of a list and of its end -/

/-- The indices from `k` on are those of the entries behind the first `k`. -/
theorem filter_findIdxs_length {α : Type} (p : α → Bool) (l : List α) (k : Nat) :
    ((l.findIdxs p).filter fun i => decide (k ≤ i)).length = (l.drop k).countP p := by
  by_cases hk : k ≤ l.length
  · have htake : (l.take k).length = k := List.length_take_of_le hk
    have hbelow : ((l.take k).findIdxs p).filter (fun i => decide (k ≤ i)) = [] := by
      rw [List.filter_eq_nil_iff]
      intro i hi
      have := List.lt_add_of_mem_findIdxs i hi
      rw [decide_eq_true_iff]
      omega
    have habove : ((l.drop k).findIdxs p k).filter (fun i => decide (k ≤ i)) = (l.drop k).findIdxs p k := by
      rw [List.filter_eq_self]
      intro i hi
      exact decide_eq_true (List.ge_of_mem_findIdxs i hi)
    conv => left; rw [← List.take_append_drop k l]
    rw [List.findIdxs_append, htake, Nat.zero_add, List.filter_append, hbelow, habove, List.nil_append,
      List.length_findIdxs]
  · rw [List.drop_eq_nil_of_le (by omega), List.countP_nil, List.length_eq_zero_iff, List.filter_eq_nil_iff]
    intro i hi
    have := List.lt_add_of_mem_findIdxs i hi
    rw [decide_eq_true_iff]
    omega

/-- The shown entries behind the mark are the shown ones that arrived since. -/
theorem countP_behind_mark {s : LogPage} (h : Aligned s) (p : LogEntry → Bool) :
    (s.view.entries.drop (s.changedAt - (s.arrived - s.view.entries.length))).countP p =
      (s.view.entries.filter fun e => p e && decide (s.changedAt ≤ e.number)).length := by
  have harrived := h.arrived_ge
  generalize hk : s.changedAt - (s.arrived - s.view.entries.length) = k
  have hbelow : (s.view.entries.take k).filter (fun e => p e && decide (s.changedAt ≤ e.number)) = [] := by
    rw [List.filter_eq_nil_iff]
    intro e he
    obtain ⟨i, hi⟩ := List.mem_iff_getElem?.mp he
    have hlt : i < k := by
      by_contra hge
      rw [List.getElem?_take_eq_none (Nat.not_lt.mp hge)] at hi
      cases hi
    rw [List.getElem?_take_of_lt hlt] at hi
    have := h.numbers i e hi
    rw [Bool.and_eq_true, decide_eq_true_iff]
    omega
  have habove : (s.view.entries.drop k).filter (fun e => p e && decide (s.changedAt ≤ e.number)) =
      (s.view.entries.drop k).filter p := by
    apply List.filter_congr
    intro e he
    obtain ⟨i, hi⟩ := List.mem_iff_getElem?.mp he
    rw [List.getElem?_drop] at hi
    have := h.numbers _ e hi
    rw [decide_eq_true (by omega), Bool.and_true]
  conv => right; rw [← List.take_append_drop k s.view.entries]
  rw [List.filter_append, hbelow, habove, List.nil_append, List.countP_eq_length_filter]

/-- What is unread of a page, with any level and text filter: the entries shown that arrived since `follow` last
    changed and are still there. Those still there are the last `tailCap` of all that arrived, each numbered as it
    came. -/
theorem unread_counts_arrivals (lower : String → String) (calls : List LogCall) (minLevel : LogLevel)
    (filter : String) :
    let s := LogPage.run calls
    let v := { s.view with minLevel := minLevel, filter := filter }
    v.unread (v.visible lower) =
        (if v.follow then 0
        else (v.entries.filter fun e => v.shows lower e && decide (s.changedAt ≤ e.number)).length) ∧
      v.entries = lastEntries (numbered 0 (arrivedIn calls)) := by
  intro s v
  have h : Aligned s := run_aligned calls
  refine ⟨?_, (run_entries calls).2⟩
  by_cases hfollow : v.follow = true
  · rw [LogView.unread, if_pos hfollow, if_pos hfollow]
  · have hmark : v.seenAtBottom = s.changedAt - (s.arrived - s.view.entries.length) :=
      h.mark (Bool.eq_false_iff.mpr hfollow)
    rw [LogView.unread, if_neg hfollow, if_neg hfollow, LogView.visible, filter_findIdxs_length, hmark]
    exact countP_behind_mark h (v.shows lower)

/-! ## The first row drawn -/

/-- The first row of a view that does not follow: the one its offset is in, or the last the window can start at. -/
theorem drawn_head {lower : String → String} {v : LogView} (hfollow : v.follow = false) (rows : Nat) :
    (v.drawn lower rows).head? =
      (v.visible lower)[min (v.scrollPx.toNat / 20) ((v.visible lower).length - rows)]? := by
  unfold LogView.drawn LogView.rowWindow LogView.effectiveScroll maxScroll listRowWindow listMaxScroll rowLineH
  simp only [hfollow, Bool.false_eq_true, if_false]
  generalize v.visible lower = visible
  have hstart : (max ((max (min v.scrollPx (max ((visible.length : Int) - rows) 0 * 20)) 0).tdiv 20) 0).toNat =
      min (v.scrollPx.toNat / 20) (visible.length - rows) := by
    rw [Int.tdiv_eq_ediv_of_nonneg (Int.le_max_right _ 0)]
    omega
  rw [hstart]
  generalize hfirst : min (v.scrollPx.toNat / 20) (visible.length - rows) = first
  rw [List.head?_eq_getElem?]
  by_cases hin : first < visible.length
  · rw [List.getElem?_take_of_lt (by omega), List.getElem?_drop, Nat.add_zero]
  · rw [List.getElem?_eq_none (Nat.not_lt.mp hin), List.getElem?_eq_none]
    rw [List.length_take, List.length_drop]
    omega

/-- The indices of the end of a list, in the whole list. -/
theorem findIdxs_drop_getElem? {α : Type} (p : α → Bool) (l : List α) {d : Nat} (hd : d ≤ l.length) (k : Nat) :
    (l.findIdxs p)[(l.take d).countP p + k]? = ((l.drop d).findIdxs p)[k]?.map (· + d) := by
  have htake : (l.take d).length = d := List.length_take_of_le hd
  have hshift : (l.drop d).findIdxs p d = ((l.drop d).findIdxs p).map (· + d) := List.findIdxs_start
  have hsplit : l.findIdxs p = (l.take d).findIdxs p ++ ((l.drop d).findIdxs p).map (· + d) := by
    conv => left; rw [← List.take_append_drop d l]
    rw [List.findIdxs_append, htake, Nat.zero_add, hshift]
  rw [hsplit, ← List.length_findIdxs, List.getElem?_append_right (Nat.le_add_right _ k), Nat.add_sub_cancel_left,
    List.getElem?_map]

/-- How many entries `adopt_entries` drops when these arrive. -/
def droppedBy (v : LogView) (arrivals : List LogEntry) : Nat := v.entries.length + arrivals.length - tailCap

/-- Where the first row drawn is among the entries shown, before and after. -/
theorem first_row_place (lower : String → String) (v : LogView) (arrivals : List LogEntry) (rows i : Nat)
    (hfollow : v.follow = false) (hdrawn : (v.drawn lower rows).head? = some i)
    (hsurvives : droppedBy v arrivals ≤ i) :
    let shown := (v.visible lower).length
    let first := min (v.scrollPx.toNat / 20) (shown - rows)
    let arriving := arrivals.countP (v.shows lower)
    let leaving := (v.entries.take (droppedBy v arrivals)).countP (v.shows lower)
    first < shown ∧ leaving ≤ first ∧
      (((v.adoptEntries (v.entries ++ arrivals)).drawn lower rows).head? = some (i - droppedBy v arrivals) ↔
        leaving + min (v.scrollPx.toNat / 20) (shown + arriving - leaving - rows) = first) := by
  have hall : (v.entries ++ arrivals).length = v.entries.length + arrivals.length := List.length_append
  have hafter : (v.adoptEntries (v.entries ++ arrivals)).visible lower =
      ((v.entries ++ arrivals).drop (droppedBy v arrivals)).findIdxs (v.shows lower) := by
    rw [droppedBy, ← hall]
    rfl
  have hoffset : (v.adoptEntries (v.entries ++ arrivals)).scrollPx = v.scrollPx := rfl
  rw [drawn_head (v := v.adoptEntries _) hfollow, hafter, hoffset, List.length_findIdxs]
  rw [drawn_head hfollow, LogView.visible] at hdrawn
  unfold LogView.visible
  simp only [List.length_findIdxs] at hdrawn ⊢
  generalize v.shows lower = p at hdrawn ⊢
  generalize droppedBy v arrivals = d at hsurvives ⊢
  generalize v.scrollPx.toNat / 20 = offset at hdrawn ⊢
  have hi : i < v.entries.length := by
    have := List.lt_add_of_mem_findIdxs i (List.mem_of_getElem? hdrawn)
    omega
  have htake : (v.entries ++ arrivals).take d = v.entries.take d :=
    List.take_append_of_le_length (by omega)
  have hshown : ((v.entries ++ arrivals).drop d).countP p =
      v.entries.countP p + arrivals.countP p - (v.entries.take d).countP p := by
    have hsplit : ((v.entries ++ arrivals).take d ++ (v.entries ++ arrivals).drop d).countP p =
        ((v.entries ++ arrivals).take d).countP p + ((v.entries ++ arrivals).drop d).countP p :=
      List.countP_append
    rw [List.take_append_drop, List.countP_append, htake] at hsplit
    omega
  rw [hshown]
  -- the index of the first row among those of the old entries and the arrivals together
  have hfirst : ((v.entries ++ arrivals).findIdxs p)[min offset (v.entries.countP p - rows)]? = some i := by
    rw [List.findIdxs_append, List.getElem?_append_left, hdrawn]
    exact (List.getElem?_eq_some_iff.mp hdrawn).1
  refine ⟨?_, ?_, ?_⟩
  · have := (List.getElem?_eq_some_iff.mp hdrawn).1
    rwa [List.length_findIdxs] at this
  · by_contra hbefore
    have hmem : i ∈ (v.entries.take d).findIdxs p := by
      apply List.mem_of_getElem?
      rw [List.findIdxs_take, List.getElem?_take_of_lt (Nat.not_le.mp hbefore), hdrawn]
    have hlt := List.lt_add_of_mem_findIdxs i hmem
    rw [List.length_take] at hlt
    omega
  · have hplace := findIdxs_drop_getElem? p (v.entries ++ arrivals) (d := d) (by omega)
      (min offset (v.entries.countP p + arrivals.countP p - (v.entries.take d).countP p - rows))
    rw [htake] at hplace
    constructor
    · intro h
      rw [h, Option.map_some, Nat.sub_add_cancel hsurvives] at hplace
      exact (List.getElem?_inj (List.getElem?_eq_some_iff.mp hplace).1 List.nodup_findIdxs).mp
        (hplace.trans hfirst.symm)
    · intro h
      rw [h, hfirst] at hplace
      obtain ⟨j, hj, hji⟩ := Option.map_eq_some_iff.mp hplace.symm
      rw [hj, ← hji, Nat.add_sub_cancel]

/-- When the first row drawn survives the arrivals in its place. As long as no shown entry is dropped: the offset is
    inside the scroll range, or no arrival is shown, or the list still fits into the window. When shown entries
    are dropped: the window was at its end already and no arrival is shown, or the list fits into the window
    afterwards and the entries dropped are those above the first row. -/
def KeepsFirstRow (lower : String → String) (v : LogView) (arrivals : List LogEntry) (rows : Nat) : Prop :=
  let shown := (v.visible lower).length
  let offset := v.scrollPx.toNat / 20
  let arriving := arrivals.countP (v.shows lower)
  let leaving := (v.entries.take (droppedBy v arrivals)).countP (v.shows lower)
  (leaving = 0 ∧ (offset ≤ shown - rows ∨ arriving = 0 ∨ shown + arriving ≤ rows)) ∨
    (0 < leaving ∧ ((arriving = 0 ∧ shown - rows ≤ offset) ∨
      (shown + arriving ≤ rows + leaving ∧ min offset (shown - rows) = leaving)))

/-- The first row drawn before is the first row drawn after if and only if `KeepsFirstRow`. -/
theorem first_row_stays_iff (lower : String → String) (v : LogView) (arrivals : List LogEntry) (rows i : Nat)
    (hfollow : v.follow = false) (hdrawn : (v.drawn lower rows).head? = some i)
    (hsurvives : droppedBy v arrivals ≤ i) :
    ((v.adoptEntries (v.entries ++ arrivals)).drawn lower rows).head? = some (i - droppedBy v arrivals) ↔
      KeepsFirstRow lower v arrivals rows := by
  obtain ⟨hin, hbehind, hplace⟩ := first_row_place lower v arrivals rows i hfollow hdrawn hsurvives
  rw [hplace]
  unfold KeepsFirstRow
  omega

def relayLine : LogEntry := ⟨"12:00:00.000", .info, "relay", "ready", 0⟩

/-- A log of `n` such lines, read from row 1 on. -/
def relayView (n : Nat) : LogView := ⟨List.replicate n relayLine, .info, "", 20, false, n⟩

/-- Thirty lines, in a window of ten: a new line leaves the first row alone. -/
theorem first_row_stays_below_cap :
    (((relayView 30).adoptEntries ((relayView 30).entries ++ [relayLine])).drawn String.toLower 10).head? =
      some (1 - droppedBy (relayView 30) [relayLine]) :=
  (first_row_stays_iff String.toLower (relayView 30) [relayLine] 10 1 (by decide) (by decide +kernel)
    (by decide +kernel)).mpr (.inl (by decide +kernel))

theorem findIdxs_replicate {α : Type} {p : α → Bool} {a : α} (h : p a = true) (n start : Nat) :
    (List.replicate n a).findIdxs p start = List.range' start n := by
  induction n generalizing start with
  | zero => rfl
  | succ n ih => rw [List.replicate_succ, List.findIdxs_cons, if_pos h, ih, List.range'_succ]

theorem relayView_shows (n : Nat) : (relayView n).shows String.toLower relayLine = true := by
  have hzero : (relayView 0).shows String.toLower relayLine = true := by decide +kernel
  exact hzero

theorem relayView_visible (n : Nat) : (relayView n).visible String.toLower = List.range' 0 n :=
  findIdxs_replicate (relayView_shows n) n 0

/-- A full log, read from row 1 on: one new line drops one from the front, the offset stays, and the row at the top
    of the window is the next one. -/
theorem first_row_moves_at_cap :
    ∃ v rows i, v.follow = false ∧ (v.drawn String.toLower rows).head? = some i ∧
      droppedBy v [relayLine] ≤ i ∧
      ((v.adoptEntries (v.entries ++ [relayLine])).drawn String.toLower rows).head? ≠
        some (i - droppedBy v [relayLine]) := by
  have hdropped : droppedBy (relayView 4000) [relayLine] = 1 := by
    unfold droppedBy tailCap relayView
    rw [List.length_replicate]
    rfl
  have hdrawn : ((relayView 4000).drawn String.toLower 10).head? = some 1 := by
    rw [drawn_head rfl, relayView_visible, List.length_range']
    rfl
  refine ⟨relayView 4000, 10, 1, rfl, hdrawn, by rw [hdropped], ?_⟩
  intro hstays
  obtain ⟨_, _, hplace⟩ := first_row_place String.toLower (relayView 4000) [relayLine] 10 1 rfl hdrawn
    (by rw [hdropped])
  have heq := hplace.mp hstays
  have hleaving : ((relayView 4000).entries.take 1).countP ((relayView 4000).shows String.toLower) = 1 := by
    rw [show (relayView 4000).entries.take 1 = [relayLine] from rfl, List.countP_singleton,
      if_pos (relayView_shows 4000)]
  rw [hdropped, hleaving, relayView_visible, List.length_range', List.countP_singleton,
    if_pos (relayView_shows 4000)] at heq
  revert heq
  decide

end RemoteX11.Gui
