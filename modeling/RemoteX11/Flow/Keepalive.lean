/-
  What the advertiser re-states over its ticks (`flow.rs`, `Advertiser`).

  `AdvertiserOp` is one call, `after` the advertiser that a list of calls leaves. The sets of the source
  are lists here, so `WellFormed` says that they list nothing twice and that no budget is spent.

  A channel's budget is read off the history: it was armed by the last call about the channel, a resume
  that ended a hold, and each `due` since has taken one from it (`resuming_after_armed` forwards,
  `armed_of_resuming` backwards).
-/
import RemoteX11.Flow.Meter
import Mathlib.Data.List.Count
import Mathlib.Data.List.Induction
import Mathlib.Data.List.Nodup

namespace RemoteX11.Flow

open RemoteX11.Lib RemoteX11.Protocol

/-! ## Histories -/

inductive AdvertiserOp where
  | record (edge : FlowEdge)
  | due
  | forget (id : ConnectionId)
  deriving DecidableEq, Repr

/-- The channel that a call names. -/
def AdvertiserOp.about : AdvertiserOp → Option ConnectionId
  | .record edge => some edge.connectionId
  | .due => none
  | .forget id => some id

namespace Advertiser

def apply (a : Advertiser) : AdvertiserOp → Advertiser
  | .record edge => (a.record edge).2
  | .due => a.due.2
  | .forget id => a.forget id

/-- The advertiser after the calls `ops`. -/
def after (ops : List AdvertiserOp) : Advertiser := ops.foldl apply empty

@[simp] theorem after_nil : after [] = empty := rfl

theorem after_snoc (ops : List AdvertiserOp) (op : AdvertiserOp) :
    after (ops ++ [op]) = (after ops).apply op := by
  simp [after]

/-! ## The tables as sets -/

structure WellFormed (a : Advertiser) : Prop where
  paused_nodup : a.paused.Nodup
  keys_nodup : (a.resuming.map Prod.fst).Nodup
  budget_pos : ∀ x ∈ a.resuming, 0 < x.2

theorem keys_filter {l : List (ConnectionId × Nat)} (p : ConnectionId × Nat → Bool)
    (h : (l.map Prod.fst).Nodup) : ((l.filter p).map Prod.fst).Nodup :=
  h.sublist (List.filter_sublist.map Prod.fst)

theorem WellFormed.record {a : Advertiser} (ha : a.WellFormed) (edge : FlowEdge) :
    (a.record edge).2.WellFormed := by
  obtain ⟨id, action⟩ := edge
  cases action with
  | pause =>
    refine ⟨?_, keys_filter _ ha.keys_nodup,
      fun x hx => ha.budget_pos x (List.mem_filter.mp hx).1⟩
    show (if a.isPaused id then a.paused else a.paused ++ [id]).Nodup
    by_cases hp : a.isPaused id = true
    · rw [if_pos hp]
      exact ha.paused_nodup
    · rw [if_neg hp]
      have hid : id ∉ a.paused := by simpa [isPaused] using hp
      exact ha.paused_nodup.append (List.nodup_singleton id) (by simpa using hid)
  | resume =>
    refine ⟨ha.paused_nodup.filter _, ?_, ?_⟩
    · show (((a.resuming.filter fun x => x.1 ≠ id) ++
        if a.isPaused id then [(id, resumeRetransmits)] else []).map Prod.fst).Nodup
      rw [List.map_append]
      apply (keys_filter _ ha.keys_nodup).append
      · split <;> simp
      · intro k hk hk'
        obtain ⟨x, hx, rfl⟩ := List.mem_map.mp hk
        have hne : x.1 ≠ id := of_decide_eq_true (List.mem_filter.mp hx).2
        split at hk'
        · exact hne (by simpa using hk')
        · simp at hk'
    · intro x hx
      rcases List.mem_append.mp hx with h | h
      · exact ha.budget_pos x (List.mem_filter.mp h).1
      · split at h
        · rw [List.mem_singleton.mp h]
          exact Nat.succ_pos 7
        · simp at h

theorem WellFormed.due {a : Advertiser} (ha : a.WellFormed) : a.due.2.WellFormed := by
  refine ⟨ha.paused_nodup, ?_, ?_⟩
  · have hkeys : a.due.2.resuming.map Prod.fst =
        (a.resuming.filter fun x => 1 < x.2).map Prod.fst := by
      simp [Advertiser.due]
    rw [hkeys]
    exact keys_filter _ ha.keys_nodup
  · intro x hx
    obtain ⟨y, hy, rfl⟩ := List.mem_map.mp hx
    have hy' : 1 < y.2 := of_decide_eq_true (List.mem_filter.mp hy).2
    show 0 < y.2 - 1
    omega

theorem WellFormed.forget {a : Advertiser} (ha : a.WellFormed) (id : ConnectionId) :
    (a.forget id).WellFormed where
  paused_nodup := ha.paused_nodup.filter _
  keys_nodup := keys_filter _ ha.keys_nodup
  budget_pos := fun x hx => ha.budget_pos x (List.mem_filter.mp hx).1

theorem wellFormed_after (ops : List AdvertiserOp) : (after ops).WellFormed := by
  induction ops using List.reverseRecOn with
  | nil => exact ⟨List.nodup_nil, List.nodup_nil, fun x hx => absurd hx List.not_mem_nil⟩
  | append_singleton ops op ih =>
    rw [after_snoc]
    cases op with
    | record edge => exact ih.record edge
    | due => exact ih.due
    | forget id => exact ih.forget id

/-! ## What a tick carries -/

/-- A held channel is re-stated once. -/
theorem count_due_pause {a : Advertiser} (ha : a.WellFormed) (id : ConnectionId) :
    a.due.1.count (.pause id) = if a.isPaused id then 1 else 0 := by
  have hresumes : (a.resuming.map fun x => FlowEdge.resume x.1).count (.pause id) = 0 := by
    apply List.count_eq_zero_of_not_mem
    intro h
    obtain ⟨x, -, hx⟩ := List.mem_map.mp h
    exact absurd hx (by simp [FlowEdge.resume, FlowEdge.pause])
  have hpauses : (a.paused.map FlowEdge.pause).count (.pause id) = a.paused.count id :=
    List.count_map_of_injective _ FlowEdge.pause (fun _ _ h => by simpa [FlowEdge.pause] using h) id
  show (a.paused.map FlowEdge.pause ++ _).count (.pause id) = _
  rw [List.count_append, hresumes, hpauses, List.Nodup.count ha.paused_nodup]
  simp [isPaused]

/-- A resume that still has a budget is repeated once. -/
theorem count_due_resume {a : Advertiser} (ha : a.WellFormed) (id : ConnectionId) :
    a.due.1.count (.resume id) = if id ∈ a.resuming.map Prod.fst then 1 else 0 := by
  have hpauses : (a.paused.map FlowEdge.pause).count (.resume id) = 0 := by
    apply List.count_eq_zero_of_not_mem
    intro h
    obtain ⟨p, -, hp⟩ := List.mem_map.mp h
    exact absurd hp (by simp [FlowEdge.resume, FlowEdge.pause])
  have hresumes : (a.resuming.map fun x => FlowEdge.resume x.1).count (.resume id) =
      (a.resuming.map Prod.fst).count id := by
    rw [← List.count_map_of_injective (a.resuming.map Prod.fst) FlowEdge.resume
      (fun _ _ h => by simpa [FlowEdge.resume] using h) id, List.map_map]
    rfl
  show (_ ++ a.resuming.map fun x => FlowEdge.resume x.1).count (.resume id) = _
  rw [List.count_append, hpauses, hresumes, List.Nodup.count ha.keys_nodup, Nat.zero_add]

/-- The return value of `record` is whether the paused set changed. -/
theorem record_reports_change (a : Advertiser) (edge : FlowEdge) :
    (a.record edge).1 = true ↔ ∃ id, (a.record edge).2.isPaused id ≠ a.isPaused id := by
  obtain ⟨id, action⟩ := edge
  have hother : ∀ id', id ≠ id' → (a.record ⟨id, action⟩).2.isPaused id' = a.isPaused id' :=
    fun id' hne => a.isPaused_record_of_ne ⟨id, action⟩ id' hne
  have hself : (a.record ⟨id, action⟩).1 = true ↔
      (a.record ⟨id, action⟩).2.isPaused id ≠ a.isPaused id := by
    cases action with
    | pause =>
      have hp : (a.record ⟨id, .pause⟩).2.isPaused id = true := a.isPaused_record_pause id
      rw [hp]
      show (!a.isPaused id) = true ↔ _
      cases a.isPaused id <;> simp
    | resume =>
      have hp : (a.record ⟨id, .resume⟩).2.isPaused id = false := by
        simp [record, recordResume, isPaused]
      rw [hp]
      show a.isPaused id = true ↔ _
      cases a.isPaused id <;> simp
  constructor
  · intro h
    exact ⟨id, hself.mp h⟩
  · rintro ⟨id', hne⟩
    by_cases heq : id = id'
    · subst heq
      exact hself.mpr hne
    · exact absurd (hother id' heq) hne

/-! ## The budget of a channel -/

/-- A call about the channel leaves no budget, unless it is a resume that ends a hold. -/
theorem resuming_apply_of_about {a : Advertiser} {op : AdvertiserOp} {id : ConnectionId} {b : Nat}
    (hop : op.about = some id) :
    (id, b) ∈ (a.apply op).resuming ↔
      op = .record (.resume id) ∧ a.isPaused id = true ∧ b = resumeRetransmits := by
  cases op with
  | record edge =>
    obtain ⟨id', action⟩ := edge
    obtain rfl : id' = id := by simpa [AdvertiserOp.about] using hop
    cases action with
    | pause => simp [apply, record, recordPause, FlowEdge.resume]
    | resume =>
      by_cases hp : a.isPaused id' = true
      · simp [apply, record, recordResume, FlowEdge.resume, hp]
      · simp [apply, record, recordResume, FlowEdge.resume, hp]
  | due => simp [AdvertiserOp.about] at hop
  | forget id' =>
    obtain rfl : id' = id := by simpa [AdvertiserOp.about] using hop
    simp [apply, forget]

/-- A call about another channel keeps the budget, a tick takes one from it. -/
theorem resuming_apply_of_not_about {a : Advertiser} {op : AdvertiserOp} {id : ConnectionId} {b : Nat}
    (hop : op.about ≠ some id) (hb : 0 < b) :
    (id, b) ∈ (a.apply op).resuming ↔ (id, b + [op].count .due) ∈ a.resuming := by
  cases op with
  | record edge =>
    obtain ⟨id', action⟩ := edge
    have hne : id ≠ id' := fun h => hop (by simp [AdvertiserOp.about, h])
    cases action with
    | pause => simp [apply, record, recordPause, hne]
    | resume =>
      by_cases hp : a.isPaused id' = true
      · simp [apply, record, recordResume, hp, hne]
      · simp [apply, record, recordResume, hp, hne]
  | due =>
    constructor
    · intro h
      obtain ⟨x, hx, heq⟩ := List.mem_map.mp h
      obtain ⟨hx, hgt⟩ := List.mem_filter.mp hx
      have hgt : 1 < x.2 := of_decide_eq_true hgt
      obtain ⟨h1, h2⟩ := Prod.mk.inj heq
      have hx2 : x = (id, b + 1) := Prod.ext h1 (by show x.2 = b + 1; omega)
      rw [hx2] at hx
      simpa using hx
    · intro h
      have hmem : (id, b + 1) ∈ a.resuming := by simpa using h
      apply List.mem_map.mpr
      exact ⟨(id, b + 1), List.mem_filter.mpr ⟨hmem, by simpa using hb⟩, rfl⟩
  | forget id' =>
    have hne : id ≠ id' := fun h => hop (by simp [AdvertiserOp.about, h])
    simp [apply, forget, hne]

/-- While nothing else is said about the channel, its budget counts the ticks down. -/
theorem resuming_after_armed {pre : List AdvertiserOp} {id : ConnectionId}
    (harm : ((after pre).record (.resume id)).1 = true) (post : List AdvertiserOp)
    (hpost : ∀ op ∈ post, op.about ≠ some id) (b : Nat) (hb : 0 < b) :
    (id, b) ∈ (after (pre ++ .record (.resume id) :: post)).resuming ↔
      b + post.count .due = resumeRetransmits := by
  induction post using List.reverseRecOn generalizing b with
  | nil =>
    have hp : (after pre).isPaused id = true := harm
    rw [after_snoc, resuming_apply_of_about rfl]
    simp [hp]
  | append_singleton post op ih =>
    have hrest : ∀ o ∈ post, o.about ≠ some id := fun o ho => hpost o (List.mem_append_left _ ho)
    have hop : op.about ≠ some id := hpost op (by simp)
    have hsplit : pre ++ .record (.resume id) :: (post ++ [op]) =
        (pre ++ .record (.resume id) :: post) ++ [op] := by simp
    rw [hsplit, after_snoc, resuming_apply_of_not_about hop hb, ih hrest _ (by omega),
      List.count_append]
    omega

/-- A budget was armed by the last call about its channel. -/
theorem armed_of_resuming {ops : List AdvertiserOp} {id : ConnectionId} {b : Nat}
    (h : (id, b) ∈ (after ops).resuming) :
    ∃ pre post, ops = pre ++ .record (.resume id) :: post ∧
      ((after pre).record (.resume id)).1 = true ∧ ∀ op ∈ post, op.about ≠ some id := by
  induction ops using List.reverseRecOn generalizing b with
  | nil => exact absurd h List.not_mem_nil
  | append_singleton ops op ih =>
    have hb : 0 < b := (wellFormed_after _).budget_pos _ h
    rw [after_snoc] at h
    by_cases hop : op.about = some id
    · obtain ⟨rfl, hp, -⟩ := (resuming_apply_of_about hop).mp h
      exact ⟨ops, [], rfl, hp, fun o ho => absurd ho List.not_mem_nil⟩
    · obtain ⟨pre, post, rfl, harm, hpost⟩ := ih ((resuming_apply_of_not_about hop hb).mp h)
      refine ⟨pre, post ++ [op], by simp, harm, ?_⟩
      intro o ho
      rcases List.mem_append.mp ho with ho | ho
      · exact hpost o ho
      · rw [List.mem_singleton.mp ho]
        exact hop

/-- A resume that ended a hold is repeated on the next `resumeRetransmits` ticks. -/
theorem count_due_resume_of_armed {pre post : List AdvertiserOp} {id : ConnectionId}
    (harm : ((after pre).record (.resume id)).1 = true)
    (hpost : ∀ op ∈ post, op.about ≠ some id) :
    (after (pre ++ .record (.resume id) :: post)).due.1.count (.resume id) =
      if post.count .due < resumeRetransmits then 1 else 0 := by
  have hbudget : id ∈ (after (pre ++ .record (.resume id) :: post)).resuming.map Prod.fst ↔
      post.count .due < resumeRetransmits := by
    constructor
    · intro h
      obtain ⟨⟨id', b⟩, hb, rfl⟩ := List.mem_map.mp h
      have hpos : 0 < b := (wellFormed_after _).budget_pos _ hb
      have hsum := (resuming_after_armed harm post hpost b hpos).mp hb
      omega
    · intro hlt
      apply List.mem_map.mpr
      refine ⟨(id, resumeRetransmits - post.count .due), ?_, rfl⟩
      apply (resuming_after_armed harm post hpost _ (by omega)).mpr
      omega
  rw [count_due_resume (wellFormed_after _)]
  by_cases hlt : post.count .due < resumeRetransmits
  · rw [if_pos hlt, if_pos (hbudget.mpr hlt)]
  · rw [if_neg hlt, if_neg (fun h => hlt (hbudget.mp h))]

/-- A resume is repeated only while the edge that armed it is the last word about its channel. -/
theorem armed_of_due_resume {ops : List AdvertiserOp} {id : ConnectionId}
    (h : .resume id ∈ (after ops).due.1) :
    ∃ pre post, ops = pre ++ .record (.resume id) :: post ∧
      ((after pre).record (.resume id)).1 = true ∧
      (∀ op ∈ post, op.about ≠ some id) ∧ post.count .due < resumeRetransmits := by
  have hcount := List.count_pos_iff.mpr h
  have hbudget : id ∈ (after ops).resuming.map Prod.fst := by
    by_contra hno
    rw [count_due_resume (wellFormed_after ops), if_neg hno] at hcount
    exact Nat.lt_irrefl 0 hcount
  obtain ⟨⟨id', b⟩, hb, rfl⟩ := List.mem_map.mp hbudget
  obtain ⟨pre, post, rfl, harm, hpost⟩ := armed_of_resuming hb
  refine ⟨pre, post, rfl, harm, hpost, ?_⟩
  by_contra hge
  rw [count_due_resume_of_armed harm hpost, if_neg hge] at hcount
  omega

/-- The tables after any calls, the answer of the next `record` and the frames of the next tick: every
held pause once, every resume for the `resumeRetransmits` ticks after its edge unless the channel is
named again, and never both for a channel. -/
theorem keepalive_exact (ops : List AdvertiserOp) :
    (∀ id ∈ (after ops).paused, ∀ x ∈ (after ops).resuming, x.1 ≠ id) ∧
    (∀ edge, ((after ops).record edge).1 = true ↔
      ∃ id, ((after ops).record edge).2.isPaused id ≠ (after ops).isPaused id) ∧
    (∀ id, (after ops).due.1.count (.pause id) = if (after ops).isPaused id then 1 else 0) ∧
    (∀ id pre post, ops = pre ++ .record (.resume id) :: post →
      ((after pre).record (.resume id)).1 = true → (∀ op ∈ post, op.about ≠ some id) →
      (after ops).due.1.count (.resume id) = if post.count .due < resumeRetransmits then 1 else 0) ∧
    (∀ id, .resume id ∈ (after ops).due.1 →
      ∃ pre post, ops = pre ++ .record (.resume id) :: post ∧
        ((after pre).record (.resume id)).1 = true ∧
        (∀ op ∈ post, op.about ≠ some id) ∧ post.count .due < resumeRetransmits) ∧
    ∀ id, ¬(.pause id ∈ (after ops).due.1 ∧ .resume id ∈ (after ops).due.1) := by
  refine ⟨(after ops).disjoint, record_reports_change _, count_due_pause (wellFormed_after ops), ?_,
    fun id => armed_of_due_resume, ?_⟩
  · intro id pre post hops harm hpost
    rw [hops]
    exact count_due_resume_of_armed harm hpost
  · rintro id ⟨hpause, hresume⟩
    have hheld : (after ops).isPaused id = true := by
      by_contra hno
      have hcount := List.count_pos_iff.mpr hpause
      rw [count_due_pause (wellFormed_after ops), if_neg hno] at hcount
      omega
    have := due_of_isPaused _ id hheld _ hresume rfl
    simp [FlowEdge.resume, FlowEdge.pause] at this

/-- A hold on channel 7 that ends while channel 9 is held: its resume is repeated eight times. -/
def holdEnds (ticks : Nat) : List AdvertiserOp :=
  [.record (.pause ⟨7⟩), .record (.pause ⟨9⟩)] ++ .record (.resume ⟨7⟩) :: List.replicate ticks .due

theorem keepalive_exact_hold_ends :
    (after (holdEnds 7)).due.1.count (.resume ⟨7⟩) = 1 ∧
      (after (holdEnds 8)).due.1.count (.resume ⟨7⟩) = 0 :=
  ⟨(keepalive_exact _).2.2.2.1 ⟨7⟩ _ _ rfl (by decide) (by decide),
    (keepalive_exact _).2.2.2.1 ⟨7⟩ _ _ rfl (by decide) (by decide)⟩

end Advertiser

end RemoteX11.Flow
