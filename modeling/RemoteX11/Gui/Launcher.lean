/-
  The table of the sessions the GUI has started (`launcher/mod.rs`).

  The calls of `start`, `stop` and `remove` may come from any thread and are split where they let go of the lock;
  the tasks of the sessions and the timers of `stop` take turns with them.

  `terminal_changes_iff` says when a phase that calls itself terminal changes all the same, `dropped_ends` that the
  task of an ssh session without a record comes to its end, and `removed_asked` what `remove` has asked the
  sessions it let go of. The ssh process is not here: a health task that goes on holds it for itself.
-/
import RemoteX11.Gui.Sessions
import RemoteX11.Lib.Table
import RemoteX11.Lib.Run
import Mathlib.Data.List.Sort

namespace RemoteX11.Gui.Launching

open RemoteX11.Lib

/-- Counted from 1. -/
abbrev SessionId := Nat

/-- A line of `Launcher::snapshot`. -/
structure SessionSnapshot where
  id : SessionId
  kind : SessionKind
  phase : SessionPhase
  deriving DecidableEq, Repr

structure Launcher where
  /-- the records, in the order they were pushed -/
  inner : List SessionId
  nextId : SessionId
  /-- calls of `start` that have an id and have not returned -/
  starting : List SessionId
  /-- calls of `remove` that have looked, and whether they have yet to stop the session -/
  removing : List (SessionId × Bool)
  tasks : Table SessionId Task

inductive Event where
  /-- `start` takes an id -/
  | reserve
  /-- the start fails -/
  | refused (id : SessionId)
  /-- the tasks are spawned -/
  | spawned (id : SessionId) (kind : SessionKind)
  /-- the record is pushed -/
  | pushed (id : SessionId)
  | stop (id : SessionId)
  /-- `remove` looks whether the session is live -/
  | look (id : SessionId)
  /-- `remove` stops it -/
  | removeStop (id : SessionId)
  /-- `remove` drops the record -/
  | drop (id : SessionId)
  | task (id : SessionId) (event : TaskEvent)

namespace Launcher

variable {s t : Launcher} {id : SessionId} {a b : Task} {events : List Event}

def new : Launcher := ⟨[], 1, [], [], .empty⟩

/-- The record `id` is found, and what it stands for is changed. -/
def onRecord (s : Launcher) (id : SessionId) (f : Task → Task) : Launcher :=
  match s.tasks.get id with
  | some a => if id ∈ s.inner then { s with tasks := s.tasks.put id (f a) } else s
  | none => s

/-- `is_live` of the record, `false` when there is none. -/
def isLive (s : Launcher) (id : SessionId) : Bool :=
  id ∈ s.inner ∧ (s.tasks.get id).any fun a => a.shown.isLive

def step (s : Launcher) : Event → Option Launcher
  | .reserve => some { s with nextId := s.nextId + 1, starting := s.starting ++ [s.nextId] }
  | .refused id => if id ∈ s.starting ∧ s.tasks.get id = none then
      some { s with starting := s.starting.erase id } else none
  | .spawned id kind => if id ∈ s.starting ∧ s.tasks.get id = none then
      some { s with tasks := s.tasks.put id (.new kind) } else none
  | .pushed id => if id ∈ s.starting ∧ (s.tasks.get id).isSome then
      some { s with inner := s.inner ++ [id], starting := s.starting.erase id } else none
  | .stop id => some (s.onRecord id Task.requestStop)
  | .look id => some { s with removing := s.removing ++ [(id, s.isLive id)] }
  | .removeStop id => if (id, true) ∈ s.removing then
      some { s.onRecord id Task.requestStop with removing := s.removing.erase (id, true) ++ [(id, false)] } else none
  | .drop id => if (id, false) ∈ s.removing then
      some { s.onRecord id Task.dropRecord with
        removing := s.removing.erase (id, false), inner := s.inner.filter (· ≠ id) } else none
  | .task id event => (s.tasks.get id).bind fun a => (a.step event).map fun b => { s with tasks := s.tasks.put id b }

/-- `Launcher::snapshot`. -/
def snapshot (s : Launcher) : List SessionSnapshot :=
  (s.inner.filterMap fun id => (s.tasks.get id).map fun a => ⟨id, a.kind, a.shown⟩).mergeSort fun x y => x.id ≤ y.id

/-! ## What one step does -/

section onRecord

variable (s) (id) (f : Task → Task)

@[simp] theorem onRecord_inner : (s.onRecord id f).inner = s.inner := by
  unfold onRecord
  split
  · split <;> rfl
  · rfl

@[simp] theorem onRecord_nextId : (s.onRecord id f).nextId = s.nextId := by
  unfold onRecord
  split
  · split <;> rfl
  · rfl

@[simp] theorem onRecord_starting : (s.onRecord id f).starting = s.starting := by
  unfold onRecord
  split
  · split <;> rfl
  · rfl

@[simp] theorem onRecord_removing : (s.onRecord id f).removing = s.removing := by
  unfold onRecord
  split
  · split <;> rfl
  · rfl

theorem get_onRecord (id' : SessionId) : (s.onRecord id f).tasks.get id' =
    if id' = id ∧ id ∈ s.inner then (s.tasks.get id').map f else s.tasks.get id' := by
  unfold onRecord
  by_cases hid : id' = id
  · subst hid
    cases hget : s.tasks.get id' with
    | none => simp [hget]
    | some a => by_cases hmem : id' ∈ s.inner <;> simp [hmem, hget]
  · cases hget : s.tasks.get id with
    | none => simp [hid]
    | some a => by_cases hmem : id ∈ s.inner <;> simp [hmem, hid, Table.get_put_of_ne]

end onRecord

theorem changes_onRecord {f : Task → Task} (hf : ∀ a : Task, a.Changes (f a)) (id' : SessionId)
    (hget : s.tasks.get id' = some a) : ∃ b, (s.onRecord id f).tasks.get id' = some b ∧ a.Changes b := by
  rw [get_onRecord, hget]
  split
  · exact ⟨f a, rfl, hf a⟩
  · exact ⟨a, rfl, .same⟩

/-- A session stays and changes by one step. -/
theorem step_changes {event : Event} (hstep : s.step event = some t) (hget : s.tasks.get id = some a) :
    ∃ b, t.tasks.get id = some b ∧ a.Changes b := by
  have hsame : ∃ b, s.tasks.get id = some b ∧ a.Changes b := ⟨a, hget, .same⟩
  cases event <;> simp only [step, Option.ite_none_right_eq_some, Option.some.injEq] at hstep
  case reserve => exact hstep ▸ hsame
  case refused id' => exact hstep.2 ▸ hsame
  case spawned id' kind =>
    obtain ⟨⟨-, hnone⟩, rfl⟩ := hstep
    have hne : id ≠ id' := by
      intro heq
      simp [← heq, hget] at hnone
    exact ⟨a, (Table.get_put_of_ne _ _ hne).trans hget, .same⟩
  case pushed id' => exact hstep.2 ▸ hsame
  case stop id' => exact hstep ▸ changes_onRecord (fun _ => .requestStop) id hget
  case look id' => exact hstep ▸ hsame
  case removeStop id' => exact hstep.2 ▸ changes_onRecord (fun _ => .requestStop) id hget
  case drop id' => exact hstep.2 ▸ changes_onRecord (fun _ => .dropRecord) id hget
  case task id' event =>
    obtain ⟨a', hget', hmap⟩ := Option.bind_eq_some_iff.mp hstep
    obtain ⟨b, hb, rfl⟩ := Option.map_eq_some_iff.mp hmap
    by_cases hid : id = id'
    · subst hid
      obtain rfl := Option.some.inj (hget.symm.trans hget')
      exact ⟨b, Table.get_put_self _ _ _, .step hb⟩
    · exact ⟨a, (Table.get_put_of_ne _ _ hid).trans hget, .same⟩

/-- A session that appears is new and belongs to a `start`. -/
theorem step_new {event : Event} (hstep : s.step event = some t) (hget : s.tasks.get id = none)
    (hnew : t.tasks.get id = some b) : ∃ kind, event = .spawned id kind ∧ b = .new kind ∧ id ∈ s.starting := by
  cases event <;> simp only [step, Option.ite_none_right_eq_some, Option.some.injEq] at hstep
  case spawned id' kind =>
    obtain ⟨⟨hmem, -⟩, rfl⟩ := hstep
    by_cases hid : id = id'
    · subst hid
      rw [Table.get_put_self, Option.some.injEq] at hnew
      exact ⟨kind, rfl, hnew.symm, hmem⟩
    · rw [Table.get_put_of_ne _ _ hid, hget] at hnew
      simp at hnew
  case reserve =>
    subst hstep
    simp [hget] at hnew
  case stop id' =>
    subst hstep
    rw [get_onRecord, hget] at hnew
    simp at hnew
  case look id' =>
    subst hstep
    simp [hget] at hnew
  case removeStop id' =>
    obtain ⟨-, rfl⟩ := hstep
    have hnew := (get_onRecord s id' Task.requestStop id).symm.trans hnew
    simp [hget] at hnew
  case drop id' =>
    obtain ⟨-, rfl⟩ := hstep
    have hnew := (get_onRecord s id' Task.dropRecord id).symm.trans hnew
    simp [hget] at hnew
  case task id' event =>
    obtain ⟨a', hget', hmap⟩ := Option.bind_eq_some_iff.mp hstep
    obtain ⟨b', -, rfl⟩ := Option.map_eq_some_iff.mp hmap
    have hne : id ≠ id' := by
      intro heq
      simp [← heq, hget] at hget'
    rw [Table.get_put_of_ne _ _ hne, hget] at hnew
    simp at hnew
  all_goals
    obtain ⟨-, rfl⟩ := hstep
    simp [hget] at hnew

/-! ## The invariant -/

structure Inv (s : Launcher) : Prop where
  known : ∀ id ∈ s.inner, (s.tasks.get id).isSome
  fresh : ∀ id, id ∈ s.starting ∨ (s.tasks.get id).isSome → id < s.nextId
  nodup : s.inner.Nodup
  starting : s.starting.Nodup
  apart : ∀ id ∈ s.starting, id ∉ s.inner
  ok : ∀ id a, s.tasks.get id = some a → a.Ok
  /-- the sender of a force signal is not lost with its record -/
  held : ∀ id a, s.tasks.get id = some a → a.force = .held → id ∈ s.inner ∨ id ∈ s.starting

theorem inv_new : new.Inv where
  known _ h := by simp [new] at h
  fresh _ h := by simp [new] at h
  nodup := List.nodup_nil
  starting := List.nodup_nil
  apart _ h := by simp [new] at h
  ok _ _ h := by simp [new] at h
  held _ _ h := by simp [new] at h

theorem isSome_of_step {event : Event} (hstep : s.step event = some t) (hsome : (t.tasks.get id).isSome) :
    id ∈ s.starting ∨ (s.tasks.get id).isSome := by
  obtain ⟨b, hb⟩ := Option.isSome_iff_exists.mp hsome
  cases hget : s.tasks.get id with
  | none =>
    obtain ⟨-, -, -, hmem⟩ := step_new hstep hget hb
    exact .inl hmem
  | some a => exact .inr rfl

theorem isSome_step {event : Event} (hstep : s.step event = some t) (hsome : (s.tasks.get id).isSome) :
    (t.tasks.get id).isSome := by
  obtain ⟨a, ha⟩ := Option.isSome_iff_exists.mp hsome
  obtain ⟨b, hb, -⟩ := step_changes hstep ha
  rw [hb]
  rfl

theorem Inv.ok_step (h : s.Inv) {event : Event} (hstep : s.step event = some t) (hb : t.tasks.get id = some b) :
    b.Ok := by
  cases hget : s.tasks.get id with
  | none =>
    obtain ⟨kind, -, rfl, -⟩ := step_new hstep hget hb
    exact Task.ok_new kind
  | some a =>
    obtain ⟨b', hb', hchanges⟩ := step_changes hstep hget
    obtain rfl := Option.some.inj (hb.symm.trans hb')
    exact (h.ok id a hget).changes hchanges

theorem Inv.held_before (h : s.Inv) {event : Event} (hstep : s.step event = some t)
    (hb : t.tasks.get id = some b) (hheld : b.force = .held) : id ∈ s.inner ∨ id ∈ s.starting := by
  cases hget : s.tasks.get id with
  | none =>
    obtain ⟨-, -, -, hmem⟩ := step_new hstep hget hb
    exact .inr hmem
  | some a =>
    obtain ⟨b', hb', hchanges⟩ := step_changes hstep hget
    obtain rfl := Option.some.inj (hb.symm.trans hb')
    exact h.held id a hget (hchanges.held hheld)

/-- A step that leaves the records and the calls of `start`. -/
theorem Inv.of_frame (h : s.Inv) {event : Event} (hstep : s.step event = some t) (hinner : t.inner = s.inner)
    (hnext : t.nextId = s.nextId) (hstarting : t.starting = s.starting) : t.Inv where
  known id hmem := isSome_step hstep (h.known id (hinner ▸ hmem))
  fresh id hid := by
    rw [hstarting] at hid
    rw [hnext]
    refine h.fresh id (hid.elim .inl fun hsome => isSome_of_step hstep hsome)
  nodup := hinner ▸ h.nodup
  starting := hstarting ▸ h.starting
  apart := by rw [hinner, hstarting]; exact h.apart
  ok _ _ hb := h.ok_step hstep hb
  held _ _ hb hheld := by rw [hinner, hstarting]; exact h.held_before hstep hb hheld

theorem Inv.reserve (h : s.Inv) (hstep : s.step .reserve = some t) : t.Inv := by
  have hok {id b} (hb : t.tasks.get id = some b) := h.ok_step hstep hb
  have hheld {id b} (hb : t.tasks.get id = some b) := h.held_before hstep hb
  obtain rfl := Option.some.inj hstep
  have hnew : s.nextId ∉ s.starting := fun hmem => Nat.lt_irrefl _ (h.fresh _ (.inl hmem))
  refine ⟨h.known, ?_, h.nodup, ?_, ?_, fun _ _ hb => hok hb, ?_⟩
  · intro id hid
    show id < s.nextId + 1
    rcases hid with hmem | hsome
    · rcases List.mem_append.mp hmem with hold | hself
      · exact Nat.lt_succ_of_lt (h.fresh id (.inl hold))
      · rw [List.mem_singleton.mp hself]
        exact Nat.lt_succ_self _
    · exact Nat.lt_succ_of_lt (h.fresh id (.inr hsome))
  · exact List.nodup_append.mpr ⟨h.starting, List.nodup_singleton _, fun x hx y hy heq => by
      rw [List.mem_singleton] at hy
      exact hnew (hy ▸ heq ▸ hx)⟩
  · intro id hmem hinner
    rcases List.mem_append.mp hmem with hold | hself
    · exact h.apart id hold hinner
    · rw [List.mem_singleton.mp hself] at hinner
      exact Nat.lt_irrefl _ (h.fresh _ (.inr (h.known _ hinner)))
  · intro id b hb hforce
    exact (hheld hb hforce).imp_right fun hmem => List.mem_append_left _ hmem

theorem Inv.refused (h : s.Inv) (hstep : s.step (.refused id) = some t) : t.Inv := by
  rw [step, Option.ite_none_right_eq_some] at hstep
  obtain ⟨⟨-, hnone⟩, heq⟩ := hstep
  obtain rfl := Option.some.inj heq
  refine ⟨h.known, ?_, h.nodup, h.starting.erase _, ?_, h.ok, ?_⟩
  · intro id' hid
    exact h.fresh id' (hid.imp_left List.mem_of_mem_erase)
  · intro id' hmem
    exact h.apart id' (List.mem_of_mem_erase hmem)
  · intro id' b hb hforce
    have hne : id' ≠ id := by
      intro heq
      simp [heq, hnone] at hb
    exact (h.held id' b hb hforce).imp_right fun hmem => (List.mem_erase_of_ne hne).mpr hmem

theorem Inv.pushed (h : s.Inv) (hstep : s.step (.pushed id) = some t) : t.Inv := by
  rw [step, Option.ite_none_right_eq_some] at hstep
  obtain ⟨⟨hmem, hsome⟩, heq⟩ := hstep
  obtain rfl := Option.some.inj heq
  refine ⟨?_, ?_, ?_, h.starting.erase _, ?_, h.ok, ?_⟩
  · intro id' hmem'
    rcases List.mem_append.mp hmem' with hold | hself
    · exact h.known id' hold
    · rw [List.mem_singleton] at hself
      exact hself ▸ hsome
  · intro id' hid
    exact h.fresh id' (hid.imp_left List.mem_of_mem_erase)
  · exact List.nodup_append.mpr ⟨h.nodup, List.nodup_singleton _, fun x hx y hy heq => by
      rw [List.mem_singleton] at hy
      exact h.apart id hmem (hy ▸ heq ▸ hx)⟩
  · intro id' hmem' hinner
    rw [h.starting.mem_erase_iff] at hmem'
    rcases List.mem_append.mp hinner with hold | hself
    · exact h.apart id' hmem'.2 hold
    · exact hmem'.1 (List.mem_singleton.mp hself)
  · intro id' b hb hforce
    by_cases hid : id' = id
    · exact .inl (List.mem_append_right _ (List.mem_singleton.mpr hid))
    · exact (h.held id' b hb hforce).imp (fun hold => List.mem_append_left _ hold)
        fun hold => (List.mem_erase_of_ne hid).mpr hold

theorem Inv.drop (h : s.Inv) (hstep : s.step (.drop id) = some t) : t.Inv := by
  have hok {id b} (hb : t.tasks.get id = some b) := h.ok_step hstep hb
  have hheld {id b} (hb : t.tasks.get id = some b) := h.held_before hstep hb
  have hsome {id} (hsome : (s.tasks.get id).isSome) := isSome_step hstep hsome
  have hback {id} (hsome : (t.tasks.get id).isSome) := isSome_of_step hstep hsome
  rw [step, Option.ite_none_right_eq_some] at hstep
  obtain ⟨-, heq⟩ := hstep
  obtain rfl := Option.some.inj heq
  refine ⟨?_, ?_, h.nodup.filter _, ?_, ?_, fun _ _ hb => hok hb, ?_⟩
  · intro id' hmem
    exact hsome (h.known id' (List.mem_of_mem_filter hmem))
  · intro id' hid
    show id' < (s.onRecord id Task.dropRecord).nextId
    rw [onRecord_nextId]
    refine h.fresh id' (hid.elim (fun hmem => .inl ?_) fun hsome => hback hsome)
    simpa using hmem
  · simpa using h.starting
  · intro id' hmem hinner
    exact h.apart id' (by simpa using hmem) (List.mem_of_mem_filter hinner)
  · intro id' b hb hforce
    by_cases hid : id' = id ∧ id ∈ s.inner
    · -- its sender goes with the record
      have hget := (get_onRecord s id Task.dropRecord id').symm.trans hb
      rw [if_pos hid, Option.map_eq_some_iff] at hget
      obtain ⟨a, -, rfl⟩ := hget
      exact absurd hforce (Task.ne_held_of_ite (by decide))
    · rcases hheld hb hforce with hmem | hmem
      · refine .inl (List.mem_filter.mpr ⟨hmem, ?_⟩)
        simp only [decide_not, Bool.not_eq_eq_eq_not, Bool.not_true, decide_eq_false_iff_not]
        intro heq
        exact hid ⟨heq, heq ▸ hmem⟩
      · exact .inr (by simpa using hmem)

theorem Inv.step (h : s.Inv) {event : Event} (hstep : s.step event = some t) : t.Inv := by
  cases event with
  | reserve => exact h.reserve hstep
  | refused id => exact h.refused hstep
  | pushed id => exact h.pushed hstep
  | drop id => exact h.drop hstep
  | spawned id kind =>
    refine h.of_frame hstep ?_ ?_ ?_ <;>
      (rw [Launcher.step, Option.ite_none_right_eq_some] at hstep; cases hstep.2; rfl)
  | stop id =>
    refine h.of_frame hstep ?_ ?_ ?_ <;> (cases hstep; simp)
  | look id =>
    refine h.of_frame hstep ?_ ?_ ?_ <;> (cases hstep; rfl)
  | removeStop id =>
    refine h.of_frame hstep ?_ ?_ ?_ <;>
      (rw [Launcher.step, Option.ite_none_right_eq_some] at hstep; cases hstep.2; simp)
  | task id event =>
    refine h.of_frame hstep ?_ ?_ ?_ <;>
      (obtain ⟨a, -, hmap⟩ := Option.bind_eq_some_iff.mp hstep
       obtain ⟨b, -, rfl⟩ := Option.map_eq_some_iff.mp hmap
       rfl)

theorem inv_of_run (hrun : run step new events = some s) : s.Inv :=
  run_inv_all (fun _ _ _ h hstep => h.step hstep) inv_new hrun

/-! ## What is shown -/

/-- A line stands for its record. -/
theorem snapshot_line {x : SessionSnapshot} :
    ((s.tasks.get id).map fun a => (⟨id, a.kind, a.shown⟩ : SessionSnapshot)) = some x ↔
      x.id = id ∧ ∃ a, s.tasks.get x.id = some a ∧ x.kind = a.kind ∧ x.phase = a.shown := by
  rw [Option.map_eq_some_iff]
  constructor
  · rintro ⟨a, ha, rfl⟩
    exact ⟨rfl, a, ha, rfl, rfl⟩
  · rintro ⟨rfl, a, ha, hkind, hphase⟩
    exact ⟨a, ha, by rw [← hkind, ← hphase]⟩

theorem mem_snapshot (x : SessionSnapshot) : x ∈ s.snapshot ↔
    x.id ∈ s.inner ∧ ∃ a, s.tasks.get x.id = some a ∧ x.kind = a.kind ∧ x.phase = a.shown := by
  rw [snapshot, List.mem_mergeSort, List.mem_filterMap]
  constructor
  · rintro ⟨id, hmem, hid⟩
    obtain ⟨rfl, hrest⟩ := snapshot_line.mp hid
    exact ⟨hmem, hrest⟩
  · rintro ⟨hmem, hrest⟩
    exact ⟨x.id, hmem, snapshot_line.mpr ⟨rfl, hrest⟩⟩

/-- **The snapshot** lists every record once, by ascending id, in whatever order the calls of `start` pushed. -/
theorem snapshot_sorted (hrun : run step new events = some s) :
    s.snapshot.Pairwise (fun x y => x.id < y.id) ∧
      (∀ x, x ∈ s.snapshot ↔ x.id ∈ s.inner ∧ ∃ a, s.tasks.get x.id = some a ∧ x.kind = a.kind ∧ x.phase = a.shown) ∧
      ∀ id ∈ s.inner, ∃ x ∈ s.snapshot, x.id = id := by
  have h := inv_of_run hrun
  refine ⟨?_, mem_snapshot, fun id hmem => ?_⟩
  · have hsorted : s.snapshot.Pairwise fun x y => x.id ≤ y.id := by
      have hpair : s.snapshot.Pairwise fun x y => decide (x.id ≤ y.id) = true :=
        List.pairwise_mergeSort
          (fun x y z hxy hyz => by simp only [decide_eq_true_eq] at *; exact Nat.le_trans hxy hyz)
          (fun x y => by simpa using Nat.le_total x.id y.id) _
      exact hpair.imp fun hle => of_decide_eq_true hle
    have hdistinct : s.snapshot.Pairwise fun x y => x.id ≠ y.id := by
      refine (List.mergeSort_perm _ _).symm.pairwise ?_ Ne.symm
      refine List.Pairwise.filterMap _ (fun id id' hne x hx y hy heq => ?_) h.nodup
      rw [(snapshot_line.mp hx).1, (snapshot_line.mp hy).1] at heq
      exact hne heq
    exact (hsorted.and hdistinct).imp fun hboth => Nat.lt_of_le_of_ne hboth.1 hboth.2
  · obtain ⟨a, ha⟩ := Option.isSome_iff_exists.mp (h.known id hmem)
    exact ⟨⟨id, a.kind, a.shown⟩, (mem_snapshot _).mpr ⟨hmem, a, ha, rfl, rfl⟩, rfl⟩

/-- Two calls of `start`; the second one pushes first. -/
def twoStarts : List Event :=
  [.reserve, .reserve, .spawned 2 .client, .pushed 2, .spawned 1 .server, .pushed 1]

theorem snapshot_sorted_two :
    (run step new twoStarts).map Launcher.inner = some [2, 1] ∧
      ∃ s, run step new twoStarts = some s ∧ s.snapshot.Pairwise fun x y => x.id < y.id := by
  have hsome : (run step new twoStarts).isSome := by decide
  obtain ⟨s, hs⟩ := Option.isSome_iff_exists.mp hsome
  exact ⟨by decide, s, hs, (snapshot_sorted hs).1⟩

/-- The session changes by itself. -/
def withTask (s : Launcher) (id : SessionId) (b : Task) : Launcher := { s with tasks := s.tasks.put id b }

@[simp] theorem get_withTask (s : Launcher) (id : SessionId) (b : Task) : (s.withTask id b).tasks.get id = some b :=
  Table.get_put_self _ _ _

theorem step_task {event : TaskEvent} (hget : s.tasks.get id = some a) (hstep : a.step event = some b) :
    s.step (.task id event) = some (s.withTask id b) := by
  show (s.tasks.get id).bind _ = _
  rw [hget, Option.bind_some, hstep]
  rfl

/-- The session is given up as soon as the sender is out of the record. -/
theorem gives_up (hget : s.tasks.get id = some a) (hssh : a.kind = .ssh) (hstage : a.stage = .supervised)
    (hforce : a.force ≠ .held) :
    ∃ own t, (∀ event ∈ own, event = .task id .timer ∨ event = .task id .forced) ∧
      run step s own = some t ∧ ∃ b, t.tasks.get id = some b ∧ b.kind = .ssh ∧ b.stage = .ended ∧
        b.terminal = some .failed := by
  cases hcase : a.force with
  | held => exact absurd hcase hforce
  | fired =>
    have hstep : a.step .forced = some (a.conclude .failed) := by simp [Task.step, hssh, hstage, hcase]
    refine ⟨[.task id .forced], s.withTask id (a.conclude .failed), by simp, ?_, _, get_withTask _ _ _, hssh, rfl, rfl⟩
    rw [run_cons, step_task hget hstep]
    rfl
  | timer =>
    have htimer : a.step .timer = some { a with force := .fired } := by simp [Task.step, hcase]
    have hforced : ({ a with force := .fired } : Task).step .forced =
        some (({ a with force := .fired } : Task).conclude .failed) := by simp [Task.step, hssh, hstage]
    refine ⟨[.task id .timer, .task id .forced], (s.withTask id { a with force := .fired }).withTask id
      (({ a with force := .fired } : Task).conclude .failed), by simp, ?_, _, get_withTask _ _ _, hssh, rfl, rfl⟩
    rw [run_cons, step_task hget htimer, Option.bind_some, run_cons, step_task (get_withTask _ _ _) hforced]
    rfl

/-- **A session whose record is gone ends**: from every state that is reached, a supervised ssh session without a
    record comes to its end, and shows that it failed, by the timer of `stop` and its own task alone. -/
theorem dropped_ends (hrun : run step new events = some s) (hget : s.tasks.get id = some a) (hssh : a.kind = .ssh)
    (hstage : a.stage = .supervised) (hgone : id ∉ s.inner) (hstarted : id ∉ s.starting) :
    ∃ own t, (∀ event ∈ own, event = .task id .timer ∨ event = .task id .forced) ∧
      run step s own = some t ∧ ∃ b, t.tasks.get id = some b ∧ b.kind = .ssh ∧ b.stage = .ended ∧
        b.terminal = some .failed := by
  have h := inv_of_run hrun
  refine gives_up hget hssh hstage fun hheld => ?_
  rcases h.held id a hget hheld with hmem | hmem
  · exact hgone hmem
  · exact hstarted hmem

/-- The record of a tunnel is removed while it opens, and no stop is asked for. -/
def droppedEarly : List Event :=
  [.reserve, .spawned 1 .ssh, .pushed 1, .look 1, .drop 1, .task 1 .opened]

/-- What is left of it. -/
def tunnelAlone : Launcher :=
  ⟨[], 2, [], [], Table.empty.put 1 { Task.new .ssh with stage := .supervised, force := .fired }⟩

theorem run_droppedEarly : run step new droppedEarly = some tunnelAlone := rfl

theorem dropped_ends_early :
    ∃ own t, (∀ event ∈ own, event = .task 1 .timer ∨ event = .task 1 .forced) ∧
      run step tunnelAlone own = some t ∧ ∃ b, t.tasks.get 1 = some b ∧ b.kind = .ssh ∧ b.stage = .ended ∧
        b.terminal = some .failed :=
  dropped_ends run_droppedEarly (Table.get_put_self _ _ _) rfl rfl (by simp [tunnelAlone]) (by simp [tunnelAlone])

/-- A stop of the record takes the sender out. -/
theorem takes_sender (hget : s.tasks.get id = some a) (hssh : a.kind = .ssh)
    (hmem : id ∈ s.inner ∨ id ∈ s.starting) :
    ∃ later t b, run step s later = some t ∧ t.tasks.get id = some b ∧ b.kind = .ssh ∧ b.stage = a.stage ∧
      b.force ≠ .held := by
  have hstops {r : Launcher} (hr : r.tasks.get id = some a) (hin : id ∈ r.inner) :
      ∃ t, r.step (.stop id) = some t ∧ t.tasks.get id = some a.requestStop := by
    refine ⟨_, rfl, ?_⟩
    rw [get_onRecord, if_pos ⟨rfl, hin⟩, hr]
    rfl
  have hasked : a.requestStop.kind = .ssh ∧ a.requestStop.stage = a.stage ∧ a.requestStop.force ≠ .held := by
    rw [Task.requestStop_ssh hssh]
    exact ⟨hssh, rfl, Task.ne_held_of_ite (by decide)⟩
  rcases hmem with hin | hstarting
  · obtain ⟨t, ht, hb⟩ := hstops hget hin
    refine ⟨[.stop id], t, _, ?_, hb, hasked⟩
    rw [run_cons, ht]
    rfl
  · have hpushed : s.step (.pushed id) =
        some { s with inner := s.inner ++ [id], starting := s.starting.erase id } := by
      rw [step, if_pos ⟨hstarting, by rw [hget]; rfl⟩]
    obtain ⟨t, ht, hb⟩ := hstops (r := { s with inner := s.inner ++ [id], starting := s.starting.erase id }) hget
      (List.mem_append_right _ (List.mem_singleton.mpr rfl))
    refine ⟨[.pushed id, .stop id], t, _, ?_, hb, hasked⟩
    rw [run_cons, hpushed, Option.bind_some, run_cons, ht]
    rfl

theorem can_fail (h : s.Inv) (hget : s.tasks.get id = some a) (hssh : a.kind = .ssh)
    (hstage : a.stage = .supervised) :
    ∃ later t b, run step s later = some t ∧ t.tasks.get id = some b ∧ b.shown = .failed := by
  have hends {r : Launcher} {c : Task} (hc : r.tasks.get id = some c) (hkind : c.kind = .ssh)
      (hstage : c.stage = .supervised) (hforce : c.force ≠ .held) :
      ∃ later t b, run step r later = some t ∧ t.tasks.get id = some b ∧ b.shown = .failed := by
    obtain ⟨own, t, -, ht, b, hb, hbkind, -, hterminal⟩ := gives_up hc hkind hstage hforce
    exact ⟨own, t, b, ht, hb, by rw [Task.shown_ssh hbkind, hterminal]; rfl⟩
  by_cases hforce : a.force = .held
  · obtain ⟨before, r, c, hr, hc, hkind, hsame, hcforce⟩ := takes_sender hget hssh (h.held id a hget hforce)
    obtain ⟨later, t, b, ht, hb⟩ := hends hc hkind (hsame.trans hstage) hcforce
    exact ⟨before ++ later, t, b, run_append.mpr ⟨r, hr, ht⟩, hb⟩
  · exact hends hget hssh hstage hforce

/-- **A terminal phase is final** for a session that has settled, and only for it: the phase of a connector that
    has not been polled, and of an ssh session whose connector ended well and which has no conclusion yet, may
    still change. -/
theorem terminal_changes_iff (hrun : run step new events = some s) (hget : s.tasks.get id = some a)
    (hterminal : a.shown.isTerminal = true) :
    (∃ later t b, run step s later = some t ∧ t.tasks.get id = some b ∧ b.shown ≠ a.shown) ↔ a.Unsettled := by
  have h := inv_of_run hrun
  have hok := h.ok id a hget
  constructor
  · rintro ⟨later, t, b, ht, hb, hne⟩
    by_contra hsettled
    have hstands : a.Stands a.shown := ⟨hok, rfl, hterminal, hsettled⟩
    have hkeeps : ∃ c, t.tasks.get id = some c ∧ c.Stands a.shown := by
      refine run_inv_all (I := fun r => ∃ c, r.tasks.get id = some c ∧ c.Stands a.shown) ?_ ⟨a, hget, hstands⟩ ht
      rintro r event r' ⟨c, hc, hstands⟩ hstep
      obtain ⟨c', hc', hchanges⟩ := step_changes hstep hc
      exact ⟨c', hc', hstands.changes hchanges⟩
    obtain ⟨c, hc, hstands⟩ := hkeeps
    obtain rfl := Option.some.inj (hb.symm.trans hc)
    exact hne hstands.shown
  · intro hunsettled
    cases hkind : a.kind with
    | server => exact absurd hunsettled (Task.not_unsettled_server hkind)
    | client =>
      obtain ⟨hbegun, hstop⟩ := (Task.unsettled_client hkind).mp hunsettled
      have hstep : a.step .begins = some { a with begun := true, phase := .connecting } := by
        simp [Task.step, Task.Polled, hkind, hbegun, hstop]
      refine ⟨[.task id .begins], s.withTask id { a with begun := true, phase := .connecting }, _, ?_,
        get_withTask _ _ _, fun heq => ?_⟩
      · rw [run_cons, step_task hget hstep]
        rfl
      · rw [← heq, Task.shown_client (a := { a with begun := true, phase := .connecting }) hkind] at hterminal
        exact absurd hterminal (by simp [mapConnectorPhase, SessionPhase.isTerminal])
    | ssh =>
      obtain ⟨hnone, hconnector⟩ := (Task.unsettled_ssh hkind).mp hunsettled
      have hstopped : a.phase = .stopped := by
        rcases hconnector with hbegun | hresult
        · exact (hok.unbegun hbegun).1
        · exact hok.returned _ hresult
      have hshown : a.shown = .stopped := by
        rw [Task.shown_ssh hkind, hnone, hstopped]
        rfl
      cases hstage : a.stage with
      | ended =>
        have hsome := (hok.ended hkind).mp hstage
        simp [hnone] at hsome
      | opening =>
        have hstep : a.step .openFails = some (a.conclude .failed) := by simp [Task.step, hkind, hstage]
        refine ⟨[.task id .openFails], s.withTask id (a.conclude .failed), _, ?_, get_withTask _ _ _, ?_⟩
        · rw [run_cons, step_task hget hstep]
          rfl
        · rw [Task.shown_ssh (a := a.conclude .failed) hkind, hshown]
          simp [Task.conclude]
      | supervised =>
        obtain ⟨later, t, b, ht, hb, hfailed⟩ := can_fail h hget hkind hstage
        exact ⟨later, t, b, ht, hb, by rw [hfailed, hshown]; decide⟩

theorem terminal_changes_iff_early :
    ∃ later t b, run step tunnelAlone later = some t ∧ t.tasks.get 1 = some b ∧ b.shown ≠ .stopped := by
  have hunsettled : ({ Task.new .ssh with stage := .supervised, force := .fired } : Task).Unsettled :=
    (Task.unsettled_ssh rfl).mpr ⟨rfl, .inl rfl⟩
  exact (terminal_changes_iff run_droppedEarly (Table.get_put_self _ _ _) rfl).mpr hunsettled

/-! ## What `remove` leaves behind -/

/-- `remove` is called with an id that `start` has returned, after the connector was polled. -/
def Given (s : Launcher) : Event → Prop
  | .look id => id < s.nextId ∧ id ∉ s.starting ∧
      ∀ a, s.tasks.get id = some a → a.kind = .client → a.begun = true
  | _ => True

/-- The calls of `remove` and what they are about to drop. -/
structure Removing (s : Launcher) : Prop where
  inv : s.Inv
  gone : ∀ id a, s.tasks.get id = some a → id ∉ s.inner → id ∉ s.starting → a.Asked
  started : ∀ id live, (id, live) ∈ s.removing → id < s.nextId ∧ id ∉ s.starting
  asked : ∀ id, (id, false) ∈ s.removing → ∀ a, s.tasks.get id = some a → a.kind ≠ .ssh → a.Asked

theorem removing_new : new.Removing where
  inv := inv_new
  gone _ _ h := by simp [new] at h
  started _ _ h := by simp [new] at h
  asked _ h := by simp [new] at h

/-- What a session has been asked, if it was there before. -/
theorem asked_step {event : Event} (hstep : s.step event = some t) (hb : t.tasks.get id = some b)
    (hold : ∀ a, s.tasks.get id = some a → a.kind = b.kind → a.Asked) : b.Asked ∨ id ∈ s.starting := by
  cases hget : s.tasks.get id with
  | none =>
    obtain ⟨-, -, -, hmem⟩ := step_new hstep hget hb
    exact .inr hmem
  | some a =>
    obtain ⟨b', hb', hchanges⟩ := step_changes hstep hget
    obtain rfl := Option.some.inj (hb.symm.trans hb')
    exact .inl ((hold a hget hchanges.further.kind.symm).changes hchanges)

/-- A step that neither drops a record nor calls `remove` any further. -/
theorem Removing.of_frame (h : s.Removing) {event : Event} (hstep : s.step event = some t)
    (hinner : ∀ id ∈ s.inner, id ∈ t.inner) (hstarting : ∀ id ∈ s.starting, (s.tasks.get id).isSome →
      id ∈ t.starting ∨ id ∈ t.inner) (hspawned : ∀ id kind, event = .spawned id kind → id ∈ t.starting)
    (hback : ∀ id ∈ t.starting, id ∈ s.starting ∨ id = s.nextId) (hnext : s.nextId ≤ t.nextId)
    (hremoving : t.removing = s.removing) : t.Removing where
  inv := h.inv.step hstep
  gone id b hb hnot hstarted := by
    cases hget : s.tasks.get id with
    | none =>
      obtain ⟨kind, hevent, -, hmem⟩ := step_new hstep hget hb
      exact absurd (hspawned id kind hevent) hstarted
    | some a =>
      obtain ⟨b', hb', hchanges⟩ := step_changes hstep hget
      obtain rfl := Option.some.inj (hb.symm.trans hb')
      refine (h.gone id a hget (fun hmem => hnot (hinner id hmem)) fun hmem => ?_).changes hchanges
      exact (hstarting id hmem (by rw [hget]; rfl)).elim hstarted hnot
  started id live hmem := by
    rw [hremoving] at hmem
    obtain ⟨hlt, hnot⟩ := h.started id live hmem
    refine ⟨Nat.lt_of_lt_of_le hlt hnext, fun hin => ?_⟩
    rcases hback id hin with hold | hself
    · exact hnot hold
    · exact Nat.lt_irrefl _ (hself ▸ hlt)
  asked id hmem b hb hkind := by
    rw [hremoving] at hmem
    refine (asked_step hstep hb fun a ha heq => h.asked id hmem a ha (heq ▸ hkind)).resolve_right ?_
    exact (h.started id false hmem).2

theorem Removing.look (h : s.Removing) (hgiven : Given s (.look id)) (hstep : s.step (.look id) = some t) :
    t.Removing := by
  have hinv := h.inv.step hstep
  obtain rfl := Option.some.inj hstep
  obtain ⟨hlt, hstarted, hbegun⟩ := hgiven
  refine ⟨hinv, h.gone, ?_, ?_⟩
  · intro id' live hmem
    rcases List.mem_append.mp hmem with hold | hself
    · exact h.started id' live hold
    · obtain ⟨rfl, -⟩ := Prod.mk.inj (List.mem_singleton.mp hself)
      exact ⟨hlt, hstarted⟩
  · intro id' hmem a ha hkind
    rcases List.mem_append.mp hmem with hold | hself
    · exact h.asked id' hold a ha hkind
    · obtain ⟨rfl, hlive⟩ := Prod.mk.inj (List.mem_singleton.mp hself)
      by_cases hin : id' ∈ s.inner
      · have hterminal : a.shown.isTerminal = true := by
          rw [isLive, ha] at hlive
          simpa [hin, SessionPhase.isLive] using hlive
        exact (h.inv.ok id' a ha).asked_of_terminal hkind (hbegun a ha) hterminal
      · exact h.gone id' a ha hin hstarted

theorem Removing.removeStop (h : s.Removing) (hstep : s.step (.removeStop id) = some t) : t.Removing := by
  have hinv := h.inv.step hstep
  have hasked {id' : SessionId} {b : Task} (hb : t.tasks.get id' = some b)
      (hold : ∀ a, s.tasks.get id' = some a → a.kind = b.kind → a.Asked) := asked_step hstep hb hold
  rw [step, Option.ite_none_right_eq_some] at hstep
  obtain ⟨hmem, heq⟩ := hstep
  obtain rfl := Option.some.inj heq
  refine ⟨hinv, ?_, ?_, ?_⟩
  · intro id' b hb hnot hstarted
    rw [onRecord_inner] at hnot
    rw [onRecord_starting] at hstarted
    exact (hasked hb fun a ha _ => h.gone id' a ha hnot hstarted).resolve_right hstarted
  · intro id' live hin
    rw [onRecord_nextId, onRecord_starting]
    rcases List.mem_append.mp hin with hold | hself
    · exact h.started id' live (List.mem_of_mem_erase hold)
    · obtain ⟨rfl, -⟩ := Prod.mk.inj (List.mem_singleton.mp hself)
      exact h.started id' true hmem
  · intro id' hin b hb hkind
    rcases List.mem_append.mp hin with hold | hself
    · have hold := List.mem_of_mem_erase hold
      refine (hasked hb fun a ha heq => h.asked id' hold a ha (heq ▸ hkind)).resolve_right ?_
      exact (h.started id' false hold).2
    · obtain ⟨rfl, -⟩ := Prod.mk.inj (List.mem_singleton.mp hself)
      have hstarted := (h.started id' true hmem).2
      by_cases hrecord : id' ∈ s.inner
      · have hget := (get_onRecord s id' Task.requestStop id').symm.trans hb
        rw [if_pos ⟨rfl, hrecord⟩, Option.map_eq_some_iff] at hget
        obtain ⟨a, -, rfl⟩ := hget
        exact Task.asked_requestStop a
      · exact (hasked hb fun a ha _ => h.gone id' a ha hrecord hstarted).resolve_right hstarted

theorem Removing.drop (h : s.Removing) (hstep : s.step (.drop id) = some t) : t.Removing := by
  have hinv := h.inv.step hstep
  have hasked {id' : SessionId} {b : Task} (hb : t.tasks.get id' = some b)
      (hold : ∀ a, s.tasks.get id' = some a → a.kind = b.kind → a.Asked) := asked_step hstep hb hold
  rw [step, Option.ite_none_right_eq_some] at hstep
  obtain ⟨hmem, heq⟩ := hstep
  obtain rfl := Option.some.inj heq
  refine ⟨hinv, ?_, ?_, ?_⟩
  · intro id' b hb hnot hstarted
    rw [onRecord_starting] at hstarted
    by_cases hin : id' ∈ s.inner
    · have hid : id' = id := by
        by_contra hne
        exact hnot (List.mem_filter.mpr ⟨hin, by simpa using hne⟩)
      subst hid
      cases hkind : b.kind with
      | ssh =>
        have hget := (get_onRecord s id' Task.dropRecord id').symm.trans hb
        rw [if_pos ⟨rfl, hin⟩, Option.map_eq_some_iff] at hget
        obtain ⟨a, -, rfl⟩ := hget
        exact (Task.asked_ssh hkind).mpr (Task.ne_held_of_ite (by decide))
      | server | client =>
        refine (hasked hb fun a ha heq => ?_).resolve_right hstarted
        exact h.asked id' hmem a ha (by simp [heq, hkind])
    · exact (hasked hb fun a ha _ => h.gone id' a ha hin hstarted).resolve_right hstarted
  · intro id' live hin
    rw [onRecord_nextId, onRecord_starting]
    exact h.started id' live (List.mem_of_mem_erase hin)
  · intro id' hin b hb hkind
    have hold := List.mem_of_mem_erase hin
    refine (hasked hb fun a ha heq => h.asked id' hold a ha (heq ▸ hkind)).resolve_right ?_
    exact (h.started id' false hold).2

theorem Removing.step (h : s.Removing) {event : Event} (hgiven : Given s event) (hstep : s.step event = some t) :
    t.Removing := by
  cases event with
  | look id => exact h.look hgiven hstep
  | removeStop id => exact h.removeStop hstep
  | drop id => exact h.drop hstep
  | reserve =>
    have hframe := h.of_frame hstep
    obtain rfl := Option.some.inj hstep
    refine hframe (fun _ hmem => hmem) (fun id hmem _ => .inl (List.mem_append_left _ hmem)) (by simp) ?_
      (Nat.le_succ _) rfl
    intro id hmem
    exact (List.mem_append.mp hmem).imp_right List.mem_singleton.mp
  | refused id =>
    have hframe := h.of_frame hstep
    rw [Launcher.step, Option.ite_none_right_eq_some] at hstep
    obtain ⟨⟨-, hnone⟩, heq⟩ := hstep
    obtain rfl := Option.some.inj heq
    refine hframe (fun _ hmem => hmem) ?_ (by simp) (fun _ hmem => .inl (List.mem_of_mem_erase hmem))
      (Nat.le_refl _) rfl
    intro id' hmem hsome
    refine .inl ((List.mem_erase_of_ne fun heq => ?_).mpr hmem)
    simp [heq, hnone] at hsome
  | spawned id kind =>
    have hframe := h.of_frame hstep
    rw [Launcher.step, Option.ite_none_right_eq_some] at hstep
    obtain ⟨⟨hmem, -⟩, heq⟩ := hstep
    obtain rfl := Option.some.inj heq
    refine hframe (fun _ hmem => hmem) (fun _ hmem _ => .inl hmem) ?_ (fun _ hmem => .inl hmem) (Nat.le_refl _) rfl
    intro id' kind' heq
    obtain ⟨rfl, -⟩ := Event.spawned.inj heq
    exact hmem
  | pushed id =>
    have hframe := h.of_frame hstep
    rw [Launcher.step, Option.ite_none_right_eq_some] at hstep
    obtain ⟨-, heq⟩ := hstep
    obtain rfl := Option.some.inj heq
    refine hframe (fun _ hmem => List.mem_append_left _ hmem) ?_ (by simp)
      (fun _ hmem => .inl (List.mem_of_mem_erase hmem)) (Nat.le_refl _) rfl
    intro id' hmem _
    by_cases hid : id' = id
    · exact .inr (List.mem_append_right _ (List.mem_singleton.mpr hid))
    · exact .inl ((List.mem_erase_of_ne hid).mpr hmem)
  | stop id =>
    have hframe := h.of_frame hstep
    obtain rfl := Option.some.inj hstep
    exact hframe (by simp) (fun _ hmem _ => .inl (by simpa using hmem)) (by simp)
      (fun _ hmem => .inl (by simpa using hmem)) (by simp) (by simp)
  | task id event =>
    have hframe := h.of_frame hstep
    obtain ⟨a, -, hmap⟩ := Option.bind_eq_some_iff.mp hstep
    obtain ⟨b, -, rfl⟩ := Option.map_eq_some_iff.mp hmap
    exact hframe (fun _ hmem => hmem) (fun _ hmem _ => .inl hmem) (by simp) (fun _ hmem => .inl hmem)
      (Nat.le_refl _) rfl

/-- **What `remove` lets go of has been asked to end**: where no call of `remove` looks at a connector that has not
    been polled yet, a session without a record has ended, or has been told to. -/
theorem removed_asked (hgiven : Meets step Given new events) (hrun : run step new events = some s)
    (hget : s.tasks.get id = some a) (hgone : id ∉ s.inner) (hstarted : id ∉ s.starting) : a.Asked := by
  have h : s.Removing := run_inv (fun _ _ _ h hgiven hstep => h.step hgiven hstep) removing_new hgiven hrun
  exact h.gone id a hget hgone hstarted

/-- A client that is connecting, and its removal. -/
def begunClient : Launcher :=
  ⟨[1], 2, [], [], Table.empty.put 1 { Task.new .client with begun := true, phase := .connecting }⟩

def askedClient : Task :=
  { Task.new .client with begun := true, phase := .connecting, stopRequested := true, force := .fired }

def removedClient : Launcher := ⟨[], 2, [], [], Table.empty.put 1 askedClient⟩

theorem removed_asked_client : askedClient.Asked := by
  have hbefore : run step new [.reserve, .spawned 1 .client, .pushed 1, .task 1 .begins] = some begunClient := rfl
  have hafter : run step new ([.reserve, .spawned 1 .client, .pushed 1, .task 1 .begins] ++
      .look 1 :: [.removeStop 1, .drop 1]) = some removedClient := rfl
  have hlook : begunClient.step (.look 1) = some { begunClient with removing := [(1, true)] } := rfl
  have hgiven : Meets step Given new ([.reserve, .spawned 1 .client, .pushed 1, .task 1 .begins] ++
      .look 1 :: [.removeStop 1, .drop 1]) := by
    rw [meets_append hbefore, meets_cons hlook]
    refine ⟨meets_of_forall (by simp [Given]) _, ⟨by decide, by decide, ?_⟩, meets_of_forall (by simp [Given]) _⟩
    intro a ha _
    obtain rfl := Option.some.inj ((Table.get_put_self _ _ _).symm.trans ha)
    rfl
  exact removed_asked hgiven hafter (Table.get_put_self _ _ _) (by simp [removedClient]) (by simp [removedClient])

end Launcher

end RemoteX11.Gui.Launching
