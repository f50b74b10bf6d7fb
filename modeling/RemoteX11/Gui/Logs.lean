/-
  The log ring of the GUI and its poller (`launcher/logging.rs`, `app/mod.rs`).

  A producer takes a number and puts its line into the ring in two steps, so the lines may enter in another
  order than that of their numbers. The poller asks for the lines above the last number it saw. `Sound` says
  that the ring is sorted and that a poll now leaves every line of the ring delivered exactly once;
  `sound_iff_inOrder` that a run keeps it if and only if every line enters in order, and `inOrder_of_inSequence`
  that lines which enter in the order of their numbers do.
-/
import RemoteX11.Lib.Run
import Mathlib.Data.List.Nodup

namespace RemoteX11.Gui

open RemoteX11.Lib

/-- `tracing::Level`. -/
inductive Level where
  | error
  | warn
  | info
  | debug
  | trace
  deriving DecidableEq, Repr

structure LogLine where
  seq : UInt64
  level : Level
  target : String
  message : String
  /-- which push it is; history -/
  push : Nat
  deriving DecidableEq, Repr

/-- `LOG_MESSAGE_MAX`. -/
def logMessageMax : Nat := 4096

/-- A message of too many bytes is cut to as many characters. -/
def cutMessage (message : String) : String :=
  if message.utf8ByteSize > logMessageMax then
    String.ofList (message.toList.take logMessageMax) ++ "…"
  else message

/-- The ring, the producers between their two steps, and the poller. -/
structure Logs where
  capacity : Nat
  nextSeq : UInt64
  lines : List LogLine
  /-- numbered, and not in the ring yet -/
  pending : List LogLine
  /-- the poller's cursor -/
  logSeq : UInt64
  /-- what the poller got, in order; history -/
  delivered : List LogLine
  /-- how often `push` was called; history -/
  pushes : Nat
  deriving DecidableEq, Repr

inductive LogAct where
  /-- `push` up to the lock: `fetch_add` and the line -/
  | number (level : Level) (target message : String)
  /-- the rest of `push`, for one of the numbered lines -/
  | enter (line : LogLine)
  /-- a tick of the GUI -/
  | poll
  | clear

namespace Logs

/-- `with_capacity`, and a poller that has seen nothing. -/
def init (capacity : Nat) : Logs where
  capacity := max capacity 1
  nextSeq := 1
  lines := []
  pending := []
  logSeq := 0
  delivered := []
  pushes := 0

/-- The oldest lines make room for one. -/
def room (s : Logs) : List LogLine := s.lines.drop (s.lines.length + 1 - s.capacity)

/-- `since`. -/
def since (s : Logs) (seq : UInt64) : List LogLine := s.lines.filter fun line => line.seq > seq

/-- The cursor after these records. -/
def cursor (seq : UInt64) (records : List LogLine) : UInt64 :=
  max seq ((records.getLast?.map LogLine.seq).getD seq)

/-- The part of a tick that takes the new lines over. -/
def poll (s : Logs) : Logs :=
  let records := s.since s.logSeq
  if records.isEmpty then s
  else { s with delivered := s.delivered ++ records, logSeq := cursor s.logSeq records }

def step (s : Logs) : LogAct → Option Logs
  | .number level target message =>
    some { s with
      nextSeq := s.nextSeq + 1
      pending := s.pending ++ [⟨s.nextSeq, level, target, cutMessage message, s.pushes⟩]
      pushes := s.pushes + 1 }
  | .enter line =>
    if line ∈ s.pending then
      some { s with lines := s.room ++ [line], pending := s.pending.erase line }
    else none
  | .poll => some s.poll
  | .clear => some { s with lines := [] }

/-! ## Lines are delivered once -/

/-- The ring is sorted, and a poll now leaves every line in it delivered, and no line delivered twice. -/
structure Sound (s : Logs) : Prop where
  sorted : s.lines.Pairwise fun a b => a.seq < b.seq
  delivered : ∀ line ∈ s.lines, line ∈ s.poll.delivered
  once : s.poll.delivered.Nodup

/-- The line that enters has a number above those of the lines that stay, and above the cursor. -/
def InOrder (s : Logs) : LogAct → Prop
  | .enter line => (∀ other ∈ s.room, other.seq < line.seq) ∧ s.logSeq < line.seq
  | _ => True

instance (s : Logs) : (act : LogAct) → Decidable (InOrder s act)
  | .enter line => inferInstanceAs (Decidable ((∀ other ∈ s.room, other.seq < line.seq) ∧ s.logSeq < line.seq))
  | .number .. => .isTrue trivial
  | .poll => .isTrue trivial
  | .clear => .isTrue trivial

variable {s : Logs} {line : LogLine}

theorem mem_since {seq : UInt64} : line ∈ s.since seq ↔ line ∈ s.lines ∧ seq < line.seq := by
  simp [since]

theorem poll_delivered (s : Logs) : s.poll.delivered = s.delivered ++ s.since s.logSeq := by
  unfold poll
  by_cases h : (s.since s.logSeq).isEmpty
  · rw [if_pos h, List.isEmpty_iff.mp h, List.append_nil]
  · rw [if_neg h]

theorem poll_fields (s : Logs) :
    s.poll.lines = s.lines ∧ s.poll.pending = s.pending ∧ s.poll.pushes = s.pushes := by
  unfold poll
  by_cases h : (s.since s.logSeq).isEmpty
  · rw [if_pos h]
    exact ⟨rfl, rfl, rfl⟩
  · rw [if_neg h]
    exact ⟨rfl, rfl, rfl⟩

/-- Every push has its own number, and a line that has not entered is nowhere else. -/
structure Distinct (s : Logs) : Prop where
  known : ∀ line ∈ s.lines ++ s.pending ++ s.delivered, line.push < s.pushes
  nodup : (s.lines ++ s.pending).Nodup
  fresh : ∀ line ∈ s.pending, line ∉ s.delivered

theorem distinct_init (capacity : Nat) : (init capacity).Distinct where
  known := by simp [init]
  nodup := List.nodup_nil
  fresh := by simp [init]

theorem room_sublist (s : Logs) : s.room.Sublist s.lines := List.drop_sublist ..

/-- Where the line that enters stood before. -/
theorem entered_perm (hmem : line ∈ s.pending) :
    (s.room ++ [line] ++ s.pending.erase line).Perm (s.room ++ s.pending) := by
  rw [List.append_assoc]
  exact (List.perm_cons_erase hmem).symm.append_left s.room

theorem step_distinct {t : Logs} {act : LogAct} (h : s.Distinct) (hstep : s.step act = some t) :
    t.Distinct := by
  cases act with
  | number level target message =>
    obtain rfl := Option.some.inj hstep
    have hnew : ∀ other ∈ s.lines ++ s.pending ++ s.delivered,
        other ≠ ⟨s.nextSeq, level, target, cutMessage message, s.pushes⟩ := by
      rintro other hmem rfl
      exact absurd (h.known _ hmem) (Nat.lt_irrefl _)
    refine ⟨?_, ?_, ?_⟩
    · intro other hmem
      by_cases hold : other ∈ s.lines ++ s.pending ++ s.delivered
      · exact Nat.lt_succ_of_lt (h.known other hold)
      · have hothers : other = ⟨s.nextSeq, level, target, cutMessage message, s.pushes⟩ := by
          simp only [List.mem_append, List.mem_singleton, not_or] at hmem hold
          tauto
        rw [hothers]
        exact Nat.lt_succ_self _
    · rw [← List.append_assoc]
      refine h.nodup.append (List.nodup_singleton _) ?_
      rw [List.disjoint_singleton]
      exact fun hmem => hnew _ (List.mem_append_left _ hmem) rfl
    · intro other hmem hdelivered
      rcases List.mem_append.mp hmem with hmem | hmem
      · exact h.fresh other hmem hdelivered
      · obtain rfl := List.mem_singleton.mp hmem
        exact hnew _ (List.mem_append_right _ hdelivered) rfl
  | enter line =>
    simp only [step] at hstep
    split at hstep
    · rename_i hmem
      obtain rfl := Option.some.inj hstep
      have hsub : ∀ other ∈ s.room ++ [line] ++ s.pending.erase line, other ∈ s.lines ++ s.pending := by
        intro other hother
        exact ((room_sublist s).append_right s.pending).subset ((entered_perm hmem).subset hother)
      refine ⟨?_, ?_, fun other hother => h.fresh other (List.mem_of_mem_erase hother)⟩
      · intro other hother
        refine h.known other (List.mem_append.mpr ?_)
        exact (List.mem_append.mp hother).imp_left (hsub other)
      · exact (entered_perm hmem).nodup_iff.mpr (h.nodup.sublist ((room_sublist s).append_right _))
    · cases hstep
  | poll =>
    obtain rfl := Option.some.inj hstep
    obtain ⟨hlines, hpending, hpushes⟩ := poll_fields s
    refine ⟨?_, ?_, ?_⟩
    · intro other hmem
      rw [hlines, hpending, poll_delivered, ← List.append_assoc, List.mem_append] at hmem
      rw [hpushes]
      rcases hmem with hmem | hmem
      · exact h.known other hmem
      · exact h.known other (by simp [(mem_since.mp hmem).1])
    · rw [hlines, hpending]
      exact h.nodup
    · intro other hmem hdelivered
      rw [hpending] at hmem
      rw [poll_delivered, List.mem_append] at hdelivered
      rcases hdelivered with hdelivered | hdelivered
      · exact h.fresh other hmem hdelivered
      · exact (List.nodup_append.mp h.nodup).2.2 other (mem_since.mp hdelivered).1 other hmem rfl
  | clear =>
    obtain rfl := Option.some.inj hstep
    refine ⟨?_, h.nodup.sublist (List.sublist_append_right _ _), h.fresh⟩
    intro other hmem
    refine h.known other ?_
    rw [List.append_assoc, List.mem_append]
    exact .inr hmem

/-! ## What keeps the ring sound -/

/-- What a sound ring says of one of its lines: delivered, or above the cursor. -/
theorem Sound.delivered_or (h : s.Sound) (hmem : line ∈ s.lines) : line ∈ s.delivered ∨ s.logSeq < line.seq := by
  have hline := h.delivered line hmem
  rw [poll_delivered, List.mem_append, mem_since] at hline
  exact hline.imp_right And.right

theorem sound_init (capacity : Nat) : (init capacity).Sound where
  sorted := .nil
  delivered := by simp [init]
  once := List.nodup_nil

/-- The cursor passes every record of a sorted list, and never goes back. -/
theorem le_cursor {records : List LogLine} (h : records.Pairwise fun a b => a.seq < b.seq) (seq : UInt64) :
    seq ≤ cursor seq records ∧ ∀ line ∈ records, line.seq ≤ cursor seq records := by
  have hmax : ∀ a b : UInt64, a ≤ max a b ∧ b ≤ max a b := by
    intro a b
    rw [show max a b = if a ≤ b then b else a from rfl]
    by_cases hle : a ≤ b
    · rw [if_pos hle]
      exact ⟨hle, UInt64.le_refl b⟩
    · rw [if_neg hle]
      exact ⟨UInt64.le_refl a, UInt64.le_of_lt (UInt64.not_le.mp hle)⟩
  refine ⟨(hmax _ _).1, fun line hmem => ?_⟩
  rcases List.eq_nil_or_concat records with rfl | ⟨front, last, rfl⟩
  · cases hmem
  · rw [List.concat_eq_append] at h hmem ⊢
    have hlast : line.seq ≤ last.seq := by
      rcases List.mem_append.mp hmem with hmem | hmem
      · exact UInt64.le_of_lt ((List.pairwise_append.mp h).2.2 line hmem last (List.mem_singleton_self _))
      · rw [List.mem_singleton.mp hmem]
        exact UInt64.le_refl _
    unfold cursor
    rw [List.getLast?_concat]
    exact UInt64.le_trans hlast (hmax _ _).2

/-- After a poll of a sorted ring nothing is left to poll. -/
theorem since_poll (h : s.lines.Pairwise fun a b => a.seq < b.seq) : s.poll.since s.poll.logSeq = [] := by
  have hcursor := le_cursor (h.sublist (List.filter_sublist (p := fun line => line.seq > s.logSeq))) s.logSeq
  unfold poll
  by_cases hempty : (s.since s.logSeq).isEmpty
  · rw [if_pos hempty]
    exact List.isEmpty_iff.mp hempty
  · rw [if_neg hempty]
    refine List.filter_eq_nil_iff.mpr fun line hmem => ?_
    rw [decide_eq_true_eq]
    refine UInt64.not_lt.mpr ?_
    by_cases hnew : s.logSeq < line.seq
    · exact hcursor.2 line (mem_since.mpr ⟨hmem, hnew⟩)
    · exact UInt64.le_trans (UInt64.not_lt.mp hnew) hcursor.1

theorem Sound.poll (h : s.Sound) : s.poll.Sound := by
  have hdelivered : s.poll.poll.delivered = s.poll.delivered := by
    rw [poll_delivered, since_poll h.sorted, List.append_nil]
  refine ⟨?_, ?_, ?_⟩
  · rw [(poll_fields s).1]
    exact h.sorted
  · rw [(poll_fields s).1, hdelivered]
    exact h.delivered
  · rw [hdelivered]
    exact h.once

/-- **A line enters.** -/
theorem sound_enter_iff (hdistinct : s.Distinct) (h : s.Sound) (hmem : line ∈ s.pending) :
    Sound { s with lines := s.room ++ [line], pending := s.pending.erase line } ↔ s.InOrder (.enter line) := by
  have hfresh := hdistinct.fresh line hmem
  have hstays : ∀ other ∈ s.room, other ∈ s.lines := fun other hother => (room_sublist s).subset hother
  constructor
  · intro hnew
    refine ⟨fun other hother => ?_, ?_⟩
    · exact (List.pairwise_append.mp hnew.sorted).2.2 other hother line (List.mem_singleton_self _)
    · exact (hnew.delivered_or (List.mem_append_right _ (List.mem_singleton_self _))).resolve_left hfresh
  · rintro ⟨hroom, hcursor⟩
    have honce := h.once
    rw [poll_delivered, List.nodup_append] at honce
    refine ⟨?_, ?_, ?_⟩
    · refine List.pairwise_append.mpr ⟨h.sorted.sublist (room_sublist s), List.pairwise_singleton _ _, ?_⟩
      intro other hother x hx
      rw [List.mem_singleton.mp hx]
      exact hroom other hother
    · intro other hother
      rw [poll_delivered, List.mem_append, mem_since]
      rcases List.mem_append.mp hother with hstay | hentered
      · exact (h.delivered_or (hstays other hstay)).imp_right fun hnew => ⟨hother, hnew⟩
      · rw [List.mem_singleton.mp hentered] at hother ⊢
        exact .inr ⟨hother, hcursor⟩
    · rw [poll_delivered, List.nodup_append]
      refine ⟨honce.1, ?_, ?_⟩
      · have hnodup := (entered_perm hmem).nodup_iff.mpr
          (hdistinct.nodup.sublist ((room_sublist s).append_right _))
        exact (List.nodup_append.mp hnodup).1.sublist List.filter_sublist
      · rintro other hdelivered x hx rfl
        obtain ⟨hin, hnew⟩ := mem_since.mp hx
        rcases List.mem_append.mp hin with hstay | hentered
        · exact honce.2.2 other hdelivered other (mem_since.mpr ⟨hstays other hstay, hnew⟩) rfl
        · rw [List.mem_singleton.mp hentered] at hdelivered
          exact hfresh hdelivered

/-- **One step**, of a sound ring. -/
theorem step_sound_iff {t : Logs} {act : LogAct} (hdistinct : s.Distinct) (h : s.Sound)
    (hstep : s.step act = some t) : t.Sound ↔ s.InOrder act := by
  cases act with
  | number level target message =>
    obtain rfl := Option.some.inj hstep
    refine iff_of_true ⟨h.sorted, ?_, ?_⟩ trivial
    · intro line hmem
      rw [poll_delivered]
      exact poll_delivered s ▸ h.delivered line hmem
    · rw [poll_delivered]
      exact poll_delivered s ▸ h.once
  | enter line =>
    simp only [step] at hstep
    split at hstep
    · rename_i hmem
      obtain rfl := Option.some.inj hstep
      exact sound_enter_iff hdistinct h hmem
    · cases hstep
  | poll =>
    obtain rfl := Option.some.inj hstep
    exact iff_of_true h.poll trivial
  | clear =>
    obtain rfl := Option.some.inj hstep
    have honce := h.once
    rw [poll_delivered] at honce
    refine iff_of_true ⟨.nil, by simp, ?_⟩ trivial
    rw [poll_delivered]
    exact (List.append_nil s.delivered).symm ▸ (List.nodup_append.mp honce).1

/-- **Sorted, and every line delivered once**: in every state of a run, if and only if every line enters in
    order. -/
theorem sound_iff_inOrder (capacity : Nat) {acts : List LogAct} {s : Logs}
    (hrun : run step (init capacity) acts = some s) :
    (∀ pre t, pre <+: acts → run step (init capacity) pre = some t → t.Sound) ↔
      Meets step InOrder (init capacity) acts := by
  refine states_iff_meets_of_inv ?_ (distinct_init capacity) (sound_init capacity) hrun
  intro s act t hdistinct h hstep
  exact ⟨step_distinct hdistinct hstep, step_sound_iff hdistinct h hstep⟩

/-! ## Producers that keep their turn -/

/-- The line that enters is the first of those that wait, and the numbers do not run out. -/
def InSequence (s : Logs) : LogAct → Prop
  | .number .. => s.nextSeq < s.nextSeq + 1
  | .enter line => s.pending.head? = some line
  | _ => True

/-- The lines of the ring and those that wait stand in the order of their numbers, and the poller has seen none of
    the latter. -/
structure Sequenced (s : Logs) : Prop where
  sorted : (s.lines ++ s.pending).Pairwise fun a b => a.seq < b.seq
  below : ∀ line ∈ s.lines ++ s.pending, line.seq < s.nextSeq
  cursor : s.logSeq < s.nextSeq
  unseen : ∀ line ∈ s.pending, s.logSeq < line.seq

theorem sequenced_init (capacity : Nat) : (init capacity).Sequenced where
  sorted := .nil
  below := by simp [init]
  cursor := show (0 : UInt64) < 1 by decide
  unseen := by simp [init]

/-- The cursor stays below what the records stay below. -/
theorem cursor_lt {seq bound : UInt64} {records : List LogLine} (hseq : seq < bound)
    (hrecords : ∀ line ∈ records, line.seq < bound) : cursor seq records < bound := by
  have hmax : ∀ a b : UInt64, a < bound → b < bound → max a b < bound := by
    intro a b ha hb
    rw [show max a b = if a ≤ b then b else a from rfl]
    split
    · exact hb
    · exact ha
  unfold cursor
  refine hmax _ _ hseq ?_
  cases hlast : records.getLast? with
  | none => exact hseq
  | some last => exact hrecords last (List.mem_of_getLast? hlast)

/-- A new number is above all others. -/
theorem Sequenced.number (h : s.Sequenced) (hnext : s.nextSeq < s.nextSeq + 1) (new : LogLine)
    (hnew : new.seq = s.nextSeq) (pushes : Nat) :
    Sequenced { s with nextSeq := s.nextSeq + 1, pending := s.pending ++ [new], pushes := pushes } := by
  refine ⟨?_, ?_, UInt64.lt_trans h.cursor hnext, ?_⟩
  · rw [← List.append_assoc]
    refine List.pairwise_append.mpr ⟨h.sorted, List.pairwise_singleton _ _, fun other hother line hline => ?_⟩
    rw [List.mem_singleton.mp hline, hnew]
    exact h.below other hother
  · intro line hmem
    rw [← List.append_assoc] at hmem
    rcases List.mem_append.mp hmem with hold | hline
    · exact UInt64.lt_trans (h.below line hold) hnext
    · rw [List.mem_singleton.mp hline, hnew]
      exact hnext
  · intro line hmem
    rcases List.mem_append.mp hmem with hold | hline
    · exact h.unseen line hold
    · rw [List.mem_singleton.mp hline, hnew]
      exact h.cursor

/-- The first of the lines that wait moves to the end of the ring, and the two lists together keep their order. -/
theorem Sequenced.enter (h : s.Sequenced) {rest : List LogLine} (hpending : s.pending = line :: rest) :
    Sequenced { s with lines := s.room ++ [line], pending := rest } := by
  have hmoved : (s.room ++ [line] ++ rest).Sublist (s.lines ++ s.pending) := by
    rw [hpending, List.append_assoc]
    exact (room_sublist s).append_right _
  refine ⟨h.sorted.sublist hmoved, fun other hother => h.below other (hmoved.subset hother), h.cursor, ?_⟩
  intro other hother
  exact h.unseen other (hpending ▸ List.mem_cons_of_mem line hother)

/-- A poll moves the cursor to a line of the ring, if at all. -/
theorem poll_cursor_lt {bound : UInt64} (hseq : s.logSeq < bound) (hlines : ∀ line ∈ s.lines, line.seq < bound) :
    s.poll.logSeq < bound ∧ s.poll.nextSeq = s.nextSeq := by
  unfold poll
  dsimp only
  split
  · exact ⟨hseq, rfl⟩
  · exact ⟨cursor_lt hseq fun line hline => hlines line (mem_since.mp hline).1, rfl⟩

theorem Sequenced.poll (h : s.Sequenced) : s.poll.Sequenced := by
  obtain ⟨hlines, hpending, -⟩ := poll_fields s
  obtain ⟨hcursor, hnext⟩ := poll_cursor_lt h.cursor fun line hline => h.below line (List.mem_append_left _ hline)
  refine ⟨?_, ?_, ?_, ?_⟩
  · rw [hlines, hpending]
    exact h.sorted
  · rw [hlines, hpending, hnext]
    exact h.below
  · rw [hnext]
    exact hcursor
  · rw [hpending]
    intro line hmem
    refine (poll_cursor_lt (h.unseen line hmem) fun other hother => ?_).1
    exact (List.pairwise_append.mp h.sorted).2.2 other hother line hmem

theorem step_sequenced {t : Logs} {act : LogAct} (h : s.Sequenced) (hturn : s.InSequence act)
    (hstep : s.step act = some t) : t.Sequenced := by
  cases act with
  | number level target message =>
    obtain rfl := Option.some.inj hstep
    exact h.number hturn _ rfl _
  | enter line =>
    obtain ⟨rest, hpending⟩ := List.head?_eq_some_iff.mp hturn
    simp only [step] at hstep
    rw [if_pos (hpending ▸ List.mem_cons_self)] at hstep
    obtain rfl := Option.some.inj hstep
    rw [show s.pending.erase line = rest by rw [hpending, List.erase_cons_head]]
    exact h.enter hpending
  | poll =>
    obtain rfl := Option.some.inj hstep
    exact h.poll
  | clear =>
    obtain rfl := Option.some.inj hstep
    exact ⟨(List.pairwise_append.mp h.sorted).2.1, fun line hline => h.below line (List.mem_append_right _ hline),
      h.cursor, h.unseen⟩

/-- Pushes that enter in the order of their numbers enter in order: only a push that overtakes another does not. -/
theorem inOrder_of_inSequence {capacity : Nat} {acts : List LogAct}
    (h : Meets step InSequence (init capacity) acts) : Meets step InOrder (init capacity) acts := by
  have hfrom : ∀ s : Logs, s.Sequenced → Meets step InSequence s acts → Meets step InOrder s acts := by
    clear h
    induction acts with
    | nil => exact fun _ _ _ => trivial
    | cons act acts ih =>
      intro s hs h
      refine ⟨?_, fun t ht => ih t (step_sequenced hs h.1 ht) (h.2 t ht)⟩
      cases act with
      | enter line =>
        obtain ⟨rest, hpending⟩ := List.head?_eq_some_iff.mp h.1
        have hfirst : line ∈ s.pending := hpending ▸ List.mem_cons_self
        refine ⟨fun other hother => ?_, hs.unseen line hfirst⟩
        exact (List.pairwise_append.mp hs.sorted).2.2 other ((room_sublist s).subset hother) line hfirst
      | _ => trivial
  exact hfrom _ (sequenced_init capacity) h

/-- A line as the producers below push it. -/
def lineOf (seq : UInt64) (push : Nat) : LogLine := ⟨seq, .info, "rx11", "m", push⟩

/-- In order: two producers, and a poll between their lines. -/
def ordered : List LogAct :=
  [.number .info "rx11" "m", .enter (lineOf 1 0), .poll, .number .info "rx11" "m", .enter (lineOf 2 1)]

theorem sound_iff_inOrder_two :
    ∃ s, run step (init 4000) ordered = some s ∧
      ∀ pre t, pre <+: ordered → run step (init 4000) pre = some t → t.Sound := by
  have hrun : run step (init 4000) ordered =
      some ⟨4000, 3, [lineOf 1 0, lineOf 2 1], [], 1, [lineOf 1 0], 2⟩ := by decide
  exact ⟨_, hrun, (sound_iff_inOrder 4000 hrun).mpr (by decide)⟩

/-- The second line enters first and is polled: the first is behind the cursor and is never delivered. -/
def overtaken : List LogAct :=
  [.number .info "rx11" "m", .number .info "rx11" "m", .enter (lineOf 2 1), .poll, .enter (lineOf 1 0), .poll]

/-- The third line enters before the second: the cursor stops at the second, and the third comes again. -/
def repeated : List LogAct :=
  [.number .info "rx11" "m", .number .info "rx11" "m", .number .info "rx11" "m", .enter (lineOf 1 0),
    .enter (lineOf 3 2), .enter (lineOf 2 1), .poll, .poll]

/-- Neither ring is sorted; the one loses a line of the ring, the other delivers a line twice. -/
theorem overtaken_line_lost :
    (∃ s, run step (init 4000) overtaken = some s ∧ ¬ (s.lines.Pairwise fun a b => a.seq < b.seq) ∧
        lineOf 1 0 ∈ s.lines ∧ lineOf 1 0 ∉ s.delivered) ∧
      ∃ s, run step (init 4000) repeated = some s ∧ ¬ (s.lines.Pairwise fun a b => a.seq < b.seq) ∧
        s.delivered.count (lineOf 3 2) = 2 := by
  have hlost : run step (init 4000) overtaken =
      some ⟨4000, 3, [lineOf 2 1, lineOf 1 0], [], 2, [lineOf 2 1], 2⟩ := by decide
  have htwice : run step (init 4000) repeated = some ⟨4000, 4, [lineOf 1 0, lineOf 3 2, lineOf 2 1], [], 3,
      [lineOf 1 0, lineOf 3 2, lineOf 2 1, lineOf 3 2], 3⟩ := by decide
  exact ⟨⟨_, hlost, by decide, by decide, by decide⟩, ⟨_, htwice, by decide, by decide⟩⟩

end Logs

end RemoteX11.Gui
