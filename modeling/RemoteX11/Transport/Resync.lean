/-
  Does what is received depend on how the stream is cut into reads (`transport.rs`, `scan_for_magic` and
  `recv_frame_inner`)?

  A frame is taken out of the buffer with the same bytes whatever the reads were, but the scan after a
  corrupt header sees what has arrived by then. Every cut has eleven bytes from a header that is judged,
  and a cut may have no more. So a magic that ends within these is found under every cut (`recv_near`);
  one that ends later is found under some and missed under others, and missing it is fatal
  (`recv_judged`). The difference shows unless everything the scan could still find is corrupt as well
  (`recv_hopeless`). `Steady` says this of a stream, and `splitIndependent_iff` that it is exact.
-/
import RemoteX11.Transport.Recv

namespace RemoteX11.Transport

open RemoteX11.Lib RemoteX11.Protocol

/-! ## The scan -/

/-- The magic bytes stand at offset `m`. -/
def MagicAt (x : Bytes) (m : Nat) : Prop := (x.drop m).take 4 = magicBytes

instance (x : Bytes) (m : Nat) : Decidable (MagicAt x m) :=
  inferInstanceAs (Decidable ((x.drop m).take 4 = magicBytes))

theorem MagicAt.le_length {x : Bytes} {m : Nat} (h : MagicAt x m) : m + 4 ≤ x.length := by
  have hlen := congrArg List.length h
  simp only [List.length_take, List.length_drop, magicBytes, List.length_cons, List.length_nil] at hlen
  omega

theorem magicAt_drop (x : Bytes) (k m : Nat) : MagicAt (x.drop k) m ↔ MagicAt x (k + m) := by
  rw [MagicAt, MagicAt, List.drop_drop]

/-- A magic that has arrived whole is one of the stream. -/
theorem magicAt_append (buf rest : Bytes) (m : Nat) (hm : m + 4 ≤ buf.length) :
    MagicAt (buf ++ rest) m ↔ MagicAt buf m := by
  rw [MagicAt, MagicAt, List.drop_append_of_le_length (by omega),
    List.take_append_of_le_length (by rw [List.length_drop]; omega)]

/-- What the scan finds is the first magic past the start. -/
theorem scanForMagic_spec (x : Bytes) :
    (scanForMagic x = 0 ∧ ∀ m, 0 < m → ¬ MagicAt x m) ∨
    (0 < scanForMagic x ∧ MagicAt x (scanForMagic x) ∧
      ∀ m, 0 < m → m < scanForMagic x → ¬ MagicAt x m) := by
  unfold scanForMagic
  by_cases hlen : x.length ≤ 4
  · rw [if_pos hlen]
    refine .inl ⟨rfl, fun m hm h => ?_⟩
    have := h.le_length
    omega
  · rw [if_neg hlen]
    have hmem : ∀ m, MagicAt x m → 0 < m → m ∈ List.range' 1 (x.length - 4) := by
      intro m h hm
      have := h.le_length
      exact List.mem_range'_1.mpr ⟨hm, by omega⟩
    rcases hf : (List.range' 1 (x.length - 4)).find? fun i => (x.drop i).take 4 == magicBytes
      with _ | q
    · refine .inl ⟨rfl, fun m hm h => ?_⟩
      have := List.find?_eq_none.mp hf m (hmem m h hm)
      exact this (by simpa [MagicAt] using h)
    · obtain ⟨hq, i, hi, hget, hbefore⟩ := List.find?_eq_some_iff_getElem.mp hf
      have hi' : q = 1 + i := by
        rw [← hget, List.getElem_range', Nat.one_mul]
      refine .inr ⟨by show 0 < q; omega, by simpa [MagicAt] using hq, ?_⟩
      intro m hm hlt h
      have hlt : m < q := hlt
      have := hbefore (m - 1) (by omega)
      rw [List.getElem_range', Nat.one_mul, show 1 + (m - 1) = m by omega] at this
      rw [h] at this
      simp at this

theorem scanForMagic_eq_zero {x : Bytes} : scanForMagic x = 0 ↔ ∀ m, 0 < m → ¬ MagicAt x m := by
  obtain ⟨h0, hno⟩ | ⟨hpos, hmagic, -⟩ := scanForMagic_spec x
  · exact iff_of_true h0 hno
  · exact iff_of_false (by omega) fun h => h _ hpos hmagic

theorem magicAt_scanForMagic {x : Bytes} (h : scanForMagic x ≠ 0) : MagicAt x (scanForMagic x) := by
  obtain ⟨h0, -⟩ | ⟨-, hmagic, -⟩ := scanForMagic_spec x
  · exact absurd h0 h
  · exact hmagic

theorem scanForMagic_le {x : Bytes} {m : Nat} (hm : 0 < m) (h : MagicAt x m) :
    0 < scanForMagic x ∧ scanForMagic x ≤ m := by
  obtain ⟨-, hno⟩ | ⟨hpos, -, hfirst⟩ := scanForMagic_spec x
  · exact absurd h (hno m hm)
  · refine ⟨hpos, ?_⟩
    by_contra hlt
    exact hfirst m hm (by omega) h

/-- The scan of what has arrived finds the same magic, if that one has arrived. -/
theorem scanForMagic_append (buf rest : Bytes) (h : scanForMagic buf ≠ 0) :
    scanForMagic (buf ++ rest) = scanForMagic buf := by
  have hmagic := magicAt_scanForMagic h
  have hle := hmagic.le_length
  obtain ⟨hpos, hq⟩ := scanForMagic_le (Nat.pos_of_ne_zero h) ((magicAt_append buf rest _ hle).mpr hmagic)
  have hfound := magicAt_scanForMagic (x := buf ++ rest) (by omega)
  rw [magicAt_append buf rest _ (by omega)] at hfound
  have := (scanForMagic_le hpos hfound).2
  omega

theorem scanForMagic_prefix {buf rest : Bytes} (h : scanForMagic (buf ++ rest) ≠ 0)
    (hle : scanForMagic (buf ++ rest) + 4 ≤ buf.length) :
    scanForMagic buf = scanForMagic (buf ++ rest) := by
  have hmagic := (magicAt_append buf rest _ hle).mp (magicAt_scanForMagic h)
  have hpos := (scanForMagic_le (Nat.pos_of_ne_zero h) hmagic).1
  exact (scanForMagic_append buf rest (by omega)).symm

/-! ## Headers -/

/-- The buffer ends inside a header, or inside the frame that its header announces. -/
def Waits (buf : Bytes) : Prop :=
  buf.length < frameHeaderSize ∨
    ∃ t total, peekFrame buf = .ok (some (t, total)) ∧ buf.length < total

theorem peekFrame_some {x : Bytes} {t : MessageType} {total : Nat}
    (h : peekFrame x = .ok (some (t, total))) :
    frameHeaderSize ≤ x.length ∧ frameHeaderSize ≤ total ∧
      total ≤ frameHeaderSize + maxFrameSize := by
  unfold peekFrame at h
  split at h
  · simp at h
  · split at h
    · contradiction
    · split at h
      · contradiction
      · dsimp only at h
        split at h
        · contradiction
        · rcases ht : MessageType.tryFrom (beU16At x 5) with e | mt
          · rw [ht] at h
            contradiction
          · rw [ht] at h
            simp only [bind, Except.bind, Except.ok.injEq, Option.some.injEq, Prod.mk.injEq] at h
            omega

theorem peekFrame_error {x : Bytes} {e : Rx11Error} (h : peekFrame x = .error e) :
    frameHeaderSize ≤ x.length := by
  by_contra hlt
  unfold peekFrame at h
  rw [if_pos (by omega)] at h
  contradiction

/-- What a header says: wait, a frame that has arrived, or corrupt. -/
theorem peekFrame_cases (x : Bytes) :
    Waits x ∨ (∃ t total, peekFrame x = .ok (some (t, total)) ∧ total ≤ x.length) ∨
      ∃ e, peekFrame x = .error e := by
  rcases h : peekFrame x with e | _ | ⟨t, total⟩
  · exact .inr (.inr ⟨e, rfl⟩)
  · left
    left
    unfold peekFrame at h
    by_contra hle
    rw [if_neg hle] at h
    split at h
    · contradiction
    · split at h
      · contradiction
      · dsimp only at h
        split at h
        · contradiction
        · rcases ht : MessageType.tryFrom (beU16At x 5) with e | mt <;>
            simp [ht, bind, Except.bind] at h
  · by_cases hle : total ≤ x.length
    · exact .inr (.inl ⟨t, total, rfl, hle⟩)
    · exact .inl (.inr ⟨t, total, h, by omega⟩)

/-- A corrupt header is corrupt however much of what follows has arrived. -/
theorem peekFrame_error_append {buf rest : Bytes} {e : Rx11Error}
    (h : peekFrame (buf ++ rest) = .error e) (hlen : frameHeaderSize ≤ buf.length) :
    peekFrame buf = .error e := by
  rw [← peekFrame_append buf rest hlen]
  exact h

/-! ## One call -/

variable (S : Serde)

/-- A call that must wait appends the next read. -/
theorem recv_read {buf b : Bytes} {reads : List Bytes} (hwait : Waits buf) (hb : b ≠ []) :
    recvFrameInner S buf ((b :: reads).map .ok) =
      recvFrameInner S (buf ++ b) (reads.map .ok) := by
  obtain ⟨x, xs, rfl⟩ := List.exists_cons_of_ne_nil hb
  rw [List.map_cons, recvFrameInner.eq_def]
  rcases hwait with hlt | ⟨t, total, hpeek, hlt⟩
  · have hpeek : peekFrame buf = .ok none := by
      unfold peekFrame
      rw [if_pos hlt]
    have hlimit : ¬ buf.length > readBufHardLimit := by
      unfold readBufHardLimit frameHeaderSize at *
      omega
    simp only [hpeek, Option.filter_none, if_neg hlimit]
  · have hsize := peekFrame_some hpeek
    have hlimit : ¬ buf.length > readBufHardLimit := by
      unfold readBufHardLimit frameHeaderSize at *
      omega
    have hle : ¬ total ≤ buf.length := by omega
    simp only [hpeek, Option.filter_some, hle, decide_false, Bool.false_eq_true, if_false,
      if_neg hlimit]

theorem recv_end {buf : Bytes} (hwait : Waits buf) :
    (recvFrameInner S buf []).1 = .error .connectionClosed := by
  rw [recvFrameInner.eq_def]
  rcases hwait with hlt | ⟨t, total, hpeek, hlt⟩
  · have hpeek : peekFrame buf = .ok none := by
      unfold peekFrame
      rw [if_pos hlt]
    have hlimit : ¬ buf.length > readBufHardLimit := by
      unfold readBufHardLimit frameHeaderSize at *
      omega
    simp only [hpeek, Option.filter_none, if_neg hlimit]
  · have hsize := peekFrame_some hpeek
    have hlimit : ¬ buf.length > readBufHardLimit := by
      unfold readBufHardLimit frameHeaderSize at *
      omega
    have hle : ¬ total ≤ buf.length := by omega
    simp only [hpeek, Option.filter_some, hle, decide_false, Bool.false_eq_true, if_false,
      if_neg hlimit]

theorem recv_complete {buf : Bytes} {t : MessageType} {total : Nat} (reader : List Read)
    (hpeek : peekFrame buf = .ok (some (t, total))) (hle : total ≤ buf.length) :
    recvFrameInner S buf reader =
      (decodePayloadOwned S t ((buf.take total).drop frameHeaderSize), buf.drop total, reader) := by
  rw [recvFrameInner.eq_def]
  simp only [hpeek, Option.filter_some, hle, decide_true, if_true]

theorem recv_resync {buf : Bytes} {e : Rx11Error} (reader : List Read)
    (hpeek : peekFrame buf = .error e) (hscan : scanForMagic buf ≠ 0) :
    recvFrameInner S buf reader = recvFrameInner S (buf.drop (scanForMagic buf)) reader := by
  rw [recvFrameInner.eq_def]
  simp only [hpeek, dif_neg hscan]

/-- The error of a scan that finds nothing. -/
def noRecovery : Rx11Error := .protocol "Invalid frame and no recovery possible"

theorem recv_lost {buf : Bytes} {e : Rx11Error} (reader : List Read)
    (hpeek : peekFrame buf = .error e) (hscan : scanForMagic buf = 0) :
    (recvFrameInner S buf reader).1 = .error noRecovery := by
  rw [recvFrameInner.eq_def]
  simp only [hpeek, dif_pos hscan, noRecovery]

/-- A cut of the stream `x`: what has arrived, and the reads to come. -/
structure Cut (x buf : Bytes) (reads : List Bytes) : Prop where
  nonempty : ∀ b ∈ reads, b ≠ []
  joins : buf ++ reads.flatten = x

theorem Cut.whole (x : Bytes) : Cut x x [] := ⟨by simp, by simp⟩

theorem Cut.read {x buf b : Bytes} {reads : List Bytes} (h : Cut x buf (b :: reads)) :
    Cut x (buf ++ b) reads where
  nonempty := fun c hc => h.nonempty c (List.mem_cons_of_mem _ hc)
  joins := by rw [List.append_assoc, ← List.flatten_cons, h.joins]

theorem Cut.drop {x buf : Bytes} {reads : List Bytes} (h : Cut x buf reads) {k : Nat}
    (hk : k ≤ buf.length) : Cut (x.drop k) (buf.drop k) reads where
  nonempty := h.nonempty
  joins := by rw [← h.joins, List.drop_append_of_le_length hk]

/-- A call reads on until it has the `k` bytes it waits for. -/
theorem recv_until {x buf : Bytes} {reads : List Bytes} {k : Nat} (h : Cut x buf reads)
    (hk : k ≤ x.length) (hwait : ∀ b rest, b ++ rest = x → b.length < k → Waits b) :
    ∃ buf' reads', Cut x buf' reads' ∧ k ≤ buf'.length ∧
      recvFrameInner S buf (reads.map .ok) = recvFrameInner S buf' (reads'.map .ok) := by
  induction reads generalizing buf with
  | nil =>
    have hbuf : buf = x := by simpa using h.joins
    exact ⟨buf, [], h, hbuf ▸ hk, rfl⟩
  | cons b reads ih =>
    by_cases hle : k ≤ buf.length
    · exact ⟨buf, b :: reads, h, hle, rfl⟩
    · obtain ⟨buf', reads', hcut, hlen, heq⟩ := ih h.read
      refine ⟨buf', reads', hcut, hlen, ?_⟩
      rw [recv_read S (hwait buf _ h.joins (by omega)) (h.nonempty b List.mem_cons_self), heq]

/-- A stream that ends inside a header or a frame has only such beginnings. -/
theorem Waits.of_append {b rest : Bytes} (h : Waits (b ++ rest)) : Waits b := by
  by_cases hlen : b.length < frameHeaderSize
  · exact .inl hlen
  · rcases h with hlt | ⟨t, total, hpeek, hlt⟩
    · rw [List.length_append] at hlt
      omega
    · rw [peekFrame_append b rest (by omega)] at hpeek
      rw [List.length_append] at hlt
      exact .inr ⟨t, total, hpeek, by omega⟩

theorem recv_closed {x buf : Bytes} {reads : List Bytes} (h : Cut x buf reads) (hx : Waits x) :
    (recvFrameInner S buf (reads.map .ok)).1 = .error .connectionClosed := by
  obtain ⟨buf', reads', hcut, hlen, heq⟩ := recv_until S h (Nat.le_refl x.length)
    fun b rest hb _ => Waits.of_append (hb ▸ hx)
  have hbuf : buf' = x := by
    rw [← List.take_of_length_le hlen, ← hcut.joins, List.take_left' rfl]
  have hflat : reads'.flatten = [] := by
    have := hcut.joins
    rwa [hbuf, List.append_right_eq_self] at this
  have hreads : reads' = [] := by
    rcases reads' with _ | ⟨b, reads'⟩
    · rfl
    · exact absurd (List.flatten_eq_nil_iff.mp hflat b List.mem_cons_self)
        (hcut.nonempty b List.mem_cons_self)
  rw [heq, hreads, hbuf]
  exact recv_end S hx

/-- A frame that is in the stream is taken out with the same bytes under every cut. -/
theorem recv_frame {x buf : Bytes} {reads : List Bytes} {t : MessageType} {total : Nat}
    (h : Cut x buf reads) (hpeek : peekFrame x = .ok (some (t, total))) (hle : total ≤ x.length) :
    ∃ buf' reads', Cut (x.drop total) buf' reads' ∧
      recvFrameInner S buf (reads.map .ok) =
        (decodePayloadOwned S t ((x.take total).drop frameHeaderSize), buf', reads'.map .ok) := by
  have hsize := peekFrame_some hpeek
  obtain ⟨buf', reads', hcut, hlen, heq⟩ := recv_until S h hle fun b rest hb hlt => by
    by_cases hheader : b.length < frameHeaderSize
    · exact .inl hheader
    · rw [← hb, peekFrame_append b rest (by omega)] at hpeek
      exact .inr ⟨t, total, hpeek, hlt⟩
  have hpeek' : peekFrame buf' = .ok (some (t, total)) := by
    rw [← hcut.joins, peekFrame_append buf' _ (by omega)] at hpeek
    exact hpeek
  have htake : buf'.take total = x.take total := by
    rw [← hcut.joins, List.take_append_of_le_length hlen]
  refine ⟨buf'.drop total, reads', hcut.drop hlen, ?_⟩
  rw [heq, recv_complete S _ hpeek' hlen, htake]

/-- A corrupt header is judged with at least its own eleven bytes in the buffer. -/
theorem recv_judged {x buf : Bytes} {reads : List Bytes} {e : Rx11Error} (h : Cut x buf reads)
    (hpeek : peekFrame x = .error e) :
    ∃ buf' reads', Cut x buf' reads' ∧ frameHeaderSize ≤ buf'.length ∧
      peekFrame buf' = .error e ∧
      recvFrameInner S buf (reads.map .ok) = recvFrameInner S buf' (reads'.map .ok) := by
  obtain ⟨buf', reads', hcut, hlen, heq⟩ := recv_until S h (peekFrame_error hpeek)
    fun b rest _ hlt => .inl hlt
  exact ⟨buf', reads', hcut, hlen, peekFrame_error_append (hcut.joins ▸ hpeek) hlen, heq⟩

/-- A magic that ends within the corrupt header is found under every cut. -/
theorem recv_near {x buf : Bytes} {reads : List Bytes} {e : Rx11Error} (h : Cut x buf reads)
    (hpeek : peekFrame x = .error e) (hscan : scanForMagic x ≠ 0)
    (hnear : scanForMagic x + 4 ≤ frameHeaderSize) (hbuf : scanForMagic x ≤ buf.length) :
    recvFrameInner S buf (reads.map .ok) =
      recvFrameInner S (buf.drop (scanForMagic x)) (reads.map .ok) := by
  induction reads generalizing buf with
  | nil =>
    obtain rfl : buf = x := by simpa using h.joins
    exact recv_resync S _ hpeek hscan
  | cons b reads ih =>
    by_cases hlen : frameHeaderSize ≤ buf.length
    · have hjoin := h.joins
      have hpeek' : peekFrame buf = .error e := peekFrame_error_append (hjoin ▸ hpeek) hlen
      have hscan' : scanForMagic buf = scanForMagic x := by
        rw [← hjoin] at hscan hnear ⊢
        exact scanForMagic_prefix hscan (by omega)
      rw [recv_resync S _ hpeek' (by omega), hscan']
    · have hb := h.nonempty b List.mem_cons_self
      have hdrop : (buf ++ b).drop (scanForMagic x) = buf.drop (scanForMagic x) ++ b :=
        List.drop_append_of_le_length hbuf
      rw [recv_read S (.inl (by omega)) hb,
        recv_read S (.inl (by rw [List.length_drop]; omega)) hb, ← hdrop]
      exact ih h.read (by rw [List.length_append]; omega)

/-- Every magic past the start begins another corrupt header. -/
def Hopeless (x : Bytes) : Prop :=
  ∀ m, 0 < m → MagicAt x m → ∃ e, peekFrame (x.drop m) = .error e

theorem Hopeless.drop {x : Bytes} (h : Hopeless x) (k : Nat) : Hopeless (x.drop k) := by
  intro m hm hmagic
  rw [List.drop_drop]
  exact h (k + m) (by omega) ((magicAt_drop x k m).mp hmagic)

/-- Where every magic is corrupt, the call fails under every cut. -/
theorem recv_hopeless {x buf : Bytes} {reads : List Bytes} {e : Rx11Error} (h : Cut x buf reads)
    (hpeek : peekFrame x = .error e) (hx : Hopeless x) :
    (recvFrameInner S buf (reads.map .ok)).1 = .error noRecovery := by
  induction hn : x.length using Nat.strongRecOn generalizing x buf reads e with
  | ind n ih =>
    obtain ⟨buf', reads', hcut, hlen, hpeek', heq⟩ := recv_judged S h hpeek
    rw [heq]
    by_cases hscan : scanForMagic buf' = 0
    · exact recv_lost S _ hpeek' hscan
    · have hx' : scanForMagic x = scanForMagic buf' := by
        rw [← hcut.joins]
        exact scanForMagic_append _ _ hscan
      have hmagic : MagicAt x (scanForMagic buf') := hx' ▸ magicAt_scanForMagic (by omega)
      obtain ⟨e', hpeek''⟩ := hx _ (Nat.pos_of_ne_zero hscan) hmagic
      have hle : scanForMagic buf' ≤ buf'.length := by
        have := (magicAt_scanForMagic hscan).le_length
        omega
      have hlt : (x.drop (scanForMagic buf')).length < n := by
        have := peekFrame_error hpeek
        rw [List.length_drop]
        unfold frameHeaderSize at this
        omega
      rw [recv_resync S _ hpeek' hscan]
      exact ih _ hlt (hcut.drop hle) hpeek'' (hx.drop _) rfl

/-! ## The error of a frame that does not decode -/

/-- The texts of `serde_json` are its own: they end with the position of the error. -/
def TextsApart (S : Serde) : Prop :=
  ∀ t payload msg, S.fromSlice t payload = .error msg → Rx11Error.protocol msg ≠ noRecovery

theorem protocol_ne_noRecovery {msg : String} (c : Char) (h : msg.toList.getLast? = some c)
    (hc : c ≠ 'e') : Rx11Error.protocol msg ≠ noRecovery := by
  intro heq
  have hmsg : msg = "Invalid frame and no recovery possible" := Rx11Error.protocol.inj heq
  rw [hmsg] at h
  exact hc (Option.some.inj h).symm

theorem tooShort_ne (label : String) (len min : Nat) : tooShort label len min ≠ noRecovery := by
  apply protocol_ne_noRecovery ')'
  · simp [String.toList_append, show toString ")" = ")" from rfl]
  · decide

theorem ok_ne {α : Type} (a : α) : (.ok a : Result α) ≠ .error noRecovery := by
  intro h
  cases h

theorem decodeConnSeqParts_ne (data : Bytes) (label : String) :
    decodeConnSeqParts data label ≠ .error noRecovery := by
  unfold decodeConnSeqParts
  split
  · exact fun h => tooShort_ne _ _ _ (Except.error.inj h)
  · exact ok_ne _

theorem decodeConnSeqLenParts_ne (data : Bytes) (label : String) :
    decodeConnSeqLenParts data label ≠ .error noRecovery := by
  unfold decodeConnSeqLenParts
  split
  · exact fun h => tooShort_ne _ _ _ (Except.error.inj h)
  · exact ok_ne _

/-- An error passes through a bind that only builds the result. -/
theorem bind_ok_ne {α β : Type} {r : Result α} {k : α → β} (h : r ≠ .error noRecovery) :
    (r >>= fun a => .ok (k a)) ≠ .error noRecovery := by
  cases r with
  | error e => exact fun heq => h (congrArg Except.error (Except.error.inj heq))
  | ok a => exact ok_ne _

theorem map_ne {α β : Type} {r : Result α} {f : α → β} (h : r ≠ .error noRecovery) :
    r.map f ≠ .error noRecovery := by
  cases r with
  | error e => exact fun heq => h (congrArg Except.error (Except.error.inj heq))
  | ok a => exact ok_ne _

theorem decodeChunkParts_ne (data : Bytes) (n pos : Nat) :
    decodeChunkParts data n pos ≠ .error noRecovery := by
  induction n generalizing pos with
  | zero => exact ok_ne _
  | succ n ih =>
    unfold decodeChunkParts
    split
    · exact fun h => protocol_ne_noRecovery 'r' rfl (by decide) (Except.error.inj h)
    · dsimp only
      split
      · exact fun h => protocol_ne_noRecovery 'a' rfl (by decide) (Except.error.inj h)
      · exact bind_ok_ne (ih _)

theorem decodeIncrementalParts_ne (data : Bytes) :
    decodeIncrementalParts data ≠ .error noRecovery := by
  unfold decodeIncrementalParts
  split
  · exact fun h => tooShort_ne _ _ _ (Except.error.inj h)
  · exact bind_ok_ne (decodeChunkParts_ne _ _ _)

theorem validateAuthFields_ne (authName : String) (authData : Bytes) :
    validateAuthFields authName authData ≠ .error noRecovery := by
  unfold validateAuthFields
  dsimp only
  split
  · refine fun h => protocol_ne_noRecovery ')' ?_ (by decide) (Except.error.inj h)
    simp [String.toList_append, show toString ")" = ")" from rfl]
  · split
    · refine fun h => protocol_ne_noRecovery ')' ?_ (by decide) (Except.error.inj h)
      simp [String.toList_append, show toString ")" = ")" from rfl]
    · exact ok_ne _

theorem decodeJson_ne {S : Serde} (hS : TextsApart S) (t : MessageType) (payload : Bytes) :
    decodeJson S t payload ≠ .error noRecovery := by
  unfold decodeJson
  split
  · rename_i msg hmsg
    exact fun h => hS t payload msg hmsg (Except.error.inj h)
  · rename_i m _
    have hvalidate : m.validate ≠ .error noRecovery := by
      cases m with
      | sessionCreate m => exact validateAuthFields_ne _ _
      | sessionAutoCreate m => exact validateAuthFields_ne _ _
      | _ => exact ok_ne _
    exact bind_ok_ne hvalidate

theorem decodeEmpty_ne (f : Frame) (name : String) (payload : Bytes) :
    decodeEmpty f name payload ≠ .error noRecovery := by
  unfold decodeEmpty
  split
  · exact ok_ne _
  · refine fun h => protocol_ne_noRecovery 'd' ?_ (by decide) (Except.error.inj h)
    simp [String.toList_append]

/-- No frame fails to decode with the error of the scan. -/
theorem decodePayloadOwned_ne {S : Serde} (hS : TextsApart S) (t : MessageType) (payload : Bytes) :
    decodePayloadOwned S t payload ≠ .error noRecovery := by
  rw [decodePayloadOwned_eq]
  cases t
  case streamData => exact map_ne (bind_ok_ne (decodeConnSeqParts_ne _ _))
  case compressedStreamData => exact map_ne (bind_ok_ne (decodeConnSeqLenParts_ne _ _))
  case incrementalStreamData => exact map_ne (bind_ok_ne (decodeIncrementalParts_ne _))
  case compressedIncrementalStreamData => exact map_ne (bind_ok_ne (decodeConnSeqLenParts_ne _ _))
  case heartbeat => exact decodeEmpty_ne _ _ _
  case heartbeatAck => exact decodeEmpty_ne _ _ _
  all_goals exact decodeJson_ne hS _ _

/-- With the whole stream in the buffer the scan gives up only where every magic is corrupt. -/
theorem hopeless_of_lost {S : Serde} (hS : TextsApart S) {x : Bytes} {e : Rx11Error}
    (hpeek : peekFrame x = .error e) (hlost : (recvFrameInner S x []).1 = .error noRecovery) :
    Hopeless x := by
  induction hn : x.length using Nat.strongRecOn generalizing x e with
  | ind n ih =>
    intro m hm hmagic
    obtain ⟨hpos, hle⟩ := scanForMagic_le hm hmagic
    rw [recv_resync S _ hpeek (by omega)] at hlost
    have hlen := hmagic.le_length
    have hdrop : (x.drop (scanForMagic x)).drop (m - scanForMagic x) = x.drop m := by
      rw [List.drop_drop]
      congr 1
      omega
    rcases peekFrame_cases (x.drop (scanForMagic x)) with hwait | ⟨t, total, hframe, htotal⟩ | ⟨e', he'⟩
    · rw [recv_end S hwait] at hlost
      exact absurd (Except.error.inj hlost) (by decide)
    · rw [recv_complete S _ hframe htotal] at hlost
      exact absurd hlost (decodePayloadOwned_ne hS _ _)
    · by_cases hq : m = scanForMagic x
      · exact ⟨e', hq ▸ he'⟩
      · have hrest := ih _ (by rw [List.length_drop]; omega) he' hlost rfl
        rw [← hdrop]
        exact hrest _ (by omega) ((magicAt_drop _ _ _).mpr (by
          rwa [show scanForMagic x + (m - scanForMagic x) = m by omega]))

/-! ## A whole stream -/

/-- The results up to the first error, which ends the connection. -/
def untilError : List (Result Frame) → List (Result Frame)
  | [] => []
  | .ok f :: rest => .ok f :: untilError rest
  | .error e :: _ => [.error e]

/-- What `n` successive calls of `recv_frame` receive. -/
def received (S : Serde) (n : Nat) (buf : Bytes) (reads : List Bytes) : List (Result Frame) :=
  untilError (recvFrames S n buf (reads.map .ok))

/-- The stream is received alike under all cuts, however many calls are made. -/
def SplitIndependent (S : Serde) (x : Bytes) : Prop :=
  ∀ n reads reads', Cut x [] reads → Cut x [] reads' → received S n [] reads = received S n [] reads'

theorem received_congr {n : Nat} {buf buf' : Bytes} {reads reads' : List Bytes}
    (h : recvFrameInner S buf (reads.map .ok) = recvFrameInner S buf' (reads'.map .ok)) :
    received S n buf reads = received S n buf' reads' := by
  cases n with
  | zero => rfl
  | succ n => rw [received, received, recvFrames, recvFrames, h]

theorem received_ok {n : Nat} {buf buf' : Bytes} {reads reads' : List Bytes} {f : Frame}
    (h : recvFrameInner S buf (reads.map .ok) = (.ok f, buf', reads'.map .ok)) :
    received S (n + 1) buf reads = .ok f :: received S n buf' reads' := by
  rw [received, recvFrames, h]
  rfl

theorem received_error {n : Nat} {buf : Bytes} {reads : List Bytes} {e : Rx11Error}
    (h : (recvFrameInner S buf (reads.map .ok)).1 = .error e) :
    received S (n + 1) buf reads = [.error e] := by
  rw [received, recvFrames]
  rcases hcall : recvFrameInner S buf (reads.map .ok) with ⟨result, rest⟩
  rw [hcall] at h
  obtain rfl : result = .error e := h
  rfl

theorem received_one (buf : Bytes) (reads : List Bytes) :
    received S 1 buf reads = [(recvFrameInner S buf (reads.map .ok)).1] := by
  rcases h : recvFrameInner S buf (reads.map .ok) with ⟨e | f, buf', reader⟩
  · exact received_error S (by rw [h])
  · rw [received, recvFrames, h]
    rfl

/-- Streams in which no corrupt header hides from the scan what comes after it. -/
inductive Steady (S : Serde) : Bytes → Prop where
  /-- the stream ends inside a header or a frame -/
  | ends {x : Bytes} (hwait : Waits x) : Steady S x
  /-- a frame that does not decode -/
  | rejected {x : Bytes} {t : MessageType} {total : Nat} {e : Rx11Error}
      (hpeek : peekFrame x = .ok (some (t, total))) (hle : total ≤ x.length)
      (hdec : decodePayloadOwned S t ((x.take total).drop frameHeaderSize) = .error e) : Steady S x
  | frame {x : Bytes} {t : MessageType} {total : Nat} {f : Frame}
      (hpeek : peekFrame x = .ok (some (t, total))) (hle : total ≤ x.length)
      (hdec : decodePayloadOwned S t ((x.take total).drop frameHeaderSize) = .ok f)
      (hrest : Steady S (x.drop total)) : Steady S x
  /-- a corrupt header, and the next magic ends within its eleven bytes -/
  | near {x : Bytes} {e : Rx11Error} (hpeek : peekFrame x = .error e) (hscan : scanForMagic x ≠ 0)
      (hnear : scanForMagic x + 4 ≤ frameHeaderSize)
      (hrest : Steady S (x.drop (scanForMagic x))) : Steady S x
  /-- a corrupt header, and nothing but corrupt headers after it -/
  | hopeless {x : Bytes} {e : Rx11Error} (hpeek : peekFrame x = .error e) (hno : Hopeless x) :
      Steady S x

/-- A steady stream is received as if it had arrived at once. -/
theorem Steady.received_eq {S : Serde} {x buf : Bytes} {reads : List Bytes} (hx : Steady S x)
    (h : Cut x buf reads) (n : Nat) : received S n buf reads = received S n x [] := by
  induction hx generalizing buf reads n with
  | ends hwait =>
    cases n with
    | zero => rfl
    | succ n =>
      rw [received_error S (recv_closed S h hwait), received_error S (recv_closed S (Cut.whole _) hwait)]
  | rejected hpeek hle hdec =>
    cases n with
    | zero => rfl
    | succ n =>
      obtain ⟨_, _, -, hcall⟩ := recv_frame S h hpeek hle
      obtain ⟨_, _, -, hwhole⟩ := recv_frame S (Cut.whole _) hpeek hle
      rw [hdec] at hcall hwhole
      rw [received_error S (congrArg Prod.fst hcall), received_error S (congrArg Prod.fst hwhole)]
  | frame hpeek hle hdec _ ih =>
    cases n with
    | zero => rfl
    | succ n =>
      obtain ⟨_, _, hcut, hcall⟩ := recv_frame S h hpeek hle
      obtain ⟨_, _, hcut', hwhole⟩ := recv_frame S (Cut.whole _) hpeek hle
      rw [hdec] at hcall hwhole
      rw [received_ok S hcall, received_ok S hwhole, ih hcut, ih hcut']
  | near hpeek hscan hnear _ ih =>
    have hlen := peekFrame_error hpeek
    obtain ⟨buf', reads', hcut, hbuf, heq⟩ := recv_until S h (k := scanForMagic _)
      (Nat.le_trans (Nat.le_trans (Nat.le_add_right _ 4) hnear) hlen)
      fun b rest _ hlt => .inl (by omega)
    have hskip := recv_near S hcut hpeek hscan hnear hbuf
    have hwhole := recv_near S (Cut.whole _) hpeek hscan hnear (by omega)
    rw [received_congr S (heq.trans hskip), received_congr S hwhole]
    exact ih (hcut.drop hbuf) n
  | hopeless hpeek hno =>
    cases n with
    | zero => rfl
    | succ n =>
      rw [received_error S (recv_hopeless S h hpeek hno),
        received_error S (recv_hopeless S (Cut.whole _) hpeek hno)]

theorem Cut.cons {x y : Bytes} {k : Nat} {reads : List Bytes} (h : Cut y [] reads)
    (hk : 0 < k) (hle : k ≤ x.length) (hy : y = x.drop k) : Cut x [] (x.take k :: reads) := by
  constructor
  · intro b hb
    rcases List.mem_cons.mp hb with rfl | hb
    · intro hnil
      have := congrArg List.length hnil
      rw [List.length_take, List.length_nil] at this
      omega
    · exact h.nonempty b hb
  · have hjoin : reads.flatten = x.drop k := by rw [← hy]; simpa using h.joins
    rw [List.flatten_cons, hjoin, List.nil_append, List.take_append_drop]

theorem take_ne_nil {x : Bytes} {k : Nat} (hk : 0 < k) (hle : k ≤ x.length) : x.take k ≠ [] := by
  intro hnil
  have := congrArg List.length hnil
  rw [List.length_take, List.length_nil] at this
  omega

/-- The first read of a stream is appended to an empty buffer. -/
theorem recv_first {x : Bytes} {k : Nat} (reads : List Bytes) (hk : 0 < k) (hle : k ≤ x.length) :
    recvFrameInner S [] ((x.take k :: reads).map .ok) =
      recvFrameInner S (x.take k) (reads.map .ok) :=
  recv_read S (.inl (by decide)) (take_ne_nil hk hle)

/-- Cut right after the first frame, two cuts of the rest follow the same call. -/
theorem SplitIndependent.rest_of_frame {S : Serde} {x : Bytes} (h : SplitIndependent S x)
    {t : MessageType} {total : Nat} {f : Frame} (hpeek : peekFrame x = .ok (some (t, total)))
    (hle : total ≤ x.length)
    (hdec : decodePayloadOwned S t ((x.take total).drop frameHeaderSize) = .ok f) :
    SplitIndependent S (x.drop total) := by
  have hsize := peekFrame_some hpeek
  have htotal : 0 < total := by
    unfold frameHeaderSize at hsize
    omega
  have hlen : (x.take total).length = total := List.length_take_of_le hle
  have hpeek' : peekFrame (x.take total) = .ok (some (t, total)) := by
    rw [← List.take_append_drop total x, peekFrame_append _ _ (by omega)] at hpeek
    exact hpeek
  have hfirst : ∀ reads, recvFrameInner S [] ((x.take total :: reads).map .ok) =
      (.ok f, [], reads.map .ok) := by
    intro reads
    rw [recv_first S reads htotal hle, recv_complete S _ hpeek' (by omega), List.take_take,
      Nat.min_self, hdec, List.drop_of_length_le (by omega)]
  intro n reads reads' hcut hcut'
  have hall := h (n + 1) _ _ (hcut.cons htotal hle rfl) (hcut'.cons htotal hle rfl)
  rw [received_ok S (hfirst reads), received_ok S (hfirst reads')] at hall
  exact (List.cons.inj hall).2

/-- One read that ends with a corrupt header, against all bytes at once: the magic after it must end
within the header, unless nothing after it can be received anyway. -/
theorem SplitIndependent.near {S : Serde} (hS : TextsApart S) {x : Bytes} (h : SplitIndependent S x)
    {e : Rx11Error} (hpeek : peekFrame x = .error e) (hno : ¬ Hopeless x) :
    scanForMagic x + 4 ≤ frameHeaderSize := by
  by_contra hfar
  apply hno
  apply hopeless_of_lost hS hpeek
  have hheader := peekFrame_error hpeek
  have hpos : 0 < frameHeaderSize := by decide
  have hlen : (x.take frameHeaderSize).length = frameHeaderSize := List.length_take_of_le hheader
  have hmiss : scanForMagic (x.take frameHeaderSize) = 0 := by
    by_contra hfound
    have hsame := scanForMagic_append _ (x.drop frameHeaderSize) hfound
    rw [List.take_append_drop] at hsame
    have := (magicAt_scanForMagic hfound).le_length
    omega
  have hpeek' : peekFrame (x.take frameHeaderSize) = .error e := by
    rw [← List.take_append_drop frameHeaderSize x] at hpeek
    exact peekFrame_error_append hpeek (by omega)
  have hwhole : Cut x [] [x] := by
    have hend : Cut (x.drop x.length) [] [] := ⟨by simp, by simp⟩
    have hall := hend.cons (show 0 < x.length by omega) (Nat.le_refl _) rfl
    rwa [List.take_length] at hall
  obtain ⟨reads, hcut⟩ : ∃ reads, Cut x [] (x.take frameHeaderSize :: reads) := by
    by_cases hrest : x.drop frameHeaderSize = []
    · exact ⟨[], Cut.cons ⟨by simp, by simp [hrest]⟩ hpos hheader rfl⟩
    · refine ⟨[x.drop frameHeaderSize], Cut.cons ⟨?_, by simp⟩ hpos hheader rfl⟩
      intro b hb
      rw [List.mem_singleton.mp hb]
      exact hrest
  have hall := h 1 _ _ hwhole hcut
  rw [received_one, received_one, recv_first S reads hpos hheader, recv_lost S _ hpeek' hmiss,
    recv_read S (.inl (by decide)) (hwhole.nonempty x List.mem_cons_self)] at hall
  exact (List.cons.inj hall).1

/-- Cut right before the magic, the first read is skipped. -/
theorem SplitIndependent.rest_of_near {S : Serde} {x : Bytes} (h : SplitIndependent S x)
    {e : Rx11Error} (hpeek : peekFrame x = .error e) (hscan : scanForMagic x ≠ 0)
    (hnear : scanForMagic x + 4 ≤ frameHeaderSize) :
    SplitIndependent S (x.drop (scanForMagic x)) := by
  have hpos := Nat.pos_of_ne_zero hscan
  have hle : scanForMagic x ≤ x.length := by
    have := (magicAt_scanForMagic hscan).le_length
    omega
  have hlen : (x.take (scanForMagic x)).length = scanForMagic x := List.length_take_of_le hle
  have hfirst : ∀ n reads, Cut (x.drop (scanForMagic x)) [] reads →
      received S n [] (x.take (scanForMagic x) :: reads) = received S n [] reads := by
    intro n reads hcut
    have hskip := recv_near S (hcut.cons hpos hle rfl).read hpeek hscan hnear (by simp [hlen])
    rw [List.nil_append, List.drop_of_length_le (by omega)] at hskip
    exact received_congr S ((recv_first S reads hpos hle).trans hskip)
  intro n reads reads' hcut hcut'
  have hall := h n _ _ (hcut.cons hpos hle rfl) (hcut'.cons hpos hle rfl)
  rw [hfirst n reads hcut, hfirst n reads' hcut'] at hall
  exact hall

/-- A stream that is received alike under all cuts is steady. -/
theorem steady_of_splitIndependent {S : Serde} (hS : TextsApart S) {x : Bytes}
    (h : SplitIndependent S x) : Steady S x := by
  induction hn : x.length using Nat.strongRecOn generalizing x with
  | ind n ih =>
    rcases peekFrame_cases x with hwait | ⟨t, total, hpeek, hle⟩ | ⟨e, hpeek⟩
    · exact .ends hwait
    · rcases hdec : decodePayloadOwned S t ((x.take total).drop frameHeaderSize) with e | f
      · exact .rejected hpeek hle hdec
      · have hsize := peekFrame_some hpeek
        have hlt : (x.drop total).length < n := by
          unfold frameHeaderSize at hsize
          rw [List.length_drop]
          omega
        exact .frame hpeek hle hdec (ih _ hlt (h.rest_of_frame hpeek hle hdec) rfl)
    · by_cases hno : Hopeless x
      · exact .hopeless hpeek hno
      · have hscan : scanForMagic x ≠ 0 := by
          intro h0
          exact hno fun m hm hmagic => absurd hmagic (scanForMagic_eq_zero.mp h0 m hm)
        have hnear := h.near hS hpeek hno
        have hlt : (x.drop (scanForMagic x)).length < n := by
          have := (magicAt_scanForMagic hscan).le_length
          rw [List.length_drop]
          omega
        exact .near hpeek hscan hnear (ih _ hlt (h.rest_of_near hpeek hscan hnear) rfl)

/-- **Which streams do not depend on the reads**: exactly those in which the scan after a corrupt header
either finds a magic that ends within this header's eleven bytes or could find nothing but corrupt
headers. -/
theorem splitIndependent_iff (S : Serde) (hS : TextsApart S) (x : Bytes) :
    SplitIndependent S x ↔ Steady S x := by
  constructor
  · exact steady_of_splitIndependent hS
  · intro hx n reads reads' hcut hcut'
    rw [hx.received_eq hcut, hx.received_eq hcut']

/-- A deserializer that finds no value. -/
def emptyInput : Serde where
  toVec := fun _ => .error "key must be a string"
  fromSlice := fun _ _ => .error "EOF while parsing a value at line 1 column 0"

theorem emptyInput_apart : TextsApart emptyInput := by
  intro t payload msg h
  obtain rfl := Except.error.inj h
  decide

/-- A heartbeat after `k` zero bytes. -/
def zerosThenHeartbeat (k : Nat) : Bytes := List.replicate k 0 ++ frameBytes .heartbeat []

theorem splitIndependent_iff_near : SplitIndependent emptyInput (zerosThenHeartbeat 7) := by
  have hscan : scanForMagic (zerosThenHeartbeat 7) = 7 := by decide
  refine (splitIndependent_iff emptyInput emptyInput_apart (zerosThenHeartbeat 7)).mpr ?_
  refine .near (e := .protocol "Invalid magic bytes") rfl (by omega) (by rw [hscan]; decide) ?_
  rw [hscan]
  have hpeek : peekFrame ((zerosThenHeartbeat 7).drop 7) = .ok (some (.heartbeat, 11)) := rfl
  have hdec : decodePayloadOwned emptyInput .heartbeat
      ((((zerosThenHeartbeat 7).drop 7).take 11).drop frameHeaderSize) = .ok .heartbeat := rfl
  exact .frame hpeek (by decide) hdec (.ends (.inl (by decide)))

/-- The heartbeat after eleven zero bytes is received in one read, and lost to a read that ends before
it. -/
theorem late_magic_lost : ¬ ∀ (S : Serde) (x : Bytes), SplitIndependent S x := by
  intro h
  have hzeros : peekFrame (List.replicate 11 0) = .error (.protocol "Invalid magic bytes") := rfl
  have hpeek : peekFrame (zerosThenHeartbeat 11) = .error (.protocol "Invalid magic bytes") := rfl
  have hscan : scanForMagic (zerosThenHeartbeat 11) = 11 := by decide
  have hframe : peekFrame (frameBytes .heartbeat []) = .ok (some (.heartbeat, 11)) := rfl
  have hall := h emptyInput (zerosThenHeartbeat 11) 1 [zerosThenHeartbeat 11]
    [List.replicate 11 0, frameBytes .heartbeat []] ⟨by decide, rfl⟩ ⟨by decide, rfl⟩
  have hwhole : (recvFrameInner emptyInput [] ([zerosThenHeartbeat 11].map .ok)).1 =
      .ok .heartbeat := by
    rw [recv_read _ (.inl (by decide)) (by decide), List.nil_append,
      recv_resync _ _ hpeek (by omega), hscan]
    exact congrArg Prod.fst (recv_complete emptyInput [] hframe (by decide))
  have hcut : (recvFrameInner emptyInput []
      ([List.replicate 11 0, frameBytes .heartbeat []].map .ok)).1 = .error noRecovery := by
    rw [recv_read _ (.inl (by decide)) (by decide), List.nil_append]
    exact recv_lost _ _ hzeros (by decide)
  rw [received_one, received_one, hwhole, hcut] at hall
  cases hall

end RemoteX11.Transport
