/-
  The format gate: a RIFF/WAVE header is taken off the recorder's bytes (`audio/mod.rs` of the core).

  `WaveHeader stream stop` says what the gate looks for: the stream begins with a RIFF/WAVE header whose data
  chunk header ends at `stop`. `IsAudio stream audio` is the purpose of the gate, stated of the whole stream.
  `heard_isAudio_iff` says of a split into feeds when the gate meets it. The length is checked before the
  chunks are walked, so the header is found only by a feed that ends behind it and before 64 KiB.
-/
import RemoteX11.Lib.Blocks
import RemoteX11.Lib.Bytes

namespace RemoteX11.Audio

open RemoteX11.Lib

/-- `MAX_HEADER_BYTES`. -/
def maxHeaderBytes : Nat := 64 * 1024

/-- `RIFF`, `WAVE` and `data`. -/
def riffId : Bytes := [0x52, 0x49, 0x46, 0x46]
def waveId : Bytes := [0x57, 0x41, 0x56, 0x45]
def dataId : Bytes := [0x64, 0x61, 0x74, 0x61]

structure FormatGate where
  /-- `prefix`: what is buffered while the gate sniffs -/
  sniffed : Bytes
  /-- the offset at which the audio starts in it -/
  decided : Option Nat
  deriving DecidableEq, Repr

/-- The id of the chunk at `off`. -/
def chunkId (bytes : Bytes) (off : Nat) : Bytes := (bytes.drop off).take 4

/-- The size that the chunk at `off` declares. -/
def chunkSize (bytes : Bytes) (off : Nat) : Nat := leNat ((bytes.drop (off + 4)).take 4)

/-- `b"RIFF"` at 0 and `b"WAVE"` at 8. -/
def isWave (bytes : Bytes) : Bool := bytes.take 4 == riffId && (bytes.drop 8).take 4 == waveId

/-- The walk over the chunks from `off`: where the header of the data chunk ends. -/
def walk (bytes : Bytes) (off : Nat) : Option Nat :=
  if off + 8 ≤ bytes.length then
    if chunkId bytes off = dataId then some (off + 8)
    else walk bytes (off + (8 + chunkSize bytes off + chunkSize bytes off % 2))
  else none
termination_by bytes.length - off

namespace FormatGate

def new : FormatGate := ⟨[], none⟩

/-- `feed`. -/
def feed (g : FormatGate) (more : Bytes) : Bytes × FormatGate :=
  if g.decided.isSome then (more, g)
  else
    let sniffed := g.sniffed ++ more
    if 12 ≤ sniffed.length ∧ ¬ isWave sniffed then (sniffed, ⟨[], some 0⟩)
    else if maxHeaderBytes ≤ sniffed.length then (sniffed, ⟨[], some 0⟩)
    else if sniffed.length < 12 then ([], ⟨sniffed, none⟩)
    else
      match walk sniffed 12 with
      | some start => (sniffed.drop start, ⟨[], some start⟩)
      | none => ([], ⟨sniffed, none⟩)

/-- The outputs of one feed after another, and the gate after them. -/
def feedAll (g : FormatGate) : List Bytes → Bytes × FormatGate
  | [] => ([], g)
  | more :: rest => ((g.feed more).1 ++ ((g.feed more).2.feedAll rest).1, ((g.feed more).2.feedAll rest).2)

/-- What the gate has let through or still buffers. -/
def heard (g : FormatGate) (feeds : List Bytes) : Bytes := (g.feedAll feeds).1 ++ (g.feedAll feeds).2.sniffed

end FormatGate

/-! ## What the gate is for -/

/-- The chunk walk from `off` reaches a data chunk, whose header ends at `stop`. -/
inductive DataAt (stream : Bytes) : Nat → Nat → Prop
  | here {off : Nat} (hlen : off + 8 ≤ stream.length) (hid : chunkId stream off = dataId) :
    DataAt stream off (off + 8)
  | next {off stop : Nat} (hlen : off + 8 ≤ stream.length) (hid : chunkId stream off ≠ dataId)
    (hnext : DataAt stream (off + (8 + chunkSize stream off + chunkSize stream off % 2)) stop) :
    DataAt stream off stop

/-- The stream begins with a RIFF/WAVE header whose data chunk header ends at `stop`. -/
structure WaveHeader (stream : Bytes) (stop : Nat) : Prop where
  wave : isWave stream
  data : DataAt stream 12 stop

/-- The audio of a stream: what follows the header, where the stream begins with one that is not too long,
    and the whole stream otherwise. -/
def IsAudio (stream audio : Bytes) : Prop :=
  (∀ stop ≤ maxHeaderBytes, WaveHeader stream stop → audio = stream.drop stop) ∧
    ((∀ stop ≤ maxHeaderBytes, ¬ WaveHeader stream stop) → audio = stream)

/-! ## The walk -/

variable {bytes more : Bytes} {off stop stop' : Nat}

theorem DataAt.walk_eq (h : DataAt bytes off stop) : walk bytes off = some stop := by
  induction h with
  | here hlen hid => rw [walk, if_pos hlen, if_pos hid]
  | next hlen hid _ ih => rw [walk, if_pos hlen, if_neg hid, ih]

theorem dataAt_of_walk (h : walk bytes off = some stop) : DataAt bytes off stop := by
  induction off using walk.induct bytes with
  | case1 off hlen hid =>
    rw [walk, if_pos hlen, if_pos hid] at h
    exact Option.some.inj h ▸ .here hlen hid
  | case2 off hlen hid ih =>
    rw [walk, if_pos hlen, if_neg hid] at h
    exact .next hlen hid (ih h)
  | case3 off hlen =>
    rw [walk, if_neg hlen] at h
    cases h

theorem DataAt.unique (h : DataAt bytes off stop) (h' : DataAt bytes off stop') : stop = stop' :=
  Option.some.inj (h.walk_eq.symm.trans h'.walk_eq)

theorem DataAt.bounds (h : DataAt bytes off stop) : off + 8 ≤ stop ∧ stop ≤ bytes.length := by
  induction h with
  | here hlen => exact ⟨Nat.le_refl _, hlen⟩
  | next hlen _ _ ih => omega

/-- The header of a chunk that has arrived does not change. -/
theorem chunk_append (hlen : off + 8 ≤ bytes.length) (more : Bytes) :
    chunkId (bytes ++ more) off = chunkId bytes off ∧ chunkSize (bytes ++ more) off = chunkSize bytes off := by
  have hfield : ∀ i, i + 4 ≤ bytes.length → ((bytes ++ more).drop i).take 4 = (bytes.drop i).take 4 := by
    intro i hi
    rw [List.drop_append_of_le_length (by omega),
      List.take_append_of_le_length (by rw [List.length_drop]; omega)]
  exact ⟨hfield off (by omega), congrArg leNat (hfield (off + 4) (by omega))⟩

theorem DataAt.append (h : DataAt bytes off stop) (more : Bytes) : DataAt (bytes ++ more) off stop := by
  induction h with
  | here hlen hid =>
    exact .here (by rw [List.length_append]; omega) ((chunk_append hlen _).1.trans hid)
  | next hlen hid _ ih =>
    obtain ⟨heqid, heqsize⟩ := chunk_append hlen more
    refine .next (by rw [List.length_append]; omega) (heqid ▸ hid) ?_
    rw [heqsize]
    exact ih

/-- A data chunk whose header has arrived was there to be found. -/
theorem DataAt.of_append (h : DataAt (bytes ++ more) off stop) (hstop : stop ≤ bytes.length) :
    DataAt bytes off stop := by
  induction h with
  | here _ hid => exact .here hstop ((chunk_append hstop more).1.symm.trans hid)
  | @next off stop _ hid hnext ih =>
    have hlen : off + 8 ≤ bytes.length := by
      have := hnext.bounds
      omega
    obtain ⟨heqid, heqsize⟩ := chunk_append hlen more
    rw [heqsize] at ih
    exact .next hlen (heqid ▸ hid) (ih hstop)

theorem isWave_append (hlen : 12 ≤ bytes.length) (more : Bytes) : isWave (bytes ++ more) = isWave bytes := by
  unfold isWave
  rw [List.take_append_of_le_length (by omega), List.drop_append_of_le_length (by omega),
    List.take_append_of_le_length (by rw [List.length_drop]; omega)]

theorem WaveHeader.bounds (h : WaveHeader bytes stop) : 20 ≤ stop ∧ stop ≤ bytes.length := h.data.bounds

theorem WaveHeader.append (h : WaveHeader bytes stop) (more : Bytes) : WaveHeader (bytes ++ more) stop := by
  have hbounds := h.bounds
  exact ⟨by rw [isWave_append (by omega)]; exact h.wave, h.data.append more⟩

theorem WaveHeader.of_append (h : WaveHeader (bytes ++ more) stop) (hstop : stop ≤ bytes.length) :
    WaveHeader bytes stop := by
  have hbounds := h.bounds
  exact ⟨by rw [← isWave_append (by omega) more]; exact h.wave, h.data.of_append hstop⟩

/-! ## One feed after another -/

namespace FormatGate

/-- While the gate sniffs, nothing that it has buffered ends a header. -/
structure Sniffing (bytes : Bytes) : Prop where
  short : bytes.length < maxHeaderBytes
  wave : 12 ≤ bytes.length → isWave bytes
  none : ∀ stop, ¬ WaveHeader bytes stop

theorem sniffing_nil : Sniffing [] where
  short := by decide
  wave := by decide
  none := by
    intro stop h
    have hbounds := h.bounds
    rw [List.length_nil] at hbounds
    omega

/-- A gate that has decided lets everything through. -/
theorem feedAll_decided {g : FormatGate} (hg : g.decided.isSome) (feeds : List Bytes) :
    g.feedAll feeds = (feeds.flatten, g) := by
  induction feeds with
  | nil => rfl
  | cons more rest ih =>
    have hfeed : g.feed more = (more, g) := if_pos hg
    rw [feedAll, hfeed, ih, List.flatten_cons]

theorem heard_decided {g : FormatGate} {out : Bytes} {start : Nat} {more : Bytes} {rest : List Bytes}
    (hfeed : g.feed more = (out, ⟨[], some start⟩)) : g.heard (more :: rest) = out ++ rest.flatten := by
  unfold heard
  rw [feedAll, hfeed, feedAll_decided rfl, List.append_nil]

theorem heard_undecided {g g' : FormatGate} {more : Bytes} {rest : List Bytes}
    (hfeed : g.feed more = ([], g')) : g.heard (more :: rest) = g'.heard rest := by
  unfold heard
  rw [feedAll, hfeed]
  rfl

/-- What one feed of a sniffing gate does. -/
inductive Fed (bytes : Bytes) : Bytes × FormatGate → Prop
  /-- no header, as far as anything may follow -/
  | raw (hnone : ∀ rest stop, ¬ WaveHeader (bytes ++ rest) stop) : Fed bytes (bytes, ⟨[], some 0⟩)
  /-- too much for a header -/
  | long (hlong : maxHeaderBytes ≤ bytes.length) : Fed bytes (bytes, ⟨[], some 0⟩)
  | header (start : Nat) (hheader : WaveHeader bytes start) (hshort : bytes.length < maxHeaderBytes) :
    Fed bytes (bytes.drop start, ⟨[], some start⟩)
  | sniffs (hsniffing : Sniffing bytes) : Fed bytes ([], ⟨bytes, none⟩)

theorem feed_inv (bytes more : Bytes) : Fed (bytes ++ more) (feed ⟨bytes, none⟩ more) := by
  unfold feed
  rw [if_neg (by simp)]
  by_cases hraw : 12 ≤ (bytes ++ more).length ∧ ¬ isWave (bytes ++ more)
  · rw [if_pos hraw]
    refine .raw fun rest stop h => hraw.2 ?_
    rw [← isWave_append hraw.1 rest]
    exact h.wave
  rw [if_neg hraw]
  by_cases hlong : maxHeaderBytes ≤ (bytes ++ more).length
  · rw [if_pos hlong]
    exact .long hlong
  rw [if_neg hlong]
  have hwave : 12 ≤ (bytes ++ more).length → isWave (bytes ++ more) := by
    intro hlen
    by_contra hnot
    exact hraw ⟨hlen, hnot⟩
  by_cases hlen : (bytes ++ more).length < 12
  · rw [if_pos hlen]
    refine .sniffs ⟨by omega, hwave, fun stop h => ?_⟩
    have hbounds := h.bounds
    omega
  rw [if_neg hlen]
  cases hwalk : walk (bytes ++ more) 12 with
  | some start => exact .header start ⟨hwave (by omega), dataAt_of_walk hwalk⟩ (by omega)
  | none =>
    refine .sniffs ⟨by omega, hwave, fun stop h => ?_⟩
    rw [h.data.walk_eq] at hwalk
    cases hwalk

/-- A feed ends behind the header and before 64 KiB. -/
def FoundAt (bytes : Bytes) (feeds : List Bytes) (stop : Nat) : Prop :=
  ∃ first, first <+: feeds ∧ stop ≤ (bytes ++ first.flatten).length ∧
    (bytes ++ first.flatten).length < maxHeaderBytes

theorem FoundAt.cons {rest : List Bytes} (h : FoundAt (bytes ++ more) rest stop) :
    FoundAt bytes (more :: rest) stop := by
  obtain ⟨first, hfirst, hbounds⟩ := h
  refine ⟨more :: first, List.cons_prefix_cons.mpr ⟨rfl, hfirst⟩, ?_⟩
  rwa [List.flatten_cons, ← List.append_assoc]

/-- Where the gate sniffs on, a header is not found by what has been fed already. -/
theorem FoundAt.of_cons {rest : List Bytes} (hsniffing : Sniffing bytes)
    (hheader : WaveHeader (bytes ++ (more :: rest).flatten) stop) (h : FoundAt bytes (more :: rest) stop) :
    FoundAt (bytes ++ more) rest stop := by
  obtain ⟨first, hfirst, hstop, hshort⟩ := h
  rcases first with _ | ⟨a, first⟩
  · rw [List.flatten_nil, List.append_nil] at hstop
    exact absurd (hheader.of_append hstop) (hsniffing.none stop)
  · obtain ⟨rfl, hrest⟩ := List.cons_prefix_cons.mp hfirst
    rw [List.flatten_cons, ← List.append_assoc] at hstop hshort
    exact ⟨first, hrest, hstop, hshort⟩

/-- **What a sniffing gate makes of the rest of the stream.** Everything is let through and no feed found a
    header, or a feed found one and what follows it is let through. -/
theorem heard_sniffing {bytes : Bytes} (hsniffing : Sniffing bytes) (feeds : List Bytes) :
    (heard ⟨bytes, none⟩ feeds = bytes ++ feeds.flatten ∧
        ∀ stop, WaveHeader (bytes ++ feeds.flatten) stop → ¬ FoundAt bytes feeds stop) ∨
      ∃ stop, WaveHeader (bytes ++ feeds.flatten) stop ∧ FoundAt bytes feeds stop ∧
        heard ⟨bytes, none⟩ feeds = (bytes ++ feeds.flatten).drop stop := by
  induction feeds generalizing bytes with
  | nil =>
    refine .inl ⟨by simp [heard, feedAll], fun stop h _ => ?_⟩
    rw [List.flatten_nil, List.append_nil] at h
    exact hsniffing.none stop h
  | cons more rest ih =>
    have hflat : bytes ++ (more :: rest).flatten = (bytes ++ more) ++ rest.flatten := by
      rw [List.flatten_cons, List.append_assoc]
    have hfed := feed_inv bytes more
    generalize hout : feed ⟨bytes, none⟩ more = out at hfed
    cases hfed with
    | raw hnone =>
      refine .inl ⟨(heard_decided hout).trans hflat.symm, fun stop h _ => ?_⟩
      exact hnone rest.flatten stop (hflat ▸ h)
    | long hlong =>
      refine .inl ⟨(heard_decided hout).trans hflat.symm, fun stop h hfound => ?_⟩
      obtain ⟨first, -, -, hshort⟩ := hfound.of_cons hsniffing h
      rw [List.length_append] at hshort
      omega
    | header start hheader hshort =>
      refine .inr ⟨start, hflat ▸ hheader.append _, ⟨[more], ⟨rest, rfl⟩, ?_, ?_⟩, ?_⟩
      · simpa using hheader.bounds.2
      · simpa using hshort
      · rw [heard_decided hout, hflat, List.drop_append_of_le_length hheader.bounds.2]
    | sniffs hnext =>
      rw [heard_undecided hout, hflat]
      rcases ih hnext with ⟨hheard, hmissed⟩ | ⟨stop, hheader, hfound, hheard⟩
      · refine .inl ⟨hheard, fun stop h hfound => hmissed stop h ?_⟩
        exact hfound.of_cons hsniffing (hflat ▸ h)
      · exact .inr ⟨stop, hheader, hfound.cons, hheard⟩

theorem heard_of_found {feeds : List Bytes} (hheader : WaveHeader feeds.flatten stop)
    (hfound : FoundAt [] feeds stop) : new.heard feeds = feeds.flatten.drop stop := by
  rcases heard_sniffing sniffing_nil feeds with ⟨-, hmissed⟩ | ⟨start, hheader', -, hheard⟩
  · exact absurd hfound (hmissed stop hheader)
  · obtain rfl := hheader.data.unique hheader'.data
    exact hheard

theorem heard_of_missed {feeds : List Bytes}
    (hmissed : ∀ stop, WaveHeader feeds.flatten stop → ¬ FoundAt [] feeds stop) :
    new.heard feeds = feeds.flatten := by
  rcases heard_sniffing sniffing_nil feeds with ⟨hheard, -⟩ | ⟨start, hheader, hfound, -⟩
  · exact hheard
  · exact absurd hfound (hmissed start hheader)

/-- A header that no feed finds is heard. -/
theorem not_isAudio_of_missed {feeds : List Bytes} (hheader : WaveHeader feeds.flatten stop)
    (hstop : stop ≤ maxHeaderBytes) (hmissed : ¬ FoundAt [] feeds stop) :
    ¬ IsAudio feeds.flatten (new.heard feeds) := by
  have hheard : new.heard feeds = feeds.flatten := by
    refine heard_of_missed fun stop' hheader' => ?_
    obtain rfl := hheader.data.unique hheader'.data
    exact hmissed
  intro haudio
  have heq := congrArg List.length ((haudio.1 stop hstop hheader).symm.trans hheard)
  have hbounds := hheader.bounds
  rw [List.length_drop] at heq
  omega

/-- What is heard right: every header of at most 64 KiB is found. -/
theorem isAudio_of_found {feeds : List Bytes}
    (hfound : ∀ stop ≤ maxHeaderBytes, WaveHeader feeds.flatten stop → FoundAt [] feeds stop) :
    IsAudio feeds.flatten (new.heard feeds) := by
  constructor
  · intro stop hstop hheader
    exact heard_of_found hheader (hfound stop hstop hheader)
  · intro hnone
    refine heard_of_missed fun stop hheader => ?_
    rintro ⟨first, -, hstop, hshort⟩
    exact hnone stop (by omega) hheader

/-- **Exactly the splits that are heard right**: where the stream begins with a header of at most 64 KiB, some
    feed ends behind it and before 64 KiB. -/
theorem heard_isAudio_iff (feeds : List Bytes) :
    IsAudio feeds.flatten (new.heard feeds) ↔
      ∀ stop ≤ maxHeaderBytes, WaveHeader feeds.flatten stop →
        ∃ first, first <+: feeds ∧ stop ≤ first.flatten.length ∧ first.flatten.length < maxHeaderBytes := by
  constructor
  · intro haudio stop hstop hheader
    by_contra hmissed
    exact not_isAudio_of_missed hheader hstop hmissed haudio
  · exact isAudio_of_found

/-- A header of 64988 bytes: a `LIST` chunk of 64960 bytes and the header of the data. -/
def listHead : Bytes := riffId ++ [0, 0, 0, 0] ++ waveId ++ [0x4c, 0x49, 0x53, 0x54] ++ [0xc0, 0xfd, 0, 0]
def listHeader : Bytes := listHead ++ List.replicate 64960 0 ++ (dataId ++ [0, 0, 0, 0])

theorem listHeader_length : listHeader.length = 64988 := by
  unfold listHeader
  simp only [List.length_append, List.length_replicate]
  decide

theorem listHeader_header (pcm : Bytes) : WaveHeader (listHeader ++ pcm) 64988 := by
  have hsplit : listHeader ++ pcm = listHead ++ (List.replicate 64960 0 ++ (dataId ++ [0, 0, 0, 0]) ++ pcm) := by
    unfold listHeader
    simp only [List.append_assoc]
  obtain ⟨hid, hsize⟩ := chunk_append (show 12 + 8 ≤ listHead.length by decide)
    (List.replicate 64960 0 ++ (dataId ++ [0, 0, 0, 0]) ++ pcm)
  rw [← hsplit] at hid hsize
  have hlen : (listHeader ++ pcm).length = 64988 + pcm.length := by
    rw [List.length_append, listHeader_length]
  have hwave : isWave (listHeader ++ pcm) := by
    rw [hsplit, isWave_append (by decide)]
    decide
  refine ⟨hwave, .next (by omega) (by rw [hid]; decide) ?_⟩
  have hnext : 12 + (8 + chunkSize (listHeader ++ pcm) 12 + chunkSize (listHeader ++ pcm) 12 % 2) = 64980 := by
    rw [hsize]
    decide
  rw [hnext]
  refine .here (by omega) ?_
  have hbefore : (listHead ++ List.replicate 64960 0).length = 64980 := by
    rw [List.length_append, List.length_replicate]
    decide
  unfold chunkId listHeader
  rw [List.append_assoc (listHead ++ _), List.drop_left' hbefore]
  rfl

/-- Reads of 8 KiB, as the capture makes them, end at the multiples of 8 KiB. -/
theorem flatten_length_of_reads {n : Nat} {feeds : List Bytes} (hreads : ∀ read ∈ feeds, read.length = n) :
    feeds.flatten.length = n * feeds.length := by
  induction feeds with
  | nil => simp
  | cons read rest ih =>
    have hhead := hreads read List.mem_cons_self
    have htail := ih fun read hmem => hreads read (List.mem_cons_of_mem _ hmem)
    rw [List.flatten_cons, List.length_append, htail, hhead, List.length_cons, Nat.mul_succ, Nat.add_comm]

theorem not_found_of_reads {feeds : List Bytes} (hreads : ∀ read ∈ feeds, read.length = 8192) :
    ¬ FoundAt [] feeds 64988 := by
  rintro ⟨first, hfirst, hstop, hshort⟩
  have hlen := flatten_length_of_reads fun read hmem => hreads read (hfirst.subset hmem)
  unfold maxHeaderBytes at hshort
  rw [List.nil_append, hlen] at hstop hshort
  omega

/-- A recording with this header, and the reads of 8 KiB that it arrives in. -/
def listRecording : Bytes := listHeader ++ List.replicate 548 0
def listReads : List Bytes := blocks 8192 listRecording

/-- One recording in two splits: with its header alone in the first feed, and in reads of 8 KiB. The second
    time the header is heard. -/
theorem header_heard_in_reads :
    [listHeader, List.replicate 548 0].flatten = listReads.flatten ∧
      IsAudio [listHeader, List.replicate 548 0].flatten (new.heard [listHeader, List.replicate 548 0]) ∧
      ¬ IsAudio listReads.flatten (new.heard listReads) := by
  have hlen : listRecording.length = 65536 := by
    unfold listRecording
    rw [List.length_append, listHeader_length, List.length_replicate]
  have hsplit : [listHeader, List.replicate 548 0].flatten = listRecording := by
    rw [List.flatten_cons, List.flatten_singleton]
    rfl
  have hreads : listReads.flatten = listRecording := by
    unfold listReads
    rw [flatten_blocks_eq_take, hlen, List.take_of_length_le (by omega)]
  have hheader : WaveHeader listRecording 64988 := listHeader_header _
  refine ⟨hsplit.trans hreads.symm, isAudio_of_found fun stop _ hheader' => ?_,
    not_isAudio_of_missed (hreads.symm ▸ hheader) (by decide) 
      (not_found_of_reads fun read => length_of_mem_blocks)⟩
  rw [hsplit] at hheader'
  obtain rfl := hheader'.data.unique hheader.data
  refine ⟨[listHeader], ⟨_, rfl⟩, ?_, ?_⟩ <;>
    rw [List.nil_append, List.flatten_singleton, listHeader_length]
  decide

end FormatGate

end RemoteX11.Audio
