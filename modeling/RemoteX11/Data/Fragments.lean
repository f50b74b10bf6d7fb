/-
  The fragments of the cross-frame stream (`dataplane.rs`, `zstd_stream`).

  A compressed frame carries one fragment of its sender's stream. `History` ties an encoder to the
  fragments it has returned, in order: `build_frame` appends the fragment of the frame it returns
  (`buildFrame_history`), and a decoder that was fed a prefix of a history accepts the next fragment
  (`History.decodes`). `apply_inbound` feeds the decoder the fragment of the frame it is given
  (`applyInbound_feeds`).
-/
import RemoteX11.Data.Chain

namespace RemoteX11.Data

open RemoteX11.Lib RemoteX11.Protocol DataPlane

/-- The compressed payload of a data frame and the length it announces. -/
def fragmentOf : Frame → Option (Nat × Bytes)
  | .binary (.compressedStreamData m) => some (m.originalLen, m.data)
  | .binary (.compressedIncrementalStreamData m) => some (m.originalLen, m.data)
  | _ => none

def fragmentsOf (frames : List Frame) : List (Nat × Bytes) := frames.filterMap fragmentOf

@[simp] theorem fragmentsOf_nil : fragmentsOf [] = [] := rfl

@[simp] theorem fragmentsOf_append (l m : List Frame) :
    fragmentsOf (l ++ m) = fragmentsOf l ++ fragmentsOf m := List.filterMap_append

@[simp] theorem fragmentsOf_singleton (f : Frame) : fragmentsOf [f] = (fragmentOf f).toList := by
  unfold fragmentsOf
  rcases h : fragmentOf f with _ | x <;> simp [h]

theorem fragmentsOf_cons (f : Frame) (l : List Frame) :
    fragmentsOf (f :: l) = (fragmentOf f).toList ++ fragmentsOf l := by
  rw [← List.singleton_append, fragmentsOf_append, fragmentsOf_singleton]

namespace Codecs

variable (K : Codecs)

/-- The fragments of a list of inputs, with the lengths announced for them. -/
def fragments (inputs : List Bytes) : List (Nat × Bytes) :=
  (K.encodeAll K.newEncoder inputs).1.map fun x => (x.1.length, x.2)

/-- The encoder has consumed some payloads, none of them empty, and returned these fragments. -/
def History (enc : K.Encoder) (l : List (Nat × Bytes)) : Prop :=
  ∃ inputs, [] ∉ inputs ∧ enc = (K.encodeAll K.newEncoder inputs).2 ∧ l = K.fragments inputs

/-- The decoder after a list of fragments. -/
def feed (dec : K.Decoder) (l : List (Nat × Bytes)) : K.Decoder :=
  l.foldl (fun dec x => (K.streamDecompress dec x.2 x.1).2) dec

variable {K}

theorem history_new : K.History K.newEncoder [] := ⟨[], by simp, rfl, rfl⟩

/-- One more payload, whether or not the encoder returned a fragment for it. -/
theorem History.snoc {enc enc' : K.Encoder} {l : List (Nat × Bytes)} (h : K.History enc l)
    {data : Bytes} (hdata : data ≠ []) {r : Option Bytes}
    (hc : K.streamCompress enc data = (r, enc')) :
    K.History enc' (l ++ (r.map fun z => (data.length, z)).toList) := by
  obtain ⟨inputs, hne, henc, rfl⟩ := h
  have hsnoc := K.encodeAll_snoc K.newEncoder inputs data
  rw [← henc, hc] at hsnoc
  refine ⟨inputs ++ [data], by simp [hne, hdata.symm], ?_, ?_⟩
  · rw [hsnoc]
    rcases r with _ | z <;> rfl
  · unfold fragments
    rw [hsnoc]
    rcases r with _ | z <;> simp

theorem feed_append (dec : K.Decoder) (l m : List (Nat × Bytes)) :
    K.feed dec (l ++ m) = K.feed (K.feed dec l) m := List.foldl_append

theorem decodeAll_eq_feed (dec : K.Decoder) (l : List (Bytes × Bytes)) :
    K.decodeAll dec l = K.feed dec (l.map fun x => (x.1.length, x.2)) := by
  induction l generalizing dec with
  | nil => rfl
  | cons x l ih =>
    obtain ⟨data, fragment⟩ := x
    exact ih _

/-- The inputs of an encoder, where it accepted them, are among what it was given. -/
theorem mem_encodeAll {enc : K.Encoder} {inputs : List Bytes} {x : Bytes × Bytes}
    (h : x ∈ (K.encodeAll enc inputs).1) : x.1 ∈ inputs := by
  induction inputs generalizing enc with
  | nil => simp [encodeAll] at h
  | cons data inputs ih =>
    unfold encodeAll at h
    split at h
    · rcases List.mem_cons.mp h with rfl | h
      · exact List.mem_cons_self
      · exact List.mem_cons_of_mem _ (ih h)
    · exact List.mem_cons_of_mem _ (ih h)

/-- **A decoder in step accepts the next fragment.** -/
theorem History.decodes (hK : K.RoundTrips) {enc : K.Encoder} {l rest : List (Nat × Bytes)}
    {n : Nat} {z : Bytes} (h : K.History enc (l ++ (n, z) :: rest)) :
    n ≠ 0 ∧ ∃ data, (K.streamDecompress (K.feed K.newDecoder l) z n).1 = some data := by
  obtain ⟨inputs, hne, -, hl⟩ := h
  obtain ⟨pre, post, hsplit, hpre, hpost⟩ := List.map_eq_append_iff.mp hl.symm
  obtain ⟨x, tail, rfl, hx, -⟩ := List.map_eq_cons_iff.mp hpost
  obtain ⟨rfl, rfl⟩ := Prod.mk.inj hx
  have hmem : x.1 ∈ inputs := by
    apply mem_encodeAll
    rw [hsplit]
    simp
  refine ⟨?_, x.1, ?_⟩
  · intro h0
    exact hne (List.eq_nil_of_length_eq_zero h0 ▸ hmem)
  · have hall := hK.stream inputs
    rw [hsplit, decodes_append, decodeAll_eq_feed, hpre] at hall
    exact hall.2.1

/-- Codecs that store their input and number the fragments of a stream, so that a decoder rejects a
    fragment it is not due. -/
def counting : Codecs where
  Encoder := UInt8
  Decoder := UInt8
  newEncoder := 0
  newDecoder := 0
  streamCompress := fun n data => (some (n :: data), n + 1)
  streamDecompress := fun n compressed originalLen =>
    match compressed with
    | [] => (none, n)
    | m :: data => if m = n ∧ data.length = originalLen then (some data, n + 1) else (none, n)
  zstdCompress := some
  zstdDecompress := fun compressed _ => some compressed
  lz4Compress := id
  lz4Decompress := some
  zlibCompress := some
  zlibDecompress := some

theorem counting_roundTrips : counting.RoundTrips where
  stream := by
    suffices h : ∀ (inputs : List Bytes) (n : UInt8),
        counting.Decodes n (counting.encodeAll n inputs).1 from fun inputs => h inputs 0
    intro inputs
    induction inputs with
    | nil => exact fun _ => trivial
    | cons data inputs ih =>
      intro n
      have hdec : counting.streamDecompress n (n :: data) data.length = (some data, n + 1) := by
        simp [counting]
      refine ⟨congrArg Prod.fst hdec, ?_⟩
      rw [hdec]
      exact ih (n + 1)
  zstd := by
    intro data c h
    exact h.symm
  lz4 := fun _ => rfl
  zlib := by
    intro data c h
    exact h.symm

end Codecs

variable {K : Codecs} {dp : DataPlane}

/-! ## The sender -/

theorem compress_history (hz : dp.compression = some .zstdStream) {enc : K.Encoder}
    {l : List (Nat × Bytes)} (h : K.History enc l) {data : Bytes} (hdata : data ≠ []) :
    K.History (dp.compress K enc data).2
      (l ++ ((dp.compress K enc data).1.map fun z => (data.length, z)).toList) := by
  simp only [compress, hz]
  split
  · simpa using h
  · exact h.snoc hdata rfl

theorem plainOrCompressed_history (hz : dp.compression = some .zstdStream) {enc : K.Encoder}
    {l : List (Nat × Bytes)} (h : K.History enc l) (c : ConnectionId) (seq : UInt32) {data : Bytes}
    (hdata : data ≠ []) :
    K.History (dp.plainOrCompressed K enc c seq data).2
      (l ++ (fragmentOf (dp.plainOrCompressed K enc c seq data).1).toList) := by
  have hc := compress_history hz h hdata
  unfold plainOrCompressed
  rcases heq : dp.compress K enc data with ⟨_ | z, enc'⟩
  · rw [heq] at hc
    exact hc
  · rw [heq] at hc
    exact hc

theorem wrapDiff_history (hz : dp.compression = some .zstdStream) {enc : K.Encoder}
    {l : List (Nat × Bytes)} (h : K.History enc l) (diff : IncrementalStreamDataMessage)
    (c : ConnectionId) (seq : UInt32) :
    K.History (dp.wrapDiff K enc diff c seq).2
      (l ++ (fragmentOf (dp.wrapDiff K enc diff c seq).1).toList) := by
  unfold wrapDiff
  split
  · split
    · rename_i encoded henc
      have hc := compress_history hz h (encodePayload_ne_nil henc)
      rcases heq : dp.compress K enc encoded with ⟨_ | z, enc'⟩
      · rw [heq] at hc
        exact hc
      · rw [heq] at hc
        exact hc
    · simpa [fragmentOf] using h
  · simpa [fragmentOf] using h

/-- **What `build_frame` adds to the stream.** The fragment of the frame it returns, and nothing when
    the frame has none. -/
theorem buildFrame_history (hz : dp.compression = some .zstdStream) {s : Sender K}
    {l : List (Nat × Bytes)} (h : K.History s.encoder l) (c : ConnectionId) (seq : UInt32)
    {data : Bytes} (hdata : data ≠ []) :
    K.History (dp.buildFrame K s c seq data).2.encoder
      (l ++ (fragmentOf (dp.buildFrame K s c seq data).1).toList) := by
  unfold buildFrame
  split
  · rename_i cache _ _
    rcases cache.computeIncremental c seq data with _ | diff
    · exact plainOrCompressed_history hz h c seq hdata
    · exact wrapDiff_history hz h diff c seq
  · exact plainOrCompressed_history hz h c seq hdata

/-! ## The receiver -/

/-- A diff that is compressed too. -/
def isCompressedDiff : Frame → Bool
  | .binary (.compressedIncrementalStreamData _) => true
  | _ => false

/-- `build_frame` makes diffs only where they were negotiated. -/
theorem buildFrame_diff {s : Sender K} {c : ConnectionId} {seq : UInt32} {data : Bytes}
    (h : isCompressedDiff (dp.buildFrame K s c seq data).1 = true) : dp.mayDiffSend = true := by
  have hplain : isCompressedDiff (dp.plainOrCompressed K s.encoder c seq data).1 = false := by
    unfold plainOrCompressed
    split <;> rfl
  unfold buildFrame at h
  split at h
  · assumption
  · rw [hplain] at h
    contradiction

theorem applyDiff_decoder (r : Receiver K) (msg : IncrementalStreamDataMessage) :
    (applyDiff K r msg).2.decoder = r.decoder ∧ (applyDiff K r msg).1 ≠ .streamBroken := by
  unfold applyDiff
  split
  · exact ⟨rfl, by simp⟩
  · exact ⟨rfl, by simp⟩

/-- A frame without a fragment does not reach the decoder. -/
theorem applyInbound_plain (dp : DataPlane) (r : Receiver K) {frame : Frame}
    (hf : fragmentOf frame = none) : (dp.applyInbound K r frame).2.decoder = r.decoder ∧
      (dp.applyInbound K r frame).1 ≠ .streamBroken := by
  unfold applyInbound
  split
  · exact ⟨keep_decoder _ _ _ _ _, by simp⟩
  · simp [fragmentOf] at hf
  · split
    · exact applyDiff_decoder _ _
    · exact ⟨rfl, by simp⟩
  · simp [fragmentOf] at hf
  · exact ⟨rfl, by simp⟩

/-- **What `apply_inbound` feeds the decoder.** The fragment of the frame; the stream is broken exactly
    when the decoder rejects it. -/
theorem applyInbound_feeds (hz : dp.compression = some .zstdStream) (r : Receiver K) {frame : Frame}
    {n : Nat} {z : Bytes} (hf : fragmentOf frame = some (n, z)) (hn : n ≠ 0)
    (hdiff : isCompressedDiff frame = true → dp.mayDiffReceive = true) :
    (dp.applyInbound K r frame).2.decoder = (K.streamDecompress r.decoder z n).2 ∧
      ((dp.applyInbound K r frame).1 = .streamBroken ↔
        (K.streamDecompress r.decoder z n).1 = none) := by
  unfold applyInbound
  split
  · simp [fragmentOf] at hf
  · rename_i m
    obtain ⟨rfl, rfl⟩ := Prod.mk.inj (Option.some.inj hf)
    rw [if_neg (by simp [hz])]
    simp only [decompressPayload, hz, if_neg hn]
    rcases K.streamDecompress r.decoder m.data m.originalLen with ⟨_ | out, dec⟩
    · exact ⟨rfl, by simp⟩
    · exact ⟨keep_decoder _ _ _ _ _, by simp⟩
  · simp [fragmentOf] at hf
  · rename_i m
    obtain ⟨rfl, rfl⟩ := Prod.mk.inj (Option.some.inj hf)
    rw [if_neg (by simp [hdiff rfl]), if_neg (by simp [hz])]
    simp only [decompressPayload, hz, if_neg hn]
    rcases K.streamDecompress r.decoder m.data m.originalLen with ⟨_ | out, dec⟩
    · exact ⟨rfl, by simp⟩
    · -- the decoder has its fragment, whatever becomes of the diff in it
      simp only
      split
      · rename_i msg _
        obtain ⟨hdec, hout⟩ := applyDiff_decoder ⟨dec, r.cache, _⟩ msg
        exact ⟨hdec, by simp [hout]⟩
      · exact ⟨rfl, by simp⟩
  · exact absurd hf (by simp_all [fragmentOf])

end RemoteX11.Data
