/-
  What the expander makes of the units of the re-encoder (`x11recode/mod.rs`).

  `expansion_of_stream`: with the lossless codec the expansions are the stream, with zeros behind the
  pixels of the shipped requests. `container_accepted_iff`: a shipped request is accepted exactly when
  neither side of its image is above the limit of the decoder.
-/
import RemoteX11.Recode.Machine

namespace RemoteX11.Recode

open RemoteX11.Lib

/-! ## What arrives -/

/-- `decode_raw_png` inverts `encode_raw_png`, up to the size it decodes at all. -/
def ImageCodecs.PngRoundTrips (K : ImageCodecs) : Prop :=
  ∀ p, p.length ≤ maxRecodeRequest → K.encodeRawPng p ≠ [] → K.decodeRawPng (K.encodeRawPng p) = some p

/-- The JPEG decoder returns the RGB pixels of an image of the size that was encoded, where the container
    admits that size. -/
def ImageCodecs.JpegDecodes (K : ImageCodecs) : Prop :=
  ∀ rgb width height quality blob, width ≤ 8192 → height ≤ 8192 → width * height * 4 ≤ maxRecodeRequest →
    rgb.length = width * height * 3 → K.encodeJpeg rgb width height quality = some blob →
    ∃ rgb', K.decodeJpeg blob = some (rgb', 3) ∧ rgb'.length = width * height * 3

/-- The expansions of the units are the pieces with the tails of the shipped requests zeroed. -/
theorem Emits.expanded {K : ImageCodecs} {spec : RecodeSpec} {pieces : List Piece} {out : List Bytes}
    {acc : Bytes} (h : Emits spec pieces out acc) (hcodec : spec.codec = .png) (hpng : K.PngRoundTrips)
    (hvalid : ∀ s, .shipped s ∈ pieces → s.Valid K spec) {b : Bytes} (hb : expandAll K out = some b) :
    b ++ acc = pieces.flatMap Piece.zeroTailed := by
  induction h generalizing b with
  | nil =>
    cases hb
    rfl
  | raw more _ ih =>
    rw [← List.append_assoc, ih (fun s hs => hvalid s (List.mem_append_left _ hs)) hb,
      List.flatMap_append]
    simp [Piece.zeroTailed]
  | flush _ ih =>
    obtain ⟨a, c, ha, hc, rfl⟩ := expandAll_snoc hb
    rw [expand_raw] at hc
    cases hc
    rw [List.append_nil]
    exact ih hvalid ha
  | ship s _ ih =>
    obtain ⟨a, c, ha, hc, rfl⟩ := expandAll_snoc hb
    have hs := (hvalid s (List.mem_append_right _ List.mem_cons_self)).expand_png hcodec hpng hc
    have hprev := ih (fun s' hs' => hvalid s' (List.mem_append_left _ hs')) ha
    rw [List.append_nil] at hprev
    rw [List.append_nil, List.flatMap_append, ← hprev, hs]
    simp [Piece.zeroTailed]

/-- What a run leaves: the pieces of the stream, with nothing queued. -/
theorem pushAll_pieces {K : ImageCodecs} {spec : RecodeSpec} {m : DownstreamReencoder}
    {chunks out : List Bytes}
    (hrun : (DownstreamReencoder.new spec).pushAll K chunks [] = some (m, out)) :
    ∃ pieces, Tracks K spec chunks.flatten m out pieces ∧ m.Settled K ∧ m.rawAcc = [] := by
  have h := pushAll_tracks (K := K) (Tracks.new) (by rfl) rfl hrun
  rwa [List.nil_append] at h

/-- **Reconstruction.** With the lossless codec, whatever the stream and however it is cut into chunks: if
    every push completes and every unit expands, the expansions followed by the held bytes are the stream,
    with zeros behind the pixels of the requests that were shipped; and so they depend on the stream only. -/
theorem expansion_of_stream (K : ImageCodecs) (spec : RecodeSpec) (hcodec : spec.codec = .png)
    (hpng : K.PngRoundTrips) (chunks : List Bytes) (m : DownstreamReencoder) (out : List Bytes)
    (b : Bytes) (hrun : (DownstreamReencoder.new spec).pushAll K chunks [] = some (m, out))
    (hb : expandAll K out = some b) :
    (∃ pieces : List Piece, chunks.flatten = pieces.flatMap Piece.original ++ m.buf ∧
      b ++ m.buf = pieces.flatMap Piece.zeroTailed ++ m.buf ∧
      out.filter isContainer = pieces.filterMap (Piece.container spec) ∧
      ∀ s, .shipped s ∈ pieces → Recognised s.req s.frame.bigEndian s.frame ∧
        s.req.length = s.frame.total) ∧
    ∀ chunks' m' out' b', chunks'.flatten = chunks.flatten →
      (DownstreamReencoder.new spec).pushAll K chunks' [] = some (m', out') →
      expandAll K out' = some b' → b' ++ m'.buf = b ++ m.buf := by
  -- every run ends with the stream as the far side has it
  have hresult : ∀ chunks m out b,
      (DownstreamReencoder.new spec).pushAll K chunks [] = some (m, out) → expandAll K out = some b →
      b ++ m.buf = zeroedStream K spec chunks.flatten := by
    intro chunks m out b hrun hb
    obtain ⟨pieces, htracks, hsettled, hacc⟩ := pushAll_pieces hrun
    have hexpanded := htracks.emits.expanded hcodec hpng htracks.valid hb
    rw [hacc, List.append_nil] at hexpanded
    have hrest := htracks.rest []
    rw [List.append_nil, List.append_nil] at hrest
    rw [hrest, hexpanded, hsettled]
  refine ⟨?_, ?_⟩
  · obtain ⟨pieces, htracks, -, hacc⟩ := pushAll_pieces hrun
    have hexpanded := htracks.emits.expanded hcodec hpng htracks.valid hb
    rw [hacc, List.append_nil] at hexpanded
    refine ⟨pieces, htracks.original, by rw [hexpanded], htracks.emits.containers, ?_⟩
    intro s hs
    exact ⟨(htracks.valid s hs).recognised, (htracks.valid s hs).whole⟩
  · intro chunks' m' out' b' hsame hrun' hb'
    rw [hresult chunks' m' out' b' hrun' hb', hresult chunks m out b hrun hb, hsame]

/-- An encoder that knows one picture and declines nothing. -/
def sampleCodecs : ImageCodecs where
  encodeRawPng p := if p = List.replicate 64 9 then [7] else 8 :: p
  decodeRawPng b :=
    match b with
    | 7 :: _ => some (List.replicate 64 9)
    | _ :: p => some p
    | [] => none
  encodeJpeg _ _ _ _ := none
  decodeJpeg _ := none

theorem sampleCodecs_png : sampleCodecs.PngRoundTrips := by
  intro p _ _
  show sampleCodecs.decodeRawPng (if p = List.replicate 64 9 then [7] else 8 :: p) = some p
  split
  · rename_i hp
    rw [hp]
    rfl
  · rfl

/-- A setup request and an image of four by four pixels, with four bytes behind them. -/
def sampleStream : Bytes :=
  plainSetup ++
    ([72, 2, 23, 0, 0, 0, 0, 0, 0, 0, 0, 0, 4, 0, 4, 0, 0, 0, 0, 0, 0, 24, 0, 0] ++
      List.replicate 64 9 ++ [1, 2, 3, 4])

/-- The stream cut in the middle of its setup request, and two bytes of the next request. -/
def sampleChunks : List Bytes := [sampleStream.take 5, sampleStream.drop 5 ++ [1, 2]]

/-- The image is shipped, and the four bytes behind its pixels arrive as zeros. -/
theorem expansion_of_stream_sample : ∃ b m out,
    (DownstreamReencoder.new ⟨.png, 0, 0⟩).pushAll sampleCodecs sampleChunks [] = some (m, out) ∧
    b ++ m.buf = sampleStream.take 100 ++ [0, 0, 0, 0, 1, 2] ∧
    ∃ pieces : List Piece, sampleChunks.flatten = pieces.flatMap Piece.original ++ m.buf ∧
      b ++ m.buf = pieces.flatMap Piece.zeroTailed ++ m.buf := by
  have hrun : ∃ r ∈ (DownstreamReencoder.new ⟨.png, 0, 0⟩).pushAll sampleCodecs sampleChunks [],
      ∃ b ∈ expandAll sampleCodecs r.2,
        b ++ r.1.buf = sampleStream.take 100 ++ [0, 0, 0, 0, 1, 2] := by decide +kernel
  obtain ⟨⟨m, out⟩, hpushed, b, hexpanded, hresult⟩ := hrun
  obtain ⟨⟨pieces, horiginal, hzero, -, -⟩, -⟩ := expansion_of_stream sampleCodecs ⟨.png, 0, 0⟩ rfl
    sampleCodecs_png sampleChunks m out b hpushed hexpanded
  exact ⟨b, m, out, hpushed, hresult, pieces, horiginal, hzero⟩

/-! ## What the expander admits -/

/-- A unit is a raw one, or that of a shipped request. -/
theorem Emits.unit {spec : RecodeSpec} {pieces : List Piece} {out : List Bytes} {acc : Bytes}
    (h : Emits spec pieces out acc) {u : Bytes} (hu : u ∈ out) :
    (∃ b, u = 0 :: b) ∨ ∃ s, .shipped s ∈ pieces ∧ u = s.unit spec := by
  induction h with
  | nil => cases hu
  | raw b _ ih =>
    refine (ih hu).imp_right ?_
    rintro ⟨s, hs, rfl⟩
    exact ⟨s, List.mem_append_left _ hs, rfl⟩
  | flush _ ih =>
    rcases List.mem_append.mp hu with hu | hu
    · exact ih hu
    · exact .inl ⟨_, List.mem_singleton.mp hu⟩
  | ship s _ ih =>
    rcases List.mem_append.mp hu with hu | hu
    · refine (ih hu).imp_right ?_
      rintro ⟨s', hs', rfl⟩
      exact ⟨s', List.mem_append_left _ hs', rfl⟩
    · exact .inr ⟨s, List.mem_append_right _ List.mem_cons_self, List.mem_singleton.mp hu⟩

theorem Emits.mem_of_shipped {spec : RecodeSpec} {pieces : List Piece} {out : List Bytes} {acc : Bytes}
    (h : Emits spec pieces out acc) {s : Shipped} (hs : .shipped s ∈ pieces) : s.unit spec ∈ out := by
  have hmem : s.unit spec ∈ out.filter isContainer := by
    rw [h.containers]
    exact List.mem_filterMap.mpr ⟨.shipped s, hs, rfl⟩
  exact (List.mem_filter.mp hmem).1

/-- The decoder finds the announced number of pixel bytes in what the encoder made. -/
theorem Shipped.Valid.pixels {K : ImageCodecs} {spec : RecodeSpec} {s : Shipped} (h : s.Valid K spec)
    (hpng : K.PngRoundTrips) (hjpeg : K.JpegDecodes) (hadmitted : s.Admitted) :
    ∃ pixels, containerPixels K (s.decoded spec) = some pixels ∧ pixels.length = s.frame.dataLen := by
  have hencoded := h.encoded
  unfold encodeBlob at hencoded
  unfold containerPixels Shipped.decoded
  cases hcodec : spec.codec with
  | png =>
    simp only [hcodec, Option.some.injEq] at hencoded ⊢
    refine ⟨s.frame.pixels s.req, ?_, h.pixels_length⟩
    rw [← hencoded]
    exact hpng _ h.pixels_le (hencoded ▸ h.nonempty)
  | jpeg =>
    simp only [hcodec] at hencoded ⊢
    have hrgb := unpackRgb_length s.frame.bigEndian (s.frame.width * s.frame.height)
      (s.frame.pixels s.req) (by rw [h.pixels_length, h.recognised.dataLen])
    have hsize : s.frame.width * s.frame.height * 4 ≤ maxRecodeRequest := by
      rw [← h.recognised.dataLen, ← h.pixels_length]
      exact h.pixels_le
    obtain ⟨rgb, hdecoded, hlen⟩ := hjpeg _ _ _ _ _ hadmitted.1 hadmitted.2 hsize hrgb hencoded
    have hpacked := packRgb_length s.frame.bigEndian (s.frame.width * s.frame.height) rgb hlen
    refine ⟨packRgb s.frame.bigEndian rgb, ?_, by rw [hpacked, h.recognised.dataLen]⟩
    rw [hdecoded]
    simp only [ne_eq, not_true_eq_false, if_false, hlen, Nat.lt_irrefl]
    rw [List.take_of_length_le (Nat.le_of_eq hlen)]

/-- A container expands when the decoder admits the image. -/
theorem Shipped.Valid.expands_iff {K : ImageCodecs} {spec : RecodeSpec} {s : Shipped}
    (h : s.Valid K spec) (hpng : K.PngRoundTrips) (hjpeg : K.JpegDecodes) :
    (∃ r, expand K (s.unit spec) = some r) ↔ s.Admitted := by
  constructor
  · rintro ⟨r, hr⟩
    exact (h.expand_eq_some.mp hr).1
  · intro hadmitted
    obtain ⟨pixels, hpixels, hlen⟩ := h.pixels hpng hjpeg hadmitted
    exact ⟨_, h.expand_eq_some.mpr ⟨hadmitted, pixels, hpixels, hlen, rfl⟩⟩

/-- What a container expands to has the length and the prefix of the request. -/
theorem Shipped.Valid.expansion {K : ImageCodecs} {spec : RecodeSpec} {s : Shipped}
    (h : s.Valid K spec) {r : Bytes} (hr : expand K (s.unit spec) = some r) :
    r.length = s.req.length ∧ r.take s.frame.dataOff = s.req.take s.frame.dataOff := by
  obtain ⟨-, pixels, -, hlen, rfl⟩ := h.expand_eq_some.mp hr
  have hfits := h.recognised.fits
  have hstart : (s.req.take s.frame.dataOff).length = s.frame.dataOff := by
    rw [List.length_take, h.whole]
    omega
  rw [h.rebuild hlen, List.append_assoc]
  constructor
  · rw [List.length_append, List.length_append, List.length_replicate, hstart, hlen, h.whole]
    omega
  · exact List.take_left' hstart

/-- **Containers at the expander.** Whatever the stream, its chunks, the codec and the settings: each
    container unit that was emitted is that of a shipped request, and it expands to a request of the
    original length and prefix exactly when neither side of the image is above 8192. All units expand
    when that holds of every shipped request. -/
theorem container_accepted_iff (K : ImageCodecs) (spec : RecodeSpec) (hpng : K.PngRoundTrips)
    (hjpeg : K.JpegDecodes) (chunks : List Bytes) (m : DownstreamReencoder) (out : List Bytes)
    (hrun : (DownstreamReencoder.new spec).pushAll K chunks [] = some (m, out)) :
    ∃ pieces : List Piece, chunks.flatten = pieces.flatMap Piece.original ++ m.buf ∧
      out.filter isContainer = pieces.filterMap (Piece.container spec) ∧
      (∀ s, .shipped s ∈ pieces →
        ((∃ r, expand K (s.unit spec) = some r ∧ r.length = s.req.length ∧
          r.take s.frame.dataOff = s.req.take s.frame.dataOff) ↔
        s.frame.width ≤ 8192 ∧ s.frame.height ≤ 8192)) ∧
      ((∀ u ∈ out, ∃ r, expand K u = some r) ↔
        ∀ s, .shipped s ∈ pieces → s.frame.width ≤ 8192 ∧ s.frame.height ≤ 8192) := by
  obtain ⟨pieces, htracks, -, -⟩ := pushAll_pieces hrun
  refine ⟨pieces, htracks.original, htracks.emits.containers, ?_, ?_⟩
  · intro s hs
    have hvalid := htracks.valid s hs
    rw [show (s.frame.width ≤ 8192 ∧ s.frame.height ≤ 8192) ↔ s.Admitted from Iff.rfl,
      ← hvalid.expands_iff hpng hjpeg]
    constructor
    · rintro ⟨r, hr, -⟩
      exact ⟨r, hr⟩
    · rintro ⟨r, hr⟩
      exact ⟨r, hr, hvalid.expansion hr⟩
  · constructor
    · intro hall s hs
      exact ((htracks.valid s hs).expands_iff hpng hjpeg).mp (hall _ (htracks.emits.mem_of_shipped hs))
    · intro hadmitted u hu
      rcases htracks.emits.unit hu with ⟨b, rfl⟩ | ⟨s, hs, rfl⟩
      · exact ⟨b, expand_raw K b⟩
      · exact ((htracks.valid s hs).expands_iff hpng hjpeg).mpr (hadmitted s hs)

/-- The image is shipped, and its container expands. -/
theorem container_accepted_iff_sample : ∃ m out, ∃ pieces : List Piece,
    (DownstreamReencoder.new ⟨.png, 0, 0⟩).pushAll sampleCodecs sampleChunks [] = some (m, out) ∧
    (out.filter isContainer).length = 1 ∧
    out.filter isContainer = pieces.filterMap (Piece.container ⟨.png, 0, 0⟩) ∧
    ∀ s, .shipped s ∈ pieces →
      ((∃ r, expand sampleCodecs (s.unit ⟨.png, 0, 0⟩) = some r ∧ r.length = s.req.length ∧
        r.take s.frame.dataOff = s.req.take s.frame.dataOff) ↔
      s.frame.width ≤ 8192 ∧ s.frame.height ≤ 8192) := by
  have hrun : ∃ r ∈ (DownstreamReencoder.new ⟨.png, 0, 0⟩).pushAll sampleCodecs sampleChunks [],
      (r.2.filter isContainer).length = 1 := by decide +kernel
  obtain ⟨⟨m, out⟩, hpushed, hone⟩ := hrun
  obtain ⟨pieces, -, hunits, hiff, -⟩ := container_accepted_iff sampleCodecs ⟨.png, 0, 0⟩
    sampleCodecs_png (fun _ _ _ _ _ _ _ _ _ hnone => by cases hnone) sampleChunks m out hpushed
  exact ⟨m, out, pieces, hpushed, hone, hunits, hiff⟩

/-- The header of a request with an image of 8193 by 1 pixels. -/
def wideHeader : Bytes := [72, 2, 7, 32, 0, 0, 0, 0, 0, 0, 0, 0, 1, 32, 1, 0, 0, 0, 0, 0, 0, 24, 0, 0]

def wideFrame : PutImageFrame := ⟨24, 8193, 1, 32772, 32796, false⟩

/-- An encoder that makes one byte of a black line. -/
def blackCodecs : ImageCodecs where
  encodeRawPng p := if p = List.replicate 32772 0 then [7] else []
  decodeRawPng _ := some (List.replicate 32772 0)
  encodeJpeg _ _ _ _ := none
  decodeJpeg _ := none

theorem blackCodecs_png : blackCodecs.PngRoundTrips := by
  intro p _ hp
  have hblack : p = List.replicate 32772 0 := by
    by_contra hne
    exact hp (if_neg hne)
  rw [hblack]
  rfl

theorem wide_length {line : Bytes} (h : line.length = 32772) : (wideHeader ++ line).length = 32796 := by
  rw [List.length_append, h]
  rfl

theorem wide_requestTotal {line : Bytes} (h : line.length = 32772) :
    requestTotal (wideHeader ++ line) false = some (wideHeader ++ line).length := by
  have hfield : u16At (wideHeader ++ line) 2 false = 8199 := rfl
  unfold requestTotal
  simp only [wide_length h, hfield]
  rw [if_neg (by omega), if_neg (by omega)]

theorem wide_classified {line : Bytes} (h : line.length = 32772) :
    classifyPutImage (wideHeader ++ line) false = some (some wideFrame) := by
  have hextent : putImageExtent (wideHeader ++ line) false = some (24, 32796) := by
    have hfield : u16At (wideHeader ++ line) 2 false = 8199 := rfl
    unfold putImageExtent
    simp only [wide_length h, hfield]
    rw [if_neg (by omega), if_neg (by decide)]
  have hwidth : u16At (wideHeader ++ line) (24 - 12) false = 8193 := rfl
  have hheight : u16At (wideHeader ++ line) (24 - 10) false = 1 := rfl
  have hop : (wideHeader ++ line).getD 0 0 = 72 ∧ (wideHeader ++ line).getD 1 0 = 2 := ⟨rfl, rfl⟩
  have hdepth : (wideHeader ++ line).getD (24 - 4) 0 = 0 ∧
      (wideHeader ++ line).getD (24 - 3) 0 = 24 := ⟨rfl, rfl⟩
  unfold classifyPutImage
  simp only [hop.1, hop.2, hextent, hdepth.1, hdepth.2, hwidth, hheight, wide_length h]
  decide

theorem wide_pixels {line : Bytes} (h : line.length = 32772) :
    wideFrame.pixels (wideHeader ++ line) = line := by
  unfold PutImageFrame.pixels
  rw [List.drop_left' (show wideHeader.length = wideFrame.dataOff from rfl)]
  exact List.take_of_length_le (Nat.le_of_eq h)

theorem wide_shipped {line : Bytes} (h : line.length = 32772)
    (hblob : blackCodecs.encodeRawPng line = [7]) :
    shipping blackCodecs ⟨.png, 0, 0⟩ (wideHeader ++ line) false =
      some (some ⟨wideHeader ++ line, wideFrame, [7]⟩) := by
  have hship : shippedBlob blackCodecs ⟨.png, 0, 0⟩ wideFrame (wideHeader ++ line) = some [7] := by
    unfold shippedBlob encodeBlob
    rw [wide_pixels h, hblob]
    rfl
  unfold shipping
  rw [wide_classified h]
  simp only [Option.map_some, Option.bind_some, hship]

/-- A black line of 8193 pixels is shipped, and the expander refuses its container. -/
theorem wide_image_refused : ¬ ∀ (K : ImageCodecs) (spec : RecodeSpec), K.PngRoundTrips →
    K.JpegDecodes → ∀ chunks m out,
    (DownstreamReencoder.new spec).pushAll K chunks [] = some (m, out) →
    ∀ u ∈ out, ∃ r, expand K u = some r := by
  intro h
  obtain ⟨line, hline⟩ : ∃ line : Bytes, line = List.replicate 32772 0 := ⟨_, rfl⟩
  have hlen : line.length = 32772 := by rw [hline, List.length_replicate]
  have hblob : blackCodecs.encodeRawPng line = [7] := if_pos hline
  have htotal := wide_requestTotal hlen
  have hrange : ¬ ((wideHeader ++ line).length < 4 ∨ (wideHeader ++ line).length > maxRecodeRequest) := by
    rw [wide_length hlen]
    decide
  have hsetup := DownstreamReencoder.push_setup (K := blackCodecs) ⟨.png, 0, 0⟩ plainSetup_head
    (by simp [plainSetup]) plainSetup_len []
  have hrun := (DownstreamReencoder.pushAll_cons hsetup [wideHeader ++ line]).trans
    (DownstreamReencoder.pushAll_cons (DownstreamReencoder.push_ships htotal hrange
      (wide_shipped hlen hblob) _) [])
  obtain ⟨r, hr⟩ := h blackCodecs ⟨.png, 0, 0⟩ blackCodecs_png (fun _ _ _ _ _ _ _ _ _ hnone => by cases hnone)
    _ _ _ hrun _ (List.mem_cons_of_mem _ List.mem_cons_self)
  have hvalid : Shipped.Valid blackCodecs ⟨.png, 0, 0⟩ ⟨wideHeader ++ line, wideFrame, [7]⟩ :=
    (shipping_valid (by rw [List.take_length]; exact wide_shipped hlen hblob) htotal (by omega)
      (Nat.le_refl _)).2
  have hwidth : wideFrame.width ≤ 8192 := (hvalid.expand_eq_some.mp hr).1.1
  exact absurd hwidth (by decide)

end RemoteX11.Recode
