/-
  The re-encoder of the downstream request stream and its expander (`x11recode/mod.rs`).

  `push` takes a chunk and appends units to `out`; its `none` is a panic. The image codecs are the parameter
  `ImageCodecs`. `expand` returns `none` for a unit that cannot be expanded; a slice out of range, which
  also ends the connection, is counted with it.

  What the machine has consumed is a list of pieces: bytes that stay raw, and requests shipped in a
  container. `push_tracks` is the invariant: the pieces and the held buffer are the stream, the units are
  the pieces with the raw ones coalesced, and what the far side will have is a function of the stream alone.
-/
import RemoteX11.Recode.Frame

namespace RemoteX11.Recode

open RemoteX11.Lib

/-! ## The machine -/

/-- The `png`, `jpeg_encoder` and `zune_jpeg` crates, as the module uses them. -/
structure ImageCodecs where
  /-- `encode_raw_png`; empty when the encoder declines -/
  encodeRawPng : Bytes → Bytes
  decodeRawPng : Bytes → Option Bytes
  /-- from RGB bytes, width, height and quality -/
  encodeJpeg : Bytes → Nat → Nat → UInt8 → Option Bytes
  /-- to the decoded bytes and the number of components -/
  decodeJpeg : Bytes → Option (Bytes × Nat)

structure RecodeSpec where
  codec : Codec
  quality : UInt8
  minBytes : Nat
  deriving DecidableEq, Repr

inductive Stage where
  | setup
  | requests
  deriving DecidableEq, Repr

structure DownstreamReencoder where
  spec : RecodeSpec
  buf : Bytes
  rawAcc : Bytes
  stage : Stage
  bigEndian : Bool
  disabled : Bool
  deriving DecidableEq, Repr

/-- The pixel block of a recognised request. -/
def PutImageFrame.pixels (f : PutImageFrame) (req : Bytes) : Bytes := (req.drop f.dataOff).take f.dataLen

/-- The blob an image is encoded to; `none` when the encoder fails. -/
def encodeBlob (K : ImageCodecs) (spec : RecodeSpec) (f : PutImageFrame) (req : Bytes) : Option Bytes :=
  match spec.codec with
  | .png => some (K.encodeRawPng (f.pixels req))
  | .jpeg => K.encodeJpeg (unpackRgb f.bigEndian (f.pixels req)) f.width f.height spec.quality

/-- The blob a recognised request is shipped with: there is one, and it is a win. -/
def shippedBlob (K : ImageCodecs) (spec : RecodeSpec) (f : PutImageFrame) (req : Bytes) : Option Bytes :=
  if f.dataLen < spec.minBytes then none
  else
    match encodeBlob K spec f req with
    | none => none
    | some blob =>
      if blob.isEmpty then none
      else if blob.length + (1 + 32 + f.dataOff) ≥ f.dataLen then none
      else some blob

/-- A request shipped in a container. -/
structure Shipped where
  req : Bytes
  frame : PutImageFrame
  blob : Bytes
  deriving DecidableEq, Repr

/-- What becomes of a complete request: `some none` leaves it raw. -/
def shipping (K : ImageCodecs) (spec : RecodeSpec) (req : Bytes) (bigEndian : Bool) :
    Option (Option Shipped) :=
  (classifyPutImage req bigEndian).map fun candidate => candidate.bind fun f =>
    (shippedBlob K spec f req).map fun blob => ⟨req, f, blob⟩

/-- The unit of a shipped request. -/
def Shipped.unit (s : Shipped) (spec : RecodeSpec) : Bytes :=
  1 :: encodeContainer spec.codec spec.quality s.frame s.req s.blob

/-- The length of the request at the head of the buffer, once its header is complete. -/
def requestTotal (buf : Bytes) (bigEndian : Bool) : Option Nat :=
  if buf.length < 4 then none
  else
    let lenField := u16At buf 2 bigEndian
    if lenField = 0 then
      if buf.length < 8 then none else some (u32At buf 4 bigEndian * 4)
    else some (lenField * 4)

namespace DownstreamReencoder

def new (spec : RecodeSpec) : DownstreamReencoder := ⟨spec, [], [], .setup, false, false⟩

def flushRaw (m : DownstreamReencoder) (out : List Bytes) : DownstreamReencoder × List Bytes :=
  if m.rawAcc.isEmpty then (m, out) else ({ m with rawAcc := [] }, out ++ [0 :: m.rawAcc])

/-- Disabled, the machine passes on what it holds. -/
def passRaw (m : DownstreamReencoder) : DownstreamReencoder :=
  { m with disabled := true, rawAcc := m.rawAcc ++ m.buf, buf := [] }

/-- The first `n` bytes held stay raw. -/
def keepRaw (m : DownstreamReencoder) (n : Nat) : DownstreamReencoder :=
  { m with rawAcc := m.rawAcc ++ m.buf.take n, buf := m.buf.drop n }

/-- `consume_requests`. -/
def consumeRequests (K : ImageCodecs) (m : DownstreamReencoder) (out : List Bytes) :
    Option (DownstreamReencoder × List Bytes) :=
  if m.disabled then some (m.passRaw, out)
  else
    match requestTotal m.buf m.bigEndian with
    | none => some (m, out)
    | some total =>
      if _hrange : total < 4 ∨ total > maxRecodeRequest then some (m.passRaw, out)
      else if _hlen : m.buf.length < total then some (m, out)
      else
        match shipping K m.spec (m.buf.take total) m.bigEndian with
        | none => none
        | some none => consumeRequests K (m.keepRaw total) out
        | some (some s) =>
          -- what was queued before this request goes first
          let flushed := m.flushRaw out
          consumeRequests K { m with rawAcc := [], buf := m.buf.drop total }
            (flushed.2 ++ [s.unit m.spec])
termination_by m.buf.length
decreasing_by
  all_goals
    simp only [keepRaw, List.length_drop]
    omega

/-- `consume_setup`. -/
def consumeSetup (K : ImageCodecs) (m : DownstreamReencoder) (out : List Bytes) :
    Option (DownstreamReencoder × List Bytes) :=
  if m.buf.head?.any fun b => b ≠ 66 ∧ b ≠ 108 then some (m.passRaw, out)
  else
    match setupMessageLen m.buf with
    | none => if m.buf.length > 64 * 1024 then some (m.passRaw, out) else some (m, out)
    | some (bigEndian, len) =>
      if m.buf.length < len then some (m, out)
      else consumeRequests K { m.keepRaw len with bigEndian := bigEndian, stage := .requests } out

/-- `push`. -/
def push (K : ImageCodecs) (m : DownstreamReencoder) (chunk : Bytes) (out : List Bytes) :
    Option (DownstreamReencoder × List Bytes) :=
  let m := { m with buf := m.buf ++ chunk }
  let consumed := match m.stage with
    | .setup => m.consumeSetup K out
    | .requests => m.consumeRequests K out
  consumed.map fun (m, out) => m.flushRaw out

/-- Successive pushes. -/
def pushAll (K : ImageCodecs) (m : DownstreamReencoder) :
    List Bytes → List Bytes → Option (DownstreamReencoder × List Bytes)
  | [], out => some (m, out)
  | chunk :: chunks, out => (m.push K chunk out).bind fun (m, out) => m.pushAll K chunks out

end DownstreamReencoder

/-- The decoded pixels of a container. -/
def containerPixels (K : ImageCodecs) (c : Container) : Option Bytes :=
  match c.codec with
  | .png => K.decodeRawPng c.blob
  | .jpeg =>
    match K.decodeJpeg c.blob with
    | none => none
    | some (rgb, components) =>
      if components ≠ 3 then none
      else if rgb.length < c.width * c.height * 3 then none
      else some (packRgb c.bigEndian (rgb.take (c.width * c.height * 3)))

/-- `DownstreamExpander::expand`. -/
def expand (K : ImageCodecs) : Bytes → Option Bytes
  | [] => some []
  | kind :: body =>
    if kind = 0 then some body
    else if kind = 1 then do
      let c ← decodeContainer body
      let pixels ← containerPixels K c
      if pixels.length ≠ c.dataLen then none else some (rebuildRequest c pixels)
    else none

/-- The expansions of a list of units, one after the other. -/
def expandAll (K : ImageCodecs) : List Bytes → Option Bytes
  | [] => some []
  | u :: us => (expand K u).bind fun b => (expandAll K us).map (b ++ ·)

theorem expand_raw (K : ImageCodecs) (b : Bytes) : expand K (0 :: b) = some b := rfl

/-- The expansions of a list of units and one more. -/
theorem expandAll_snoc {K : ImageCodecs} {us : List Bytes} {u b : Bytes}
    (h : expandAll K (us ++ [u]) = some b) :
    ∃ a c, expandAll K us = some a ∧ expand K u = some c ∧ b = a ++ c := by
  induction us generalizing b with
  | nil =>
    obtain ⟨c, hc, hrest⟩ := Option.bind_eq_some_iff.mp h
    cases hrest
    exact ⟨[], c, rfl, hc, List.append_nil c⟩
  | cons v us ih =>
    obtain ⟨a, ha, hrest⟩ := Option.bind_eq_some_iff.mp h
    obtain ⟨d, hd, rfl⟩ := Option.map_eq_some_iff.mp hrest
    obtain ⟨a', c, ha', hc, rfl⟩ := ih hd
    refine ⟨a ++ a', c, ?_, hc, (List.append_assoc a a' c).symm⟩
    rw [expandAll, ha, Option.bind_some, ha']
    rfl

/-! ## Pieces -/

/-- What the machine has consumed: bytes that stay raw, or a shipped request. -/
inductive Piece where
  | raw (b : Bytes)
  | shipped (s : Shipped)
  deriving DecidableEq, Repr

def Piece.original : Piece → Bytes
  | .raw b => b
  | .shipped s => s.req

/-- The request with zeros behind its pixel bytes. -/
def Shipped.zeroTailed (s : Shipped) : Bytes :=
  s.req.take (s.frame.dataOff + s.frame.dataLen) ++
    List.replicate (s.req.length - (s.frame.dataOff + s.frame.dataLen)) 0

def Piece.zeroTailed : Piece → Bytes
  | .raw b => b
  | .shipped s => s.zeroTailed

/-- The container unit of a piece. -/
def Piece.container (spec : RecodeSpec) : Piece → Option Bytes
  | .raw _ => none
  | .shipped s => some (s.unit spec)

/-- A request that passes the checks of the encoder, and the blob it is shipped with. -/
structure Shipped.Valid (K : ImageCodecs) (spec : RecodeSpec) (s : Shipped) : Prop where
  recognised : Recognised s.req s.frame.bigEndian s.frame
  whole : s.req.length = s.frame.total
  encoded : encodeBlob K spec s.frame s.req = some s.blob
  nonempty : s.blob ≠ []
  win : s.blob.length + (1 + 32 + s.frame.dataOff) < s.frame.dataLen

/-- The units of the pieces, and the raw bytes that wait for the next unit. -/
inductive Emits (spec : RecodeSpec) : List Piece → List Bytes → Bytes → Prop
  | nil : Emits spec [] [] []
  | raw {pieces : List Piece} {out : List Bytes} {acc : Bytes} (b : Bytes)
      (h : Emits spec pieces out acc) : Emits spec (pieces ++ [.raw b]) out (acc ++ b)
  | flush {pieces : List Piece} {out : List Bytes} {acc : Bytes} (h : Emits spec pieces out acc) :
      Emits spec pieces (out ++ [0 :: acc]) []
  | ship {pieces : List Piece} {out : List Bytes} (s : Shipped) (h : Emits spec pieces out []) :
      Emits spec (pieces ++ [.shipped s]) (out ++ [s.unit spec]) []

/-- A unit of the second kind. -/
def isContainer (unit : Bytes) : Bool := unit.head? == some 1

/-- The container units are those of the shipped requests, in order. -/
theorem Emits.containers {spec : RecodeSpec} {pieces : List Piece} {out : List Bytes} {acc : Bytes}
    (h : Emits spec pieces out acc) : out.filter isContainer = pieces.filterMap (Piece.container spec) := by
  induction h with
  | nil => rfl
  | raw b _ ih => simp [Piece.container, ih]
  | flush _ ih => simp [isContainer, ih]
  | ship s _ ih => simp [isContainer, Piece.container, Shipped.unit, ih]

/-- The pixel block of a shipped request has the announced length. -/
theorem Shipped.Valid.pixels_length {K : ImageCodecs} {spec : RecodeSpec} {s : Shipped}
    (h : s.Valid K spec) : (s.frame.pixels s.req).length = s.frame.dataLen := by
  have := h.recognised.fits
  unfold PutImageFrame.pixels
  rw [List.length_take, List.length_drop, h.whole]
  omega

/-- The pixels are a part of the request, and so within the limit of the decoder. -/
theorem Shipped.Valid.pixels_le {K : ImageCodecs} {spec : RecodeSpec} {s : Shipped}
    (h : s.Valid K spec) : (s.frame.pixels s.req).length ≤ maxRecodeRequest := by
  have hfits := h.recognised.fits
  have hmax := h.recognised.bounds.1
  rw [h.pixels_length]
  omega

/-- The container of a shipped request, as the decoder has it. -/
def Shipped.decoded (s : Shipped) (spec : RecodeSpec) : Container :=
  ⟨spec.codec, s.frame.bigEndian, s.req.take s.frame.dataOff, s.frame.total, s.frame.width,
    s.frame.height, s.frame.dataLen, s.blob⟩

/-- The image is one that the decoder admits. -/
def Shipped.Admitted (s : Shipped) : Prop := s.frame.width ≤ 8192 ∧ s.frame.height ≤ 8192

instance (s : Shipped) : Decidable s.Admitted :=
  inferInstanceAs (Decidable (s.frame.width ≤ 8192 ∧ s.frame.height ≤ 8192))

theorem Shipped.Valid.decode {K : ImageCodecs} {spec : RecodeSpec} {s : Shipped} (h : s.Valid K spec) :
    decodeContainer (encodeContainer spec.codec spec.quality s.frame s.req s.blob) =
      if s.Admitted then some (s.decoded spec) else none := by
  apply decodeContainer_encode _ _ h.recognised
  have hwin := h.win
  have hfits := h.recognised.fits
  have hmax := h.recognised.bounds.1
  unfold maxRecodeRequest at hmax
  omega

/-- A container unit of the encoder at the expander. -/
theorem Shipped.Valid.expand_eq_some {K : ImageCodecs} {spec : RecodeSpec} {s : Shipped}
    (h : s.Valid K spec) {r : Bytes} : expand K (s.unit spec) = some r ↔
      s.Admitted ∧ ∃ pixels, containerPixels K (s.decoded spec) = some pixels ∧
        pixels.length = s.frame.dataLen ∧ r = rebuildRequest (s.decoded spec) pixels := by
  have hunit : expand K (s.unit spec) = (if s.Admitted then some (s.decoded spec) else none).bind
      fun c => (containerPixels K c).bind fun pixels =>
        if pixels.length ≠ c.dataLen then none else some (rebuildRequest c pixels) :=
    congrArg (Option.bind · _) h.decode
  rw [hunit]
  by_cases hsize : s.Admitted
  · rw [if_pos hsize, Option.bind_some, Option.bind_eq_some_iff]
    constructor
    · rintro ⟨pixels, hpixels, hr⟩
      split at hr
      · cases hr
      · rename_i hlen
        exact ⟨hsize, pixels, hpixels, not_not.mp hlen, (Option.some.inj hr).symm⟩
    · rintro ⟨-, pixels, hpixels, hlen, rfl⟩
      refine ⟨pixels, hpixels, ?_⟩
      exact if_neg (not_not.mpr hlen)
  · rw [if_neg hsize]
    exact iff_of_false (by simp) fun hadmitted => hsize hadmitted.1

/-- A rebuilt request: the prefix, the pixels, and zeros up to the original length. -/
theorem Shipped.Valid.rebuild {K : ImageCodecs} {spec : RecodeSpec} {s : Shipped} (h : s.Valid K spec)
    {pixels : Bytes} (hlen : pixels.length = s.frame.dataLen) :
    rebuildRequest (s.decoded spec) pixels = s.req.take s.frame.dataOff ++ pixels ++
      List.replicate (s.frame.total - (s.frame.dataOff + s.frame.dataLen)) 0 := by
  have hfits := h.recognised.fits
  have hstart : (s.req.take s.frame.dataOff).length = s.frame.dataOff := by
    rw [List.length_take, h.whole]
    omega
  unfold rebuildRequest Shipped.decoded
  simp only
  rw [hstart, List.take_of_length_le (Nat.le_of_eq hlen), Nat.sub_sub]

/-- A container of the lossless codec expands, if at all, to the request with zeros behind its pixels. -/
theorem Shipped.Valid.expand_png {K : ImageCodecs} {spec : RecodeSpec} {s : Shipped} (h : s.Valid K spec)
    (hcodec : spec.codec = .png)
    (hpng : ∀ p, p.length ≤ maxRecodeRequest → K.encodeRawPng p ≠ [] →
      K.decodeRawPng (K.encodeRawPng p) = some p) {b : Bytes}
    (hb : expand K (s.unit spec) = some b) : b = s.zeroTailed := by
  have hblob : K.encodeRawPng (s.frame.pixels s.req) = s.blob := by
    have hencoded := h.encoded
    unfold encodeBlob at hencoded
    rw [hcodec] at hencoded
    exact Option.some.inj hencoded
  have hdecoded : containerPixels K (s.decoded spec) = some (s.frame.pixels s.req) := by
    unfold containerPixels Shipped.decoded
    simp only [hcodec]
    rw [← hblob]
    exact hpng _ h.pixels_le (hblob ▸ h.nonempty)
  obtain ⟨-, pixels, hpixels, hlen, rfl⟩ := h.expand_eq_some.mp hb
  rw [hdecoded] at hpixels
  cases hpixels
  rw [h.rebuild hlen, Shipped.zeroTailed, h.whole]
  unfold PutImageFrame.pixels
  rw [← List.take_add]

/-! ## What the far side will have -/

/-- A stream of requests with zeros behind the pixels of those that are shipped. -/
def zeroedRequests (K : ImageCodecs) (spec : RecodeSpec) (bigEndian : Bool) (buf : Bytes) : Bytes :=
  match requestTotal buf bigEndian with
  | none => buf
  | some total =>
    if _hrange : total < 4 ∨ total > maxRecodeRequest then buf
    else if _hlen : buf.length < total then buf
    else
      (match shipping K spec (buf.take total) bigEndian with
        | some (some s) => s.zeroTailed
        | _ => buf.take total) ++ zeroedRequests K spec bigEndian (buf.drop total)
termination_by buf.length
decreasing_by
  rw [List.length_drop]
  omega

/-- The same of a whole stream, from its setup request on. -/
def zeroedStream (K : ImageCodecs) (spec : RecodeSpec) (stream : Bytes) : Bytes :=
  match setupMessageLen stream with
  | none => stream
  | some (bigEndian, len) =>
    if stream.length < len then stream
    else stream.take len ++ zeroedRequests K spec bigEndian (stream.drop len)

/-- What the far side will have of the bytes from the machine's buffer on. -/
def DownstreamReencoder.remaining (K : ImageCodecs) (m : DownstreamReencoder) (bytes : Bytes) : Bytes :=
  if m.disabled then bytes
  else
    match m.stage with
    | .setup => zeroedStream K m.spec bytes
    | .requests => zeroedRequests K m.spec m.bigEndian bytes

theorem field_append {buf : Bytes} (more : Bytes) {i k : Nat} (h : i + k ≤ buf.length) :
    ((buf ++ more).drop i).take k = (buf.drop i).take k := by
  rw [List.drop_append_of_le_length (by omega), List.take_append_of_le_length]
  rw [List.length_drop]
  omega

/-- A length that has been read does not change with what follows. -/
theorem requestTotal_append {buf : Bytes} (more : Bytes) {bigEndian : Bool} {total : Nat}
    (h : requestTotal buf bigEndian = some total) :
    requestTotal (buf ++ more) bigEndian = some total := by
  unfold requestTotal at h ⊢
  split at h
  · cases h
  · rename_i h4
    have hlen : (buf ++ more).length = buf.length + more.length := List.length_append
    have hfield : u16At (buf ++ more) 2 bigEndian = u16At buf 2 bigEndian := by
      unfold u16At
      rw [field_append more (by omega)]
    rw [if_neg (by omega)]
    simp only [hfield] at h ⊢
    split at h
    · rename_i hzero
      rw [if_pos hzero]
      split at h
      · cases h
      · have hwords : u32At (buf ++ more) 4 bigEndian = u32At buf 4 bigEndian := by
          unfold u32At
          rw [field_append more (by omega)]
        rw [if_neg (by omega), hwords]
        exact h
    · rename_i hzero
      rw [if_neg hzero]
      exact h

/-- The header alone says how long the setup request is, or that the stream is none. -/
theorem setupMessageLen_append_of_header {buf : Bytes} (more : Bytes) (h : setupHeaderLen ≤ buf.length) :
    setupMessageLen (buf ++ more) = setupMessageLen buf := by
  unfold setupHeaderLen at h
  unfold setupMessageLen setupHeaderLen
  have hlen : (buf ++ more).length = buf.length + more.length := List.length_append
  have hfirst : (buf ++ more).getD 0 0 = buf.getD 0 0 := by
    simp only [List.getD_eq_getElem?_getD, List.getElem?_append_left (show 0 < buf.length by omega)]
  have hfield : ∀ i be, i + 2 ≤ 12 → u16At (buf ++ more) i be = u16At buf i be := by
    intro i be hi
    unfold u16At
    rw [field_append more (by omega)]
  rw [if_neg (show ¬ (buf ++ more).length < 12 by omega), if_neg (show ¬ buf.length < 12 by omega), hfirst]
  simp only [hfield 6 _ (by omega), hfield 8 _ (by omega)]

theorem setupMessageLen_eq_some_header {buf : Bytes} {r : Bool × Nat} (h : setupMessageLen buf = some r) :
    setupHeaderLen ≤ buf.length := by
  unfold setupMessageLen at h
  split at h
  · cases h
  · omega

theorem setupMessageLen_append {buf : Bytes} (more : Bytes) {bigEndian : Bool} {len : Nat}
    (h : setupMessageLen buf = some (bigEndian, len)) :
    setupMessageLen (buf ++ more) = some (bigEndian, len) := by
  rw [setupMessageLen_append_of_header more (setupMessageLen_eq_some_header h)]
  exact h

/-- The next request, once it is complete. -/
theorem zeroedRequests_append (K : ImageCodecs) (spec : RecodeSpec) {bigEndian : Bool} {buf : Bytes}
    {total : Nat} (h : requestTotal buf bigEndian = some total)
    (hrange : ¬ (total < 4 ∨ total > maxRecodeRequest)) (hlen : ¬ buf.length < total) (more : Bytes) :
    zeroedRequests K spec bigEndian (buf ++ more) =
      (match shipping K spec (buf.take total) bigEndian with
        | some (some s) => s.zeroTailed
        | _ => buf.take total) ++ zeroedRequests K spec bigEndian (buf.drop total ++ more) := by
  have htake : (buf ++ more).take total = buf.take total :=
    List.take_append_of_le_length (by omega)
  have hdrop : (buf ++ more).drop total = buf.drop total ++ more :=
    List.drop_append_of_le_length (by omega)
  have hlen' : ¬ (buf ++ more).length < total := by
    rw [List.length_append]
    omega
  rw [zeroedRequests, requestTotal_append more h]
  simp only
  rw [dif_neg hrange, dif_neg hlen', htake, hdrop]

theorem zeroedRequests_out_of_range (K : ImageCodecs) (spec : RecodeSpec) {bigEndian : Bool}
    {buf : Bytes} {total : Nat} (h : requestTotal buf bigEndian = some total)
    (hrange : total < 4 ∨ total > maxRecodeRequest) (more : Bytes) :
    zeroedRequests K spec bigEndian (buf ++ more) = buf ++ more := by
  rw [zeroedRequests, requestTotal_append more h]
  simp only
  rw [dif_pos hrange]

/-! ## The invariant -/

/-- The encoder's own reading of the length agrees with the machine's. -/
theorem requestTotal_of_extent {req : Bytes} {bigEndian : Bool} {dataOff total : Nat}
    (h : putImageExtent req bigEndian = some (dataOff, total)) (hlen : 4 ≤ req.length) :
    requestTotal req bigEndian = some total := by
  unfold putImageExtent at h
  unfold requestTotal
  rw [if_neg (by omega)]
  simp only at h ⊢
  split at h
  · rename_i hzero
    rw [if_pos hzero]
    split at h
    · cases h
    · rename_i h8
      rw [if_neg h8]
      split at h
      · cases h
      · cases h
        rfl
  · rename_i hzero
    rw [if_neg hzero]
    split at h
    · cases h
    · cases h
      rfl

theorem shippedBlob_eq_some {K : ImageCodecs} {spec : RecodeSpec} {f : PutImageFrame} {req blob : Bytes}
    (h : shippedBlob K spec f req = some blob) : encodeBlob K spec f req = some blob ∧ blob ≠ [] ∧
      blob.length + (1 + 32 + f.dataOff) < f.dataLen := by
  unfold shippedBlob at h
  split at h
  · cases h
  · split at h
    · cases h
    · rename_i b hencoded
      split at h
      · cases h
      · rename_i hempty
        split at h
        · cases h
        · rename_i hwin
          cases h
          exact ⟨hencoded, by simpa using hempty, Nat.lt_of_not_ge hwin⟩

/-- A request that is shipped is the whole request at the head of the buffer. -/
theorem shipping_valid {K : ImageCodecs} {spec : RecodeSpec} {buf : Bytes} {bigEndian : Bool}
    {total : Nat} {s : Shipped} (h : shipping K spec (buf.take total) bigEndian = some (some s))
    (htotal : requestTotal buf bigEndian = some total) (hrange : 4 ≤ total)
    (hlen : total ≤ buf.length) : s.req = buf.take total ∧ s.Valid K spec := by
  obtain ⟨candidate, hclassify, hcandidate⟩ := Option.map_eq_some_iff.mp h
  obtain ⟨f, rfl, hf⟩ := Option.bind_eq_some_iff.mp hcandidate
  obtain ⟨blob, hblob, rfl⟩ := Option.map_eq_some_iff.mp hf
  obtain ⟨hencoded, hne, hwin⟩ := shippedBlob_eq_some hblob
  have hrec := classifyPutImage_recognised hclassify
  have htake : (buf.take total).length = total := by
    rw [List.length_take, Nat.min_eq_left hlen]
  have hwhole : f.total = total := by
    have := requestTotal_append (buf.drop total) (requestTotal_of_extent hrec.extent (by omega))
    rw [List.take_append_drop, htotal] at this
    exact (Option.some.inj this).symm
  refine ⟨rfl, ?_, ?_, hencoded, hne, hwin⟩
  · rw [hrec.order]
    exact hrec
  · rw [htake]
    exact hwhole.symm

/-- The pieces of what has been consumed of `stream`. -/
structure Tracks (K : ImageCodecs) (spec : RecodeSpec) (stream : Bytes) (m : DownstreamReencoder)
    (out : List Bytes) (pieces : List Piece) : Prop where
  same : m.spec = spec
  original : stream = pieces.flatMap Piece.original ++ m.buf
  valid : ∀ s, .shipped s ∈ pieces → s.Valid K spec
  emits : Emits spec pieces out m.rawAcc
  rest : ∀ more, zeroedStream K spec (stream ++ more) =
    pieces.flatMap Piece.zeroTailed ++ m.remaining K (m.buf ++ more)

namespace Tracks

variable {K : ImageCodecs} {spec : RecodeSpec} {stream : Bytes} {m m' : DownstreamReencoder}
  {out : List Bytes} {pieces : List Piece}

theorem new : Tracks K spec [] (.new spec) [] [] :=
  ⟨rfl, rfl, by simp, .nil, fun _ => rfl⟩

/-- A chunk is appended to the buffer. -/
theorem chunk (h : Tracks K spec stream m out pieces) (chunk : Bytes) :
    Tracks K spec (stream ++ chunk) { m with buf := m.buf ++ chunk } out pieces := by
  refine ⟨h.same, ?_, h.valid, h.emits, ?_⟩
  · rw [h.original, List.append_assoc]
  · intro more
    rw [List.append_assoc, h.rest (chunk ++ more), ← List.append_assoc m.buf]
    rfl

/-- Bytes at the head of the buffer stay raw. -/
theorem keepRaw (h : Tracks K spec stream m out pieces) {b rest : Bytes} (hbuf : m.buf = b ++ rest)
    (hspec : m'.spec = m.spec) (hbuf' : m'.buf = rest) (hacc : m'.rawAcc = m.rawAcc ++ b)
    (hremaining : ∀ more, m.remaining K (b ++ (rest ++ more)) = b ++ m'.remaining K (rest ++ more)) :
    Tracks K spec stream m' out (pieces ++ [.raw b]) := by
  refine ⟨hspec.trans h.same, ?_, ?_, ?_, ?_⟩
  · rw [h.original, hbuf, hbuf', List.flatMap_append, List.append_assoc]
    simp [Piece.original]
  · intro s hs
    rcases List.mem_append.mp hs with hs | hs
    · exact h.valid s hs
    · cases List.mem_singleton.mp hs
  · rw [hacc]
    exact h.emits.raw b
  · intro more
    rw [h.rest more, hbuf, List.append_assoc, hremaining more, hbuf', List.flatMap_append,
      List.append_assoc]
    simp [Piece.zeroTailed]

/-- What was queued is flushed. -/
theorem flushed (h : Emits spec pieces out m.rawAcc) : Emits spec pieces (m.flushRaw out).2 [] := by
  unfold DownstreamReencoder.flushRaw
  split
  · rename_i hempty
    rwa [List.isEmpty_iff.mp hempty] at h
  · exact h.flush

/-- The request at the head of the buffer is shipped. -/
theorem ship (h : Tracks K spec stream m out pieces) {s : Shipped} {rest : Bytes}
    (hbuf : m.buf = s.req ++ rest) (hvalid : s.Valid K spec) (hspec : m'.spec = m.spec)
    (hbuf' : m'.buf = rest) (hacc : m'.rawAcc = [])
    (hremaining : ∀ more, m.remaining K (s.req ++ (rest ++ more)) =
      s.zeroTailed ++ m'.remaining K (rest ++ more)) :
    Tracks K spec stream m' ((m.flushRaw out).2 ++ [s.unit spec]) (pieces ++ [.shipped s]) := by
  refine ⟨hspec.trans h.same, ?_, ?_, ?_, ?_⟩
  · rw [h.original, hbuf, hbuf', List.flatMap_append, List.append_assoc]
    simp [Piece.original]
  · intro s' hs'
    rcases List.mem_append.mp hs' with hs' | hs'
    · exact h.valid s' hs'
    · cases List.mem_singleton.mp hs'
      exact hvalid
  · rw [hacc]
    exact (flushed h.emits).ship s
  · intro more
    rw [h.rest more, hbuf, List.append_assoc, hremaining more, hbuf', List.flatMap_append,
      List.append_assoc]
    simp [Piece.zeroTailed]

/-- The machine passes on what it holds, when it would not change it. -/
theorem passRaw (h : Tracks K spec stream m out pieces)
    (hremaining : ∀ more, m.remaining K (m.buf ++ more) = m.buf ++ more) :
    Tracks K spec stream m.passRaw out (pieces ++ [.raw m.buf]) := by
  refine h.keepRaw (List.append_nil _).symm rfl rfl rfl ?_
  intro more
  rw [List.nil_append, hremaining more]
  rfl

end Tracks

/-- The machine waits for more of what it holds. -/
def DownstreamReencoder.Settled (K : ImageCodecs) (m : DownstreamReencoder) : Prop :=
  m.remaining K m.buf = m.buf

theorem settled_passRaw (K : ImageCodecs) (m : DownstreamReencoder) : m.passRaw.Settled K := rfl

/-- What `remaining` is of a machine that is reading requests. -/
theorem remaining_requests {K : ImageCodecs} {m : DownstreamReencoder} (hstage : m.stage = .requests)
    (hdisabled : m.disabled = false) (bytes : Bytes) :
    m.remaining K bytes = zeroedRequests K m.spec m.bigEndian bytes := by
  unfold DownstreamReencoder.remaining
  rw [hdisabled, hstage]
  rfl

theorem remaining_disabled {K : ImageCodecs} {m : DownstreamReencoder} (h : m.disabled = true)
    (bytes : Bytes) : m.remaining K bytes = bytes := if_pos h

/-- The loop over the requests. -/
theorem consumeRequests_tracks {K : ImageCodecs} {spec : RecodeSpec} {stream : Bytes}
    {m m' : DownstreamReencoder} {out out' : List Bytes} {pieces : List Piece}
    (h : Tracks K spec stream m out pieces) (hstage : m.stage = .requests)
    (hrun : m.consumeRequests K out = some (m', out')) :
    ∃ pieces', Tracks K spec stream m' out' pieces' ∧ m'.Settled K := by
  fun_induction DownstreamReencoder.consumeRequests K m out generalizing pieces with
  | case1 m out hdisabled =>
    cases hrun
    exact ⟨_, h.passRaw fun more => remaining_disabled hdisabled _, settled_passRaw K m⟩
  | case2 m out hdisabled htotal =>
    cases hrun
    refine ⟨pieces, h, ?_⟩
    unfold DownstreamReencoder.Settled
    rw [remaining_requests hstage (Bool.eq_false_iff.mpr hdisabled), zeroedRequests, htotal]
  | case3 m out hdisabled total htotal hrange =>
    cases hrun
    refine ⟨_, h.passRaw ?_, settled_passRaw K m⟩
    intro more
    rw [remaining_requests hstage (Bool.eq_false_iff.mpr hdisabled)]
    exact zeroedRequests_out_of_range K m.spec htotal hrange more
  | case4 m out hdisabled total htotal hrange hlen =>
    cases hrun
    refine ⟨pieces, h, ?_⟩
    unfold DownstreamReencoder.Settled
    rw [remaining_requests hstage (Bool.eq_false_iff.mpr hdisabled), zeroedRequests, htotal]
    simp only [dif_neg hrange, dif_pos hlen]
  | case5 => cases hrun
  | case6 m out hdisabled total htotal hrange hlen hship ih =>
    have hstep : Tracks K spec stream (m.keepRaw total) out (pieces ++ [.raw (m.buf.take total)]) := by
      refine h.keepRaw (List.take_append_drop total m.buf).symm rfl rfl rfl ?_
      intro more
      rw [← List.append_assoc, List.take_append_drop,
        remaining_requests hstage (Bool.eq_false_iff.mpr hdisabled),
        zeroedRequests_append K m.spec htotal hrange hlen more, hship,
        remaining_requests (m := m.keepRaw total) hstage (Bool.eq_false_iff.mpr hdisabled)]
      rfl
    exact ih hstep hstage hrun
  | case7 m out hdisabled total htotal hrange hlen s hship flushed =>
    rename_i ih
    obtain ⟨hreq, hvalid⟩ := shipping_valid hship htotal (by omega) (by omega)
    rw [h.same] at hvalid
    let next : DownstreamReencoder := { m with rawAcc := [], buf := m.buf.drop total }
    have hstep : Tracks K spec stream next ((m.flushRaw out).2 ++ [s.unit m.spec])
        (pieces ++ [.shipped s]) := by
      rw [h.same]
      refine h.ship ?_ hvalid rfl rfl rfl ?_
      · rw [hreq, List.take_append_drop]
      · intro more
        rw [hreq, ← List.append_assoc, List.take_append_drop,
          remaining_requests hstage (Bool.eq_false_iff.mpr hdisabled),
          zeroedRequests_append K m.spec htotal hrange hlen more, hship,
          remaining_requests (m := next) hstage (Bool.eq_false_iff.mpr hdisabled)]
    exact ih hstep hstage hrun

/-- A stream that cannot be an X11 connection has no setup request. -/
theorem setupMessageLen_of_head {b : UInt8} (rest : Bytes) (h : b ≠ 66 ∧ b ≠ 108) :
    setupMessageLen (b :: rest) = none := by
  unfold setupMessageLen
  split
  · rfl
  · simp [h.1, h.2]

theorem setupMessageLen_isSome {buf : Bytes} (hlen : setupHeaderLen ≤ buf.length)
    (hhead : ¬ (buf.head?.any fun b => b ≠ 66 ∧ b ≠ 108) = true) : setupMessageLen buf ≠ none := by
  cases buf with
  | nil => cases hlen
  | cons b rest =>
    unfold setupMessageLen
    rw [if_neg (by omega)]
    have hb : b = 66 ∨ b = 108 := by
      by_contra hnot
      rw [not_or] at hnot
      exact hhead (by simpa using hnot)
    rcases hb with rfl | rfl <;> simp

/-- What `remaining` is of a machine at the setup request, when there is none. -/
theorem remaining_setup {K : ImageCodecs} {m : DownstreamReencoder} (hstage : m.stage = .setup)
    {bytes : Bytes} (h : setupMessageLen bytes = none) : m.remaining K bytes = bytes := by
  unfold DownstreamReencoder.remaining
  split
  · rfl
  · rw [hstage]
    show zeroedStream K m.spec bytes = bytes
    rw [zeroedStream, h]

theorem consumeSetup_tracks {K : ImageCodecs} {spec : RecodeSpec} {stream : Bytes}
    {m m' : DownstreamReencoder} {out out' : List Bytes} {pieces : List Piece}
    (h : Tracks K spec stream m out pieces) (hstage : m.stage = .setup)
    (hrun : m.consumeSetup K out = some (m', out')) :
    ∃ pieces', Tracks K spec stream m' out' pieces' ∧ m'.Settled K := by
  unfold DownstreamReencoder.consumeSetup at hrun
  split at hrun
  · rename_i hhead
    cases hrun
    refine ⟨_, h.passRaw ?_, settled_passRaw K m⟩
    intro more
    apply remaining_setup hstage
    cases hbuf : m.buf with
    | nil =>
      rw [hbuf] at hhead
      cases hhead
    | cons b rest =>
      rw [hbuf] at hhead
      exact setupMessageLen_of_head _ (by simpa using hhead)
  · rename_i hhead
    split at hrun
    · rename_i hnone
      split at hrun
      · rename_i hlong
        exact absurd hnone (setupMessageLen_isSome (by unfold setupHeaderLen; omega) hhead)
      · cases hrun
        exact ⟨pieces, h, remaining_setup hstage hnone⟩
    · rename_i bigEndian len hsome
      split at hrun
      · rename_i hshort
        cases hrun
        refine ⟨pieces, h, ?_⟩
        unfold DownstreamReencoder.Settled DownstreamReencoder.remaining
        split
        · rfl
        · rw [hstage]
          simp only [zeroedStream, hsome, if_pos hshort]
      · rename_i hlong
        have hstep : Tracks K spec stream
            { m.keepRaw len with bigEndian := bigEndian, stage := .requests } out
            (pieces ++ [.raw (m.buf.take len)]) := by
          refine h.keepRaw (List.take_append_drop len m.buf).symm rfl rfl rfl ?_
          intro more
          rw [← List.append_assoc, List.take_append_drop]
          unfold DownstreamReencoder.remaining
          have hdisabled : ({ m.keepRaw len with bigEndian := bigEndian, stage := .requests } :
              DownstreamReencoder).disabled = m.disabled := rfl
          rw [hdisabled]
          split
          · rw [← List.append_assoc, List.take_append_drop]
          · rw [hstage]
            have htake : (m.buf ++ more).take len = m.buf.take len :=
              List.take_append_of_le_length (by omega)
            have hdrop : (m.buf ++ more).drop len = m.buf.drop len ++ more :=
              List.drop_append_of_le_length (by omega)
            have hlen : ¬ (m.buf ++ more).length < len := by
              rw [List.length_append]
              omega
            simp only [zeroedStream, setupMessageLen_append more hsome, if_neg hlen, htake, hdrop]
            rfl
        exact consumeRequests_tracks hstep rfl hrun

/-- **One push.** -/
theorem push_tracks {K : ImageCodecs} {spec : RecodeSpec} {stream : Bytes} {m m' : DownstreamReencoder}
    {out out' : List Bytes} {pieces : List Piece} (h : Tracks K spec stream m out pieces) {chunk : Bytes}
    (hrun : m.push K chunk out = some (m', out')) :
    ∃ pieces', Tracks K spec (stream ++ chunk) m' out' pieces' ∧ m'.Settled K ∧ m'.rawAcc = [] := by
  unfold DownstreamReencoder.push at hrun
  obtain ⟨⟨u, out₁⟩, hconsumed, hflush⟩ := Option.map_eq_some_iff.mp hrun
  obtain ⟨pieces', htracks, hsettled⟩ : ∃ pieces', Tracks K spec (stream ++ chunk) u out₁ pieces' ∧
      u.Settled K := by
    simp only at hconsumed
    split at hconsumed
    · rename_i hstage
      exact consumeSetup_tracks (h.chunk chunk) hstage hconsumed
    · rename_i hstage
      exact consumeRequests_tracks (h.chunk chunk) hstage hconsumed
  have hemits := Tracks.flushed htracks.emits
  have hflushed : u.flushRaw out₁ = (m', out') := hflush
  unfold DownstreamReencoder.flushRaw at hflushed hemits
  by_cases hempty : u.rawAcc.isEmpty = true
  · rw [if_pos hempty] at hflushed
    cases hflushed
    exact ⟨pieces', htracks, hsettled, List.isEmpty_iff.mp hempty⟩
  · rw [if_neg hempty] at hflushed hemits
    cases hflushed
    exact ⟨pieces', ⟨htracks.same, htracks.original, htracks.valid, hemits, htracks.rest⟩, hsettled, rfl⟩

/-- **Any number of pushes.** -/
theorem pushAll_tracks {K : ImageCodecs} {spec : RecodeSpec} {stream : Bytes}
    {m m' : DownstreamReencoder} {chunks out out' : List Bytes} {pieces : List Piece}
    (h : Tracks K spec stream m out pieces) (hsettled : m.Settled K) (hacc : m.rawAcc = [])
    (hrun : m.pushAll K chunks out = some (m', out')) :
    ∃ pieces', Tracks K spec (stream ++ chunks.flatten) m' out' pieces' ∧ m'.Settled K ∧
      m'.rawAcc = [] := by
  induction chunks generalizing stream m out pieces with
  | nil =>
    cases hrun
    rw [List.flatten_nil, List.append_nil]
    exact ⟨pieces, h, hsettled, hacc⟩
  | cons chunk chunks ih =>
    obtain ⟨⟨u, out₁⟩, hpush, hrest⟩ := Option.bind_eq_some_iff.mp hrun
    obtain ⟨pieces₁, htracks, hsettled₁, hacc₁⟩ := push_tracks h hpush
    rw [List.flatten_cons, ← List.append_assoc]
    exact ih htracks hsettled₁ hacc₁ hrest

/-! ## A request that arrives in many chunks -/

namespace DownstreamReencoder

theorem pushAll_cons {K : ImageCodecs} {m u : DownstreamReencoder} {chunk : Bytes}
    {out out₁ : List Bytes} (h : m.push K chunk out = some (u, out₁)) (chunks : List Bytes) :
    m.pushAll K (chunk :: chunks) out = u.pushAll K chunks out₁ := by
  rw [pushAll, h]
  rfl

theorem pushAll_append {K : ImageCodecs} {m : DownstreamReencoder} {as bs out : List Bytes} :
    m.pushAll K (as ++ bs) out = (m.pushAll K as out).bind fun r => r.1.pushAll K bs r.2 := by
  induction as generalizing m out with
  | nil => rfl
  | cons a as ih =>
    simp only [List.cons_append, pushAll]
    cases m.push K a out with
    | none => rfl
    | some r => exact ih

/-- With nothing held, the loop over the requests waits. -/
theorem consumeRequests_nil {K : ImageCodecs} {m : DownstreamReencoder} (hdisabled : m.disabled = false)
    (hbuf : m.buf = []) (out : List Bytes) : m.consumeRequests K out = some (m, out) := by
  rw [consumeRequests, hdisabled, hbuf]
  rfl

/-- A push that completes the setup request, and no more. -/
theorem push_setup {K : ImageCodecs} (spec : RecodeSpec) {setup : Bytes} {bigEndian : Bool}
    (hhead : (setup.head?.any fun b => b ≠ 66 ∧ b ≠ 108) = false) (hne : setup ≠ [])
    (hsetup : setupMessageLen setup = some (bigEndian, setup.length)) (out : List Bytes) :
    (new spec).push K setup out =
      some (⟨spec, [], [], .requests, bigEndian, false⟩, out ++ [0 :: setup]) := by
  have hrequests := consumeRequests_nil (K := K) (m := ⟨spec, [], setup, .requests, bigEndian, false⟩)
    rfl rfl out
  unfold push
  simp only [new, List.nil_append]
  unfold consumeSetup
  simp only [hhead, Bool.false_eq_true, if_false, hsetup, Nat.lt_irrefl, keepRaw, List.take_length,
    List.drop_length, List.nil_append, hrequests, Option.map_some, flushRaw]
  rw [if_neg (by simpa using hne)]

variable {K : ImageCodecs} {spec : RecodeSpec} {bigEndian : Bool} {buf chunk : Bytes} {total : Nat}

/-- A push that does not complete the request adds to the buffer. -/
theorem push_waits (htotal : requestTotal (buf ++ chunk) bigEndian = some total)
    (hrange : ¬ (total < 4 ∨ total > maxRecodeRequest)) (hlen : (buf ++ chunk).length < total)
    (out : List Bytes) :
    (⟨spec, buf, [], .requests, bigEndian, false⟩ : DownstreamReencoder).push K chunk out =
      some (⟨spec, buf ++ chunk, [], .requests, bigEndian, false⟩, out) := by
  unfold push
  simp only
  rw [consumeRequests]
  simp only [Bool.false_eq_true, if_false, htotal, dif_neg hrange, dif_pos hlen, Option.map_some, flushRaw,
    List.isEmpty_nil, if_true]

theorem pushAll_waits {chunks : List Bytes} (htotal : requestTotal buf bigEndian = some total)
    (hrange : ¬ (total < 4 ∨ total > maxRecodeRequest)) (hlen : (buf ++ chunks.flatten).length < total)
    (out : List Bytes) :
    (⟨spec, buf, [], .requests, bigEndian, false⟩ : DownstreamReencoder).pushAll K chunks out =
      some (⟨spec, buf ++ chunks.flatten, [], .requests, bigEndian, false⟩, out) := by
  induction chunks generalizing buf with
  | nil =>
    rw [List.flatten_nil, List.append_nil]
    rfl
  | cons chunk chunks ih =>
    rw [List.flatten_cons, ← List.append_assoc] at hlen ⊢
    have htotal' := requestTotal_append chunk htotal
    have hpart : (buf ++ chunk).length < total := by
      rw [List.length_append] at hlen
      omega
    rw [pushAll_cons (push_waits htotal' hrange hpart out)]
    exact ih htotal' hlen

/-- A push that completes a request which is not shipped. -/
theorem push_raw (htotal : requestTotal (buf ++ chunk) bigEndian = some (buf ++ chunk).length)
    (hrange : ¬ ((buf ++ chunk).length < 4 ∨ (buf ++ chunk).length > maxRecodeRequest))
    (hship : shipping K spec (buf ++ chunk) bigEndian = some none) (out : List Bytes) :
    (⟨spec, buf, [], .requests, bigEndian, false⟩ : DownstreamReencoder).push K chunk out =
      some (⟨spec, [], [], .requests, bigEndian, false⟩, out ++ [0 :: (buf ++ chunk)]) := by
  have hne : (buf ++ chunk).isEmpty = false := by
    rw [List.isEmpty_eq_false_iff]
    intro hnil
    rw [hnil] at hrange
    exact hrange (.inl (by decide))
  have hrest := consumeRequests_nil (K := K) (m := ⟨spec, [], buf ++ chunk, .requests, bigEndian, false⟩)
    rfl rfl out
  unfold push
  simp only
  rw [consumeRequests]
  simp only [Bool.false_eq_true, if_false, htotal, dif_neg hrange, Nat.lt_irrefl, dite_false,
    List.take_length, hship, keepRaw, List.drop_length, List.nil_append, hrest, Option.map_some, flushRaw,
    hne]

/-- A push that completes a request which is shipped. -/
theorem push_ships {s : Shipped}
    (htotal : requestTotal (buf ++ chunk) bigEndian = some (buf ++ chunk).length)
    (hrange : ¬ ((buf ++ chunk).length < 4 ∨ (buf ++ chunk).length > maxRecodeRequest))
    (hship : shipping K spec (buf ++ chunk) bigEndian = some (some s)) (out : List Bytes) :
    (⟨spec, buf, [], .requests, bigEndian, false⟩ : DownstreamReencoder).push K chunk out =
      some (⟨spec, [], [], .requests, bigEndian, false⟩, out ++ [s.unit spec]) := by
  have hrest := consumeRequests_nil (K := K) (m := ⟨spec, [], [], .requests, bigEndian, false⟩) rfl rfl
  unfold push
  simp only
  rw [consumeRequests]
  simp only [Bool.false_eq_true, if_false, htotal, dif_neg hrange, Nat.lt_irrefl, dite_false,
    List.take_length, hship, flushRaw, List.isEmpty_nil, if_true, List.drop_length, hrest, Option.map_some]

/-- A long request that is not shipped, chunk by chunk: one raw unit holds it all. -/
theorem pushAll_raw {setup head last : Bytes} {chunks : List Bytes}
    (hhead : (setup.head?.any fun b => b ≠ 66 ∧ b ≠ 108) = false) (hne : setup ≠ [])
    (hsetup : setupMessageLen setup = some (bigEndian, setup.length)) (hlast : last ≠ [])
    (htotal : requestTotal head bigEndian = some (head ++ chunks.flatten ++ last).length)
    (hrange : ¬ ((head ++ chunks.flatten ++ last).length < 4 ∨
      (head ++ chunks.flatten ++ last).length > maxRecodeRequest))
    (hship : shipping K spec (head ++ chunks.flatten ++ last) bigEndian = some none) :
    (new spec).pushAll K (setup :: head :: (chunks ++ [last])) [] =
      some (⟨spec, [], [], .requests, bigEndian, false⟩,
        [0 :: setup, 0 :: (head ++ chunks.flatten ++ last)]) := by
  have hpos := List.length_pos_iff.mpr hlast
  have hpart : (head ++ chunks.flatten).length < (head ++ chunks.flatten ++ last).length := by
    have hsum : (head ++ chunks.flatten ++ last).length = (head ++ chunks.flatten).length + last.length :=
      List.length_append
    omega
  have hheadlen : ([] ++ head).length < (head ++ chunks.flatten ++ last).length := by
    have hsum : (head ++ chunks.flatten).length = head.length + chunks.flatten.length :=
      List.length_append
    rw [List.nil_append]
    omega
  have hwhole := requestTotal_append last (requestTotal_append chunks.flatten htotal)
  have hfirst : (⟨spec, [], [], .requests, bigEndian, false⟩ : DownstreamReencoder).push K head
      [0 :: setup] = some (⟨spec, [] ++ head, [], .requests, bigEndian, false⟩, [0 :: setup]) :=
    push_waits (show requestTotal ([] ++ head) bigEndian = _ from htotal) hrange hheadlen _
  rw [pushAll_cons (push_setup spec hhead hne hsetup []), List.nil_append, pushAll_cons hfirst,
    pushAll_append, List.nil_append, pushAll_waits htotal hrange hpart, Option.bind_some,
    pushAll_cons (push_raw hwhole hrange hship _)]
  rfl

end DownstreamReencoder

/-- A little-endian setup request without authorization. -/
def plainSetup : Bytes := [108, 0, 11, 0, 0, 0, 0, 0, 0, 0, 0, 0]

theorem plainSetup_head : (plainSetup.head?.any fun b => b ≠ 66 ∧ b ≠ 108) = false := rfl

theorem plainSetup_len : setupMessageLen plainSetup = some (false, plainSetup.length) := rfl

end RemoteX11.Recode
