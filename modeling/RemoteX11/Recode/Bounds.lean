/-
  The accesses of the re-encoder (`x11recode/mod.rs`, `x11recode/frame.rs`).

  The functions here are those of `Recode.Machine` with every index, slice and drain checked: their outer
  `none` is a panic. `pushAllChecked_eq`: the two have the same results, so the only access that can fail is
  that of the left pad and the depth of a `PutImage` request that is shorter than its own fixed part.

  `streamReachesShort` finds such a request in the stream alone, whatever the chunks; the loop of
  `consume_requests` ends because each turn shortens the buffer.
-/
import RemoteX11.Recode.Machine

namespace RemoteX11.Recode

open RemoteX11.Lib

/-! ## The accesses -/

/-- `u16_at`. -/
def u16AtChecked (b : Bytes) (at_ : Nat) (bigEndian : Bool) : Option Nat :=
  (readAt b at_ 2).map (orderedNat bigEndian)

/-- `u32_at`. -/
def u32AtChecked (b : Bytes) (at_ : Nat) (bigEndian : Bool) : Option Nat :=
  (readAt b at_ 4).map (orderedNat bigEndian)

/-- The first part of `classify_put_image`. -/
def putImageExtentChecked (req : Bytes) (bigEndian : Bool) : Option (Option (Nat × Nat)) := do
  let lenField ← u16AtChecked req 2 bigEndian
  if lenField = 0 then
    if req.length < 8 then return none
    let words ← u32AtChecked req 4 bigEndian
    let total := words * 4
    return if total > maxRecodeRequest ∨ total > req.length then none else some (28, total)
  else
    let total := lenField * 4
    return if total > maxRecodeRequest ∨ total > req.length then none else some (24, total)

/-- `classify_put_image`. -/
def classifyPutImageChecked (req : Bytes) (bigEndian : Bool) : Option (Option PutImageFrame) := do
  let opcode ← req[0]?
  if opcode ≠ opPutImage then return none
  let format ← req[1]?
  if format ≠ formatZpixmap then return none
  match ← putImageExtentChecked req bigEndian with
  | none => return none
  | some (dataOff, total) =>
    let leftPad ← req[dataOff - 4]?
    let depth ← req[dataOff - 3]?
    if leftPad ≠ 0 ∨ ¬ (depth = 24 ∨ depth = 32) then return none
    let width ← u16AtChecked req (dataOff - 12) bigEndian
    let height ← u16AtChecked req (dataOff - 10) bigEndian
    if width = 0 ∨ height = 0 then return none
    let dataLen := width * height * 4
    return if dataOff + dataLen > total then none
      else some ⟨dataOff, width, height, dataLen, total, bigEndian⟩

/-- `unpack_rgb`. -/
def unpackRgbChecked (f : PutImageFrame) (pixels : Bytes) : Option Bytes :=
  (slice pixels 0 (f.width * f.height * 4)).map (unpackRgb f.bigEndian)

/-- `encode_container`, which reads the request up to its image data. -/
def encodeContainerChecked (codec : Codec) (quality : UInt8) (f : PutImageFrame) (req blob : Bytes) :
    Option Bytes :=
  (slice req 0 f.dataOff).map fun prefix_ => encodeContainer codec quality f prefix_ blob

/-- The blob that `try_recode_at` encodes the pixels to. -/
def encodeBlobChecked (K : ImageCodecs) (spec : RecodeSpec) (f : PutImageFrame) (pixels : Bytes) :
    Option (Option Bytes) :=
  match spec.codec with
  | .png => some (some (K.encodeRawPng pixels))
  | .jpeg => (unpackRgbChecked f pixels).map fun rgb => K.encodeJpeg rgb f.width f.height spec.quality

/-- `try_recode_at`: the container unit, when there is one. -/
def tryRecodeAtChecked (K : ImageCodecs) (spec : RecodeSpec) (buf : Bytes) (total : Nat)
    (f : PutImageFrame) : Option (Option Bytes) := do
  let pixels ← slice buf f.dataOff (f.dataOff + f.dataLen)
  match ← encodeBlobChecked K spec f pixels with
  | none => return none
  | some blob =>
    if blob.isEmpty then return none
    if blob.length + (1 + 32 + f.dataOff) ≥ f.dataLen then return none
    let req ← slice buf 0 total
    let container ← encodeContainerChecked spec.codec spec.quality f req blob
    return some (1 :: container)

/-- The container unit of the complete request at the head of the buffer, when there is one. -/
def recodedChecked (K : ImageCodecs) (spec : RecodeSpec) (bigEndian : Bool) (buf : Bytes) (total : Nat) :
    Option (Option Bytes) := do
  let req ← slice buf 0 total
  match ← classifyPutImageChecked req bigEndian with
  | none => return none
  | some f => if f.dataLen < spec.minBytes then return none else tryRecodeAtChecked K spec buf total f

/-- The length that `consume_requests` reads. -/
def requestTotalChecked (buf : Bytes) (bigEndian : Bool) : Option (Option Nat) := do
  if buf.length < 4 then return none
  let lenField ← u16AtChecked buf 2 bigEndian
  if lenField = 0 then
    if buf.length < 8 then return none
    let words ← u32AtChecked buf 4 bigEndian
    return some (words * 4)
  else return some (lenField * 4)

/-- `setup_message_len`. -/
def setupMessageLenChecked (buf : Bytes) : Option (Option (Bool × Nat)) := do
  if buf.length < setupHeaderLen then return none
  let first ← buf[0]?
  let order : Option Bool := if first = 66 then some true else if first = 108 then some false else none
  match order with
  | none => return none
  | some bigEndian =>
    let nameLen ← u16AtChecked buf 6 bigEndian
    let authLen ← u16AtChecked buf 8 bigEndian
    return some (bigEndian, setupHeaderLen + pad4 nameLen + pad4 authLen)

/-! ## The same results -/

theorem u16AtChecked_eq {b : Bytes} {at_ : Nat} (bigEndian : Bool) (h : at_ + 2 ≤ b.length) :
    u16AtChecked b at_ bigEndian = some (u16At b at_ bigEndian) := by
  rw [u16AtChecked, readAt_of_le h, Option.map_some, u16At]

theorem u32AtChecked_eq {b : Bytes} {at_ : Nat} (bigEndian : Bool) (h : at_ + 4 ≤ b.length) :
    u32AtChecked b at_ bigEndian = some (u32At b at_ bigEndian) := by
  rw [u32AtChecked, readAt_of_le h, Option.map_some, u32At]

theorem putImageExtentChecked_eq {req : Bytes} (bigEndian : Bool) (h : 4 ≤ req.length) :
    putImageExtentChecked req bigEndian = some (putImageExtent req bigEndian) := by
  unfold putImageExtentChecked putImageExtent
  simp only [u16AtChecked_eq bigEndian (show 2 + 2 ≤ req.length by omega), Option.bind_eq_bind,
    Option.bind_some]
  split
  · split
    · rfl
    · simp only [u32AtChecked_eq bigEndian (show 4 + 4 ≤ req.length by omega), Option.bind_some]
      rfl
  · rfl

/-- The check of the opcode and the format, byte by byte. -/
theorem opcode_format_checked {α : Type} {b : Bytes} (h : 2 ≤ b.length) (rest : Option (Option α)) :
    (b[0]?.bind fun opcode =>
      if opcode ≠ opPutImage then some none
      else b[1]?.bind fun format => if format ≠ formatZpixmap then some none else rest) =
      if b.getD 0 0 ≠ opPutImage ∨ b.getD 1 0 ≠ formatZpixmap then some none else rest := by
  rw [getElem?_eq_some_getD (show 0 < b.length by omega), getElem?_eq_some_getD (show 1 < b.length by omega),
    Option.bind_some, Option.bind_some]
  by_cases hop : b.getD 0 0 = opPutImage
  · rw [if_neg (not_not.mpr hop)]
    by_cases hformat : b.getD 1 0 = formatZpixmap
    · rw [if_neg (not_not.mpr hformat), if_neg (not_or.mpr ⟨not_not.mpr hop, not_not.mpr hformat⟩)]
    · rw [if_pos hformat, if_pos (.inr hformat)]
  · rw [if_pos hop, if_pos (.inl hop)]

theorem classifyPutImageChecked_eq {req : Bytes} (bigEndian : Bool) (h : 4 ≤ req.length) :
    classifyPutImageChecked req bigEndian = classifyPutImage req bigEndian := by
  unfold classifyPutImageChecked classifyPutImage
  simp only [putImageExtentChecked_eq bigEndian h, Option.bind_eq_bind, Option.bind_some, Option.pure_def,
    opcode_format_checked (show 2 ≤ req.length by omega)]
  split
  · rfl
  · cases hextent : putImageExtent req bigEndian with
    | none => rfl
    | some extent =>
      obtain ⟨dataOff, total⟩ := extent
      obtain ⟨hoff, -, -⟩ := putImageExtent_bounds hextent
      simp only
      by_cases hshort : req.length < dataOff - 2
      · have hdepth : req[dataOff - 3]? = none := List.getElem?_eq_none (by omega)
        rw [if_pos hshort, hdepth]
        cases req[dataOff - 4]? <;> rfl
      · rw [if_neg hshort, getElem?_eq_some_getD (show dataOff - 4 < req.length by omega),
          getElem?_eq_some_getD (show dataOff - 3 < req.length by omega),
          u16AtChecked_eq bigEndian (show dataOff - 12 + 2 ≤ req.length by omega),
          u16AtChecked_eq bigEndian (show dataOff - 10 + 2 ≤ req.length by omega)]
        simp only [Option.bind_some]
        split
        · rfl
        · split
          · rfl
          · split <;> rfl

theorem encodeContainerChecked_eq {f : PutImageFrame} {req : Bytes} (codec : Codec) (quality : UInt8)
    (blob : Bytes) (h : f.dataOff ≤ req.length) :
    encodeContainerChecked codec quality f req blob = some (encodeContainer codec quality f req blob) := by
  rw [encodeContainerChecked, slice_zero h, Option.map_some]
  unfold encodeContainer
  rw [List.take_take, Nat.min_self]

/-- The pixels of a recognised request are in the buffer, and its prefix is. -/
theorem tryRecodeAtChecked_eq (K : ImageCodecs) (spec : RecodeSpec) {buf : Bytes} {total : Nat}
    {bigEndian : Bool} {f : PutImageFrame} (h : Recognised (buf.take total) bigEndian f)
    (hlen : total ≤ buf.length) (hmin : ¬ f.dataLen < spec.minBytes) :
    tryRecodeAtChecked K spec buf total f = some ((shippedBlob K spec f (buf.take total)).map
      fun blob => (⟨buf.take total, f, blob⟩ : Shipped).unit spec) := by
  have hreq : (buf.take total).length = total := List.length_take_of_le hlen
  obtain ⟨-, htotal⟩ := h.bounds
  rw [hreq] at htotal
  have hfits := h.fits
  have hpixels : slice buf f.dataOff (f.dataOff + f.dataLen) = some (f.pixels (buf.take total)) := by
    rw [slice_of_le (Nat.le_add_right _ _) (by omega), Nat.add_sub_cancel_left, PutImageFrame.pixels,
      List.drop_take, List.take_take, Nat.min_eq_left (by omega)]
  have hrgb : unpackRgbChecked f (f.pixels (buf.take total)) =
      some (unpackRgb f.bigEndian (f.pixels (buf.take total))) := by
    have hlength : (f.pixels (buf.take total)).length = f.dataLen := by
      rw [PutImageFrame.pixels, List.length_take, List.length_drop, hreq]
      omega
    rw [unpackRgbChecked, ← h.dataLen, slice_zero (Nat.le_of_eq hlength.symm), ← hlength,
      List.take_length, Option.map_some]
  have hencoded : encodeBlobChecked K spec f (f.pixels (buf.take total)) =
      some (encodeBlob K spec f (buf.take total)) := by
    unfold encodeBlobChecked encodeBlob
    cases spec.codec with
    | png => rfl
    | jpeg => rw [hrgb, Option.map_some]
  unfold tryRecodeAtChecked shippedBlob
  rw [hpixels, if_neg hmin]
  simp only [Option.bind_eq_bind, Option.bind_some, hencoded]
  cases encodeBlob K spec f (buf.take total) with
  | none => rfl
  | some blob =>
    simp only
    by_cases hempty : blob.isEmpty = true
    · rw [if_pos hempty, if_pos hempty]
      rfl
    · rw [if_neg hempty, if_neg hempty]
      by_cases hwin : blob.length + (1 + 32 + f.dataOff) ≥ f.dataLen
      · rw [if_pos hwin, if_pos hwin]
        rfl
      · rw [if_neg hwin, if_neg hwin, slice_zero hlen, Option.bind_some,
          encodeContainerChecked_eq _ _ _ (by omega)]
        rfl

theorem recodedChecked_eq (K : ImageCodecs) (spec : RecodeSpec) (bigEndian : Bool) {buf : Bytes}
    {total : Nat} (hfour : 4 ≤ total) (hlen : total ≤ buf.length) :
    recodedChecked K spec bigEndian buf total =
      (shipping K spec (buf.take total) bigEndian).map (·.map (Shipped.unit · spec)) := by
  have hreq : 4 ≤ (buf.take total).length := by rwa [List.length_take_of_le hlen]
  unfold recodedChecked shipping
  simp only [slice_zero hlen, Option.bind_eq_bind, Option.bind_some, classifyPutImageChecked_eq bigEndian hreq]
  cases hclassify : classifyPutImage (buf.take total) bigEndian with
  | none => rfl
  | some candidate =>
    cases candidate with
    | none => rfl
    | some f =>
      simp only [Option.bind_some, Option.map_some]
      by_cases hmin : f.dataLen < spec.minBytes
      · rw [if_pos hmin, shippedBlob, if_pos hmin]
        rfl
      · rw [if_neg hmin, tryRecodeAtChecked_eq K spec (classifyPutImage_recognised hclassify) hlen hmin,
          Option.map_map]
        rfl

theorem requestTotalChecked_eq (buf : Bytes) (bigEndian : Bool) :
    requestTotalChecked buf bigEndian = some (requestTotal buf bigEndian) := by
  unfold requestTotalChecked requestTotal
  by_cases h4 : buf.length < 4
  · rw [if_pos h4, if_pos h4]
    rfl
  · rw [if_neg h4, if_neg h4]
    simp only [u16AtChecked_eq bigEndian (show 2 + 2 ≤ buf.length by omega), Option.bind_eq_bind,
      Option.bind_some]
    split
    · by_cases h8 : buf.length < 8
      · rw [if_pos h8, if_pos h8]
        rfl
      · rw [if_neg h8, if_neg h8, u32AtChecked_eq bigEndian (show 4 + 4 ≤ buf.length by omega)]
        rfl
    · rfl

theorem setupMessageLenChecked_eq (buf : Bytes) :
    setupMessageLenChecked buf = some (setupMessageLen buf) := by
  unfold setupMessageLenChecked setupMessageLen
  by_cases hshort : buf.length < setupHeaderLen
  · rw [if_pos hshort, if_pos hshort]
    rfl
  · rw [if_neg hshort, if_neg hshort]
    unfold setupHeaderLen at hshort ⊢
    simp only [getElem?_eq_some_getD (show 0 < buf.length by omega), Option.bind_eq_bind, Option.bind_some]
    cases (if buf.getD 0 0 = 66 then some true else if buf.getD 0 0 = 108 then some false else none :
        Option Bool) with
    | none => rfl
    | some bigEndian =>
      simp only
      rw [u16AtChecked_eq bigEndian (show 6 + 2 ≤ buf.length by omega),
        u16AtChecked_eq bigEndian (show 8 + 2 ≤ buf.length by omega)]
      rfl

namespace DownstreamReencoder

/-- `consume_requests`. -/
def consumeRequestsChecked (K : ImageCodecs) (m : DownstreamReencoder) (out : List Bytes) :
    Option (DownstreamReencoder × List Bytes) :=
  if m.disabled then some (m.passRaw, out)
  else
    match requestTotalChecked m.buf m.bigEndian with
    | none => none
    | some none => some (m, out)
    | some (some total) =>
      if _hrange : total < 4 ∨ total > maxRecodeRequest then some (m.passRaw, out)
      else if _hlen : m.buf.length < total then some (m, out)
      else
        match recodedChecked K m.spec m.bigEndian m.buf total, slice m.buf 0 total,
          _hdrain : drain m.buf total with
        | some (some unit), _, some rest =>
          let flushed := m.flushRaw out
          consumeRequestsChecked K { flushed.1 with buf := rest } (flushed.2 ++ [unit])
        | some none, some req, some rest =>
          consumeRequestsChecked K { m with rawAcc := m.rawAcc ++ req, buf := rest } out
        | _, _, _ => none
termination_by m.buf.length
decreasing_by
  all_goals
    obtain ⟨-, rfl⟩ := drain_eq_some _hdrain
    simp only [List.length_drop]
    omega

/-- `consume_setup`. -/
def consumeSetupChecked (K : ImageCodecs) (m : DownstreamReencoder) (out : List Bytes) :
    Option (DownstreamReencoder × List Bytes) :=
  if m.buf.head?.any fun b => b ≠ 66 ∧ b ≠ 108 then some (m.passRaw, out)
  else do
    match ← setupMessageLenChecked m.buf with
    | none => return if m.buf.length > 64 * 1024 then (m.passRaw, out) else (m, out)
    | some (bigEndian, len) =>
      if m.buf.length < len then return (m, out)
      let setup ← slice m.buf 0 len
      let rest ← drain m.buf len
      { m with
        rawAcc := m.rawAcc ++ setup, buf := rest, bigEndian := bigEndian, stage := .requests }
        |>.consumeRequestsChecked K out

/-- `push`. -/
def pushChecked (K : ImageCodecs) (m : DownstreamReencoder) (chunk : Bytes) (out : List Bytes) :
    Option (DownstreamReencoder × List Bytes) :=
  let m := { m with buf := m.buf ++ chunk }
  let consumed := match m.stage with
    | .setup => m.consumeSetupChecked K out
    | .requests => m.consumeRequestsChecked K out
  consumed.map fun (m, out) => m.flushRaw out

/-- Successive pushes. -/
def pushAllChecked (K : ImageCodecs) (m : DownstreamReencoder) :
    List Bytes → List Bytes → Option (DownstreamReencoder × List Bytes)
  | [], out => some (m, out)
  | chunk :: chunks, out => (m.pushChecked K chunk out).bind fun (m, out) => m.pushAllChecked K chunks out

theorem flushRaw_fst (m : DownstreamReencoder) (out : List Bytes) :
    (m.flushRaw out).1 = { m with rawAcc := [] } := by
  unfold flushRaw
  split
  · rename_i hempty
    show m = { m with rawAcc := [] }
    rw [← List.isEmpty_iff.mp hempty]
  · rfl

/-- One turn of the loop, for a complete request: its slices are in range. -/
theorem consumeRequestsChecked_turn (K : ImageCodecs) {m : DownstreamReencoder} (out : List Bytes)
    {total : Nat} (hdisabled : ¬ m.disabled = true) (htotal : requestTotal m.buf m.bigEndian = some total)
    (hrange : ¬ (total < 4 ∨ total > maxRecodeRequest)) (hlen : ¬ m.buf.length < total) :
    m.consumeRequestsChecked K out = (recodedChecked K m.spec m.bigEndian m.buf total).bind fun
      | none => consumeRequestsChecked K (m.keepRaw total) out
      | some unit => consumeRequestsChecked K { m with rawAcc := [], buf := m.buf.drop total }
          ((m.flushRaw out).2 ++ [unit]) := by
  have hle : total ≤ m.buf.length := Nat.le_of_not_lt hlen
  rw [consumeRequestsChecked, if_neg hdisabled, requestTotalChecked_eq, htotal]
  simp only [dif_neg hrange, dif_neg hlen, slice_zero hle]
  split
  · rename_i unit rest hrecoded hdrain
    obtain ⟨-, rfl⟩ := drain_eq_some hdrain
    rw [hrecoded, Option.bind_some, flushRaw_fst]
  · rename_i req rest hrecoded hreq hdrain
    obtain ⟨-, rfl⟩ := drain_eq_some hdrain
    cases hreq
    rw [hrecoded, Option.bind_some]
    rfl
  · rename_i hunit hraw
    cases hrecoded : recodedChecked K m.spec m.bigEndian m.buf total with
    | none => rfl
    | some recoded =>
      cases recoded with
      | none => exact absurd (drain_of_le hle) (hraw _ _ hrecoded rfl)
      | some unit => exact absurd (drain_of_le hle) (hunit _ _ hrecoded)

theorem consumeRequestsChecked_eq (K : ImageCodecs) (m : DownstreamReencoder) (out : List Bytes) :
    m.consumeRequestsChecked K out = m.consumeRequests K out := by
  fun_induction consumeRequests K m out with
  | case1 m out hdisabled => rw [consumeRequestsChecked, if_pos hdisabled]
  | case2 m out hdisabled htotal =>
    rw [consumeRequestsChecked, if_neg hdisabled, requestTotalChecked_eq, htotal]
  | case3 m out hdisabled total htotal hrange =>
    rw [consumeRequestsChecked, if_neg hdisabled, requestTotalChecked_eq, htotal]
    simp only [dif_pos hrange]
  | case4 m out hdisabled total htotal hrange hlen =>
    rw [consumeRequestsChecked, if_neg hdisabled, requestTotalChecked_eq, htotal]
    simp only [dif_neg hrange, dif_pos hlen]
  | case5 m out hdisabled total htotal hrange hlen hship =>
    rw [consumeRequestsChecked_turn K out hdisabled htotal hrange hlen,
      recodedChecked_eq K m.spec m.bigEndian (by omega) (Nat.le_of_not_lt hlen), hship]
    rfl
  | case6 m out hdisabled total htotal hrange hlen hship ih =>
    rw [consumeRequestsChecked_turn K out hdisabled htotal hrange hlen,
      recodedChecked_eq K m.spec m.bigEndian (by omega) (Nat.le_of_not_lt hlen), hship]
    exact ih
  | case7 m out hdisabled total htotal hrange hlen s hship flushed ih =>
    rw [consumeRequestsChecked_turn K out hdisabled htotal hrange hlen,
      recodedChecked_eq K m.spec m.bigEndian (by omega) (Nat.le_of_not_lt hlen), hship]
    exact ih

theorem consumeSetupChecked_eq (K : ImageCodecs) (m : DownstreamReencoder) (out : List Bytes) :
    m.consumeSetupChecked K out = m.consumeSetup K out := by
  unfold consumeSetupChecked consumeSetup
  by_cases hhead : (m.buf.head?.any fun b => b ≠ 66 ∧ b ≠ 108) = true
  · rw [if_pos hhead, if_pos hhead]
  · rw [if_neg hhead, if_neg hhead, setupMessageLenChecked_eq]
    simp only [Option.bind_eq_bind, Option.bind_some]
    cases setupMessageLen m.buf with
    | none =>
      simp only
      split <;> rfl
    | some header =>
      obtain ⟨bigEndian, len⟩ := header
      simp only
      by_cases hlen : m.buf.length < len
      · rw [if_pos hlen, if_pos hlen]
        rfl
      · rw [if_neg hlen, if_neg hlen, slice_zero (Nat.le_of_not_lt hlen), drain_of_le (Nat.le_of_not_lt hlen)]
        exact consumeRequestsChecked_eq K _ out

theorem pushChecked_eq (K : ImageCodecs) (m : DownstreamReencoder) (chunk : Bytes) (out : List Bytes) :
    m.pushChecked K chunk out = m.push K chunk out := by
  cases hstage : m.stage with
  | setup => simp only [pushChecked, push, hstage, consumeSetupChecked_eq]
  | requests => simp only [pushChecked, push, hstage, consumeRequestsChecked_eq]

/-- **The same results.** The accesses that `push` does not check are in range. -/
theorem pushAllChecked_eq (K : ImageCodecs) (m : DownstreamReencoder) (chunks out : List Bytes) :
    m.pushAllChecked K chunks out = m.pushAll K chunks out := by
  induction chunks generalizing m out with
  | nil => rfl
  | cons chunk chunks ih =>
    rw [pushAllChecked, pushAll, pushChecked_eq]
    apply congrArg (Option.bind _)
    funext r
    exact ih r.1 r.2

end DownstreamReencoder

/-! ## Requests that are too short -/

/-- A `PutImage` request in the format the encoder takes, shorter than its fixed part. -/
def ShortPutImage (req : Bytes) (bigEndian : Bool) : Prop :=
  req.getD 0 0 = opPutImage ∧ req.getD 1 0 = formatZpixmap ∧
    if u16At req 2 bigEndian = 0 then 8 ≤ req.length ∧ req.length < 28 else req.length < 24

instance (req : Bytes) (bigEndian : Bool) : Decidable (ShortPutImage req bigEndian) :=
  inferInstanceAs (Decidable (_ ∧ _ ∧ ite _ _ _))

/-- The requests at the head of the bytes are complete up to one that is too short, and have lengths the
machine accepts. -/
def reachesShort (bigEndian : Bool) (buf : Bytes) : Bool :=
  match requestTotal buf bigEndian with
  | none => false
  | some total =>
    if _hrange : total < 4 ∨ total > maxRecodeRequest then false
    else if _hlen : buf.length < total then false
    else decide (ShortPutImage (buf.take total) bigEndian) || reachesShort bigEndian (buf.drop total)
termination_by buf.length
decreasing_by
  rw [List.length_drop]
  omega

/-- The same of a whole stream, from its setup request on. -/
def streamReachesShort (stream : Bytes) : Bool :=
  match setupMessageLen stream with
  | none => false
  | some (bigEndian, len) =>
    if stream.length < len then false else reachesShort bigEndian (stream.drop len)

/-- The same of the bytes from the machine's buffer on. -/
def DownstreamReencoder.reachesShort (m : DownstreamReencoder) (bytes : Bytes) : Bool :=
  if m.disabled then false
  else
    match m.stage with
    | .setup => streamReachesShort bytes
    | .requests => Recode.reachesShort m.bigEndian bytes

theorem reachesShort_append {bigEndian : Bool} {buf : Bytes} {total : Nat}
    (h : requestTotal buf bigEndian = some total) (hrange : ¬ (total < 4 ∨ total > maxRecodeRequest))
    (hlen : ¬ buf.length < total) (more : Bytes) :
    reachesShort bigEndian (buf ++ more) = (decide (ShortPutImage (buf.take total) bigEndian) ||
      reachesShort bigEndian (buf.drop total ++ more)) := by
  have hlen' : ¬ (buf ++ more).length < total := by
    rw [List.length_append]
    omega
  rw [reachesShort, requestTotal_append more h]
  simp only
  rw [dif_neg hrange, dif_neg hlen', List.take_append_of_le_length (Nat.le_of_not_lt hlen),
    List.drop_append_of_le_length (Nat.le_of_not_lt hlen)]

theorem requestTotal_mod {buf : Bytes} {bigEndian : Bool} {total : Nat}
    (h : requestTotal buf bigEndian = some total) : total % 4 = 0 := by
  unfold requestTotal at h
  simp only at h
  split at h
  · cases h
  · split at h
    · split at h
      · cases h
      · cases h
        exact Nat.mul_mod_left _ 4
    · cases h
      exact Nat.mul_mod_left _ 4

/-- What the encoder reads of the length of a complete request. -/
theorem putImageExtent_of_total {buf : Bytes} {bigEndian : Bool} {total : Nat}
    (h : requestTotal buf bigEndian = some total) (hrange : ¬ (total < 4 ∨ total > maxRecodeRequest))
    (hlen : total ≤ buf.length) : putImageExtent (buf.take total) bigEndian =
      if u16At (buf.take total) 2 bigEndian = 0 then if total < 8 then none else some (28, total)
      else some (24, total) := by
  have hreq : (buf.take total).length = total := List.length_take_of_le hlen
  have hbuf : buf.take total ++ buf.drop total = buf := List.take_append_drop total buf
  have hfield : u16At buf 2 bigEndian = u16At (buf.take total) 2 bigEndian := by
    conv => left; rw [← hbuf]
    unfold u16At
    rw [field_append _ (by omega)]
  unfold requestTotal at h
  rw [if_neg (by omega)] at h
  unfold putImageExtent
  simp only [hreq, ← hfield] at h ⊢
  by_cases hzero : u16At buf 2 bigEndian = 0
  · rw [if_pos hzero] at h
    rw [if_pos hzero, if_pos hzero]
    split at h
    · cases h
    · by_cases h8 : total < 8
      · rw [if_pos h8, if_pos h8]
      · have hwords : u32At (buf.take total) 4 bigEndian = u32At buf 4 bigEndian := by
          conv => right; rw [← hbuf]
          unfold u32At
          rw [field_append _ (by omega)]
        cases h
        rw [if_neg h8, if_neg h8, hwords, if_neg (by omega)]
  · rw [if_neg hzero] at h
    rw [if_neg hzero, if_neg hzero]
    cases h
    rw [if_neg (by omega)]

/-- Where `classify_put_image` panics. -/
theorem classifyPutImage_eq_none {req : Bytes} {bigEndian : Bool} :
    classifyPutImage req bigEndian = none ↔ req.getD 0 0 = opPutImage ∧ req.getD 1 0 = formatZpixmap ∧
      ∃ dataOff total, putImageExtent req bigEndian = some (dataOff, total) ∧ req.length < dataOff - 2 := by
  unfold classifyPutImage
  by_cases hother : req.getD 0 0 ≠ opPutImage ∨ req.getD 1 0 ≠ formatZpixmap
  · rw [if_pos hother]
    refine iff_of_false (by simp) ?_
    rintro ⟨hop, hformat, -⟩
    exact hother.elim (absurd hop) (absurd hformat)
  · rw [if_neg hother]
    rw [not_or, not_not, not_not] at hother
    cases putImageExtent req bigEndian with
    | none => simp
    | some extent =>
      obtain ⟨dataOff, total⟩ := extent
      simp only
      by_cases hshort : req.length < dataOff - 2
      · rw [if_pos hshort]
        exact iff_of_true rfl ⟨hother.1, hother.2, dataOff, total, rfl, hshort⟩
      · rw [if_neg hshort]
        refine iff_of_false ?_ ?_
        · split
          · simp
          · split
            · simp
            · split <;> simp
        · rintro ⟨-, -, dataOff', total', hextent, hlt⟩
          cases hextent
          exact hshort hlt

/-- The encoder reads past the end of a complete request exactly when it is too short. -/
theorem shipping_eq_none (K : ImageCodecs) (spec : RecodeSpec) {buf : Bytes} {bigEndian : Bool}
    {total : Nat} (h : requestTotal buf bigEndian = some total)
    (hrange : ¬ (total < 4 ∨ total > maxRecodeRequest)) (hlen : total ≤ buf.length) :
    shipping K spec (buf.take total) bigEndian = none ↔ ShortPutImage (buf.take total) bigEndian := by
  have hreq : (buf.take total).length = total := List.length_take_of_le hlen
  have hmod := requestTotal_mod h
  rw [shipping, Option.map_eq_none_iff, classifyPutImage_eq_none, putImageExtent_of_total h hrange hlen,
    ShortPutImage, hreq]
  apply and_congr_right'
  apply and_congr_right'
  by_cases hzero : u16At (buf.take total) 2 bigEndian = 0
  · rw [if_pos hzero, if_pos hzero]
    by_cases h8 : total < 8
    · rw [if_pos h8]
      refine iff_of_false ?_ (by omega)
      rintro ⟨_, _, hextent, -⟩
      cases hextent
    · rw [if_neg h8]
      constructor
      · rintro ⟨_, _, hextent, hshort⟩
        cases hextent
        omega
      · intro hshort
        exact ⟨28, total, rfl, by omega⟩
  · rw [if_neg hzero, if_neg hzero]
    constructor
    · rintro ⟨_, _, hextent, hshort⟩
      cases hextent
      omega
    · intro hshort
      exact ⟨24, total, rfl, by omega⟩

/-! ## One push, and any number of them -/

namespace DownstreamReencoder

/-- What a call says of the bytes it was made on: a panic, that they reach a short request whatever follows;
a return, that what is held does not, and that what follows does if it does in the machine that is left. -/
def Foresees (m : DownstreamReencoder) (bytes : Bytes) :
    Option (DownstreamReencoder × List Bytes) → Prop
  | none => ∀ more, m.reachesShort (bytes ++ more) = true
  | some (m', _) => (∀ more, m'.reachesShort (m'.buf ++ more) = m.reachesShort (bytes ++ more)) ∧
      m'.reachesShort m'.buf = false

/-- A step that consumes a part of the buffer. -/
theorem Foresees.after {m u : DownstreamReencoder} {r : Option (DownstreamReencoder × List Bytes)}
    (hstep : ∀ more, u.reachesShort (u.buf ++ more) = m.reachesShort (m.buf ++ more))
    (h : u.Foresees u.buf r) : m.Foresees m.buf r := by
  cases r with
  | none => exact fun more => (hstep more).symm.trans (h more)
  | some r => exact ⟨fun more => (h.1 more).trans (hstep more), h.2⟩

theorem reachesShort_disabled {m : DownstreamReencoder} (h : m.disabled = true) (bytes : Bytes) :
    m.reachesShort bytes = false := if_pos h

theorem reachesShort_requests {m : DownstreamReencoder} (hstage : m.stage = .requests)
    (hdisabled : ¬ m.disabled = true) (bytes : Bytes) :
    m.reachesShort bytes = Recode.reachesShort m.bigEndian bytes := by
  rw [reachesShort, if_neg hdisabled, hstage]

/-- Disabled, the machine looks at nothing. -/
theorem foresees_passRaw {m : DownstreamReencoder}
    (h : ∀ more, m.reachesShort (m.buf ++ more) = false) (out : List Bytes) :
    m.Foresees m.buf (some (m.passRaw, out)) :=
  ⟨fun more => (reachesShort_disabled rfl _).trans (h more).symm, reachesShort_disabled rfl _⟩

/-- The machine waits. -/
theorem foresees_wait {m : DownstreamReencoder} (h : m.reachesShort m.buf = false) (out : List Bytes) :
    m.Foresees m.buf (some (m, out)) := ⟨fun _ => rfl, h⟩

/-- A complete request that the machine gets past. -/
theorem reachesShort_past {K : ImageCodecs} {m : DownstreamReencoder} (hstage : m.stage = .requests)
    (hdisabled : ¬ m.disabled = true) {total : Nat} (htotal : requestTotal m.buf m.bigEndian = some total)
    (hrange : ¬ (total < 4 ∨ total > maxRecodeRequest)) (hlen : ¬ m.buf.length < total)
    {r : Option Shipped} (hship : shipping K m.spec (m.buf.take total) m.bigEndian = some r) (more : Bytes) :
    m.reachesShort (m.buf ++ more) = Recode.reachesShort m.bigEndian (m.buf.drop total ++ more) := by
  have hlong : ¬ ShortPutImage (m.buf.take total) m.bigEndian := by
    rw [← shipping_eq_none K m.spec htotal hrange (Nat.le_of_not_lt hlen), hship]
    simp
  rw [reachesShort_requests hstage hdisabled, reachesShort_append htotal hrange hlen, decide_eq_false hlong,
    Bool.false_or]

theorem consumeRequests_foresees (K : ImageCodecs) {m : DownstreamReencoder} (hstage : m.stage = .requests)
    (out : List Bytes) : m.Foresees m.buf (m.consumeRequests K out) := by
  fun_induction consumeRequests K m out with
  | case1 m out hdisabled => exact foresees_passRaw (fun more => reachesShort_disabled hdisabled _) out
  | case2 m out hdisabled htotal =>
    apply foresees_wait
    rw [reachesShort_requests hstage hdisabled, Recode.reachesShort, htotal]
  | case3 m out hdisabled total htotal hrange =>
    apply foresees_passRaw
    intro more
    rw [reachesShort_requests hstage hdisabled, Recode.reachesShort, requestTotal_append more htotal]
    simp only [dif_pos hrange]
  | case4 m out hdisabled total htotal hrange hlen =>
    apply foresees_wait
    rw [reachesShort_requests hstage hdisabled, Recode.reachesShort, htotal]
    simp only [dif_neg hrange, dif_pos hlen]
  | case5 m out hdisabled total htotal hrange hlen hship =>
    intro more
    have hshort := (shipping_eq_none K m.spec htotal hrange (Nat.le_of_not_lt hlen)).mp hship
    rw [reachesShort_requests hstage hdisabled, reachesShort_append htotal hrange hlen, decide_eq_true hshort,
      Bool.true_or]
  | case6 m out hdisabled total htotal hrange hlen hship ih =>
    apply Foresees.after _ (ih hstage)
    intro more
    rw [reachesShort_past hstage hdisabled htotal hrange hlen hship]
    exact reachesShort_requests (m := m.keepRaw total) hstage hdisabled _
  | case7 m out hdisabled total htotal hrange hlen s hship flushed ih =>
    apply Foresees.after _ (ih hstage)
    intro more
    rw [reachesShort_past hstage hdisabled htotal hrange hlen hship]
    exact reachesShort_requests (m := { m with rawAcc := [], buf := m.buf.drop total }) hstage hdisabled _

theorem consumeSetup_foresees (K : ImageCodecs) {m : DownstreamReencoder} (hstage : m.stage = .setup)
    (out : List Bytes) : m.Foresees m.buf (m.consumeSetup K out) := by
  have hsetup : ∀ bytes, setupMessageLen bytes = none → m.reachesShort bytes = false := by
    intro bytes hnone
    rw [reachesShort]
    split
    · rfl
    · rw [hstage]
      simp only [streamReachesShort, hnone]
  unfold consumeSetup
  split
  · rename_i hhead
    apply foresees_passRaw
    intro more
    apply hsetup
    cases hbuf : m.buf with
    | nil =>
      rw [hbuf] at hhead
      cases hhead
    | cons b rest =>
      rw [hbuf] at hhead
      exact setupMessageLen_of_head _ (by simpa using hhead)
  · rename_i hhead
    split
    · rename_i hnone
      split
      · rename_i hlong
        exact absurd hnone (setupMessageLen_isSome (by unfold setupHeaderLen; omega) hhead)
      · exact foresees_wait (hsetup _ hnone) out
    · rename_i bigEndian len hsome
      split
      · rename_i hshort
        apply foresees_wait
        rw [reachesShort]
        split
        · rfl
        · rw [hstage]
          simp only [streamReachesShort, hsome, if_pos hshort]
      · rename_i hlong
        refine Foresees.after ?_ (consumeRequests_foresees K rfl out)
        intro more
        have hlen : ¬ (m.buf ++ more).length < len := by
          rw [List.length_append]
          omega
        unfold reachesShort
        rw [hstage]
        simp only [streamReachesShort, setupMessageLen_append more hsome, if_neg hlen,
          List.drop_append_of_le_length (Nat.le_of_not_lt hlong)]
        rfl

theorem push_foresees (K : ImageCodecs) (m : DownstreamReencoder) (chunk : Bytes) (out : List Bytes) :
    m.Foresees (m.buf ++ chunk) (m.push K chunk out) := by
  let held : DownstreamReencoder := { m with buf := m.buf ++ chunk }
  have hconsumed : held.Foresees held.buf (match held.stage with
      | .setup => held.consumeSetup K out
      | .requests => held.consumeRequests K out) := by
    split
    · rename_i hstage
      exact consumeSetup_foresees K hstage out
    · rename_i hstage
      exact consumeRequests_foresees K hstage out
  have hflush : ∀ {r : Option (DownstreamReencoder × List Bytes)}, held.Foresees held.buf r →
      m.Foresees (m.buf ++ chunk) (r.map fun (m, out) => m.flushRaw out) := by
    intro r hr
    cases r with
    | none => exact hr
    | some r =>
      obtain ⟨u, out'⟩ := r
      show (∀ more, (u.flushRaw out').1.reachesShort ((u.flushRaw out').1.buf ++ more) = _) ∧
        (u.flushRaw out').1.reachesShort (u.flushRaw out').1.buf = false
      rw [flushRaw_fst]
      exact hr
  exact hflush hconsumed

/-- **Any number of pushes.** -/
theorem pushAll_eq_none {K : ImageCodecs} {m : DownstreamReencoder} (h : m.reachesShort m.buf = false)
    (chunks out : List Bytes) :
    m.pushAll K chunks out = none ↔ m.reachesShort (m.buf ++ chunks.flatten) = true := by
  induction chunks generalizing m out with
  | nil =>
    rw [List.flatten_nil, List.append_nil, h]
    exact iff_of_false (by simp [pushAll]) (by simp)
  | cons chunk chunks ih =>
    have hpush := push_foresees K m chunk out
    rw [pushAll, List.flatten_cons, ← List.append_assoc]
    cases hr : m.push K chunk out with
    | none =>
      rw [hr] at hpush
      exact iff_of_true rfl (hpush chunks.flatten)
    | some r =>
      rw [hr] at hpush
      rw [Option.bind_some, ← hpush.1 chunks.flatten]
      exact ih hpush.2 r.2

/-- **Where the re-encoder panics.** On every stream and however it is chunked, every access of the pushes
is in range, and they return, if and only if the stream does not reach a `PutImage` request that is shorter
than its fixed part. -/
theorem pushAllChecked_in_range_iff (K : ImageCodecs) (spec : RecodeSpec) (chunks : List Bytes) :
    (∃ m out, (new spec).pushAllChecked K chunks [] = some (m, out)) ↔
      streamReachesShort chunks.flatten = false := by
  have hnone := pushAll_eq_none (K := K) (m := new spec) rfl chunks []
  rw [← pushAllChecked_eq] at hnone
  have hstream : (new spec).reachesShort ((new spec).buf ++ chunks.flatten) =
      streamReachesShort chunks.flatten := rfl
  rw [hstream] at hnone
  cases hrun : (new spec).pushAllChecked K chunks [] with
  | none => exact iff_of_false (by simp) (by simp [hnone.mp hrun])
  | some r =>
    refine iff_of_true ⟨r.1, r.2, rfl⟩ ?_
    rw [← Bool.not_eq_true, ← hnone, hrun]
    simp

/-- A plain setup request, and a `PutImage` request of four bytes. -/
theorem four_byte_put_image_out_of_range :
    (new ⟨.jpeg, 80, 16 * 1024⟩).pushAllChecked ⟨id, some, fun _ _ _ _ => none, fun _ => none⟩
      [plainSetup, [72, 2, 1, 0]] [] = none := by
  rw [pushAllChecked_eq, pushAll_eq_none rfl]
  decide +kernel

end DownstreamReencoder

end RemoteX11.Recode
