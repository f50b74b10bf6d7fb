/-
  Recognising a `PutImage` request, and the container it is shipped in (`x11recode/frame.rs`).

  A number read from a request is a `Nat`. `classifyPutImage` can index past the end of a request that is
  shorter than its own fixed part: its outer `none` is that panic.

  `decodeContainer_encode`: what `decode_container` makes of a container the encoder builds. The two have
  checks of their own on the image, and they differ: the decoder refuses a side above 8192.
-/
import RemoteX11.Lib.Bytes

namespace RemoteX11.Recode

open RemoteX11.Lib

/-- `OP_PUT_IMAGE`. -/
def opPutImage : UInt8 := 72

/-- `FORMAT_ZPIXMAP`. -/
def formatZpixmap : UInt8 := 2

/-- `MAX_RECODE_REQUEST`. -/
def maxRecodeRequest : Nat := 16 * 1024 * 1024 + 64

def pad4 (n : Nat) : Nat := (n + 3) / 4 * 4

/-- The number in `bs`, in the byte order of the connection. -/
def orderedNat (bigEndian : Bool) (bs : Bytes) : Nat := if bigEndian then beNat bs else leNat bs

def u16At (b : Bytes) (at_ : Nat) (bigEndian : Bool) : Nat := orderedNat bigEndian ((b.drop at_).take 2)

def u32At (b : Bytes) (at_ : Nat) (bigEndian : Bool) : Nat := orderedNat bigEndian ((b.drop at_).take 4)

/-! ## Recognising a request -/

structure PutImageFrame where
  dataOff : Nat
  width : Nat
  height : Nat
  dataLen : Nat
  total : Nat
  bigEndian : Bool
  deriving DecidableEq, Repr

/-- Where the image data starts and where the request ends. -/
def putImageExtent (req : Bytes) (bigEndian : Bool) : Option (Nat × Nat) :=
  let lenField := u16At req 2 bigEndian
  if lenField = 0 then
    if req.length < 8 then none
    else
      let total := u32At req 4 bigEndian * 4
      if total > maxRecodeRequest ∨ total > req.length then none else some (28, total)
  else
    let total := lenField * 4
    if total > maxRecodeRequest ∨ total > req.length then none else some (24, total)

/-- `classify_put_image`. -/
def classifyPutImage (req : Bytes) (bigEndian : Bool) : Option (Option PutImageFrame) :=
  if req.getD 0 0 ≠ opPutImage ∨ req.getD 1 0 ≠ formatZpixmap then some none
  else
    match putImageExtent req bigEndian with
    | none => some none
    | some (dataOff, total) =>
      -- the left pad and the depth are read without a check
      if req.length < dataOff - 2 then none
      else if req.getD (dataOff - 4) 0 ≠ 0 ∨
          ¬ (req.getD (dataOff - 3) 0 = 24 ∨ req.getD (dataOff - 3) 0 = 32) then some none
      else
        let width := u16At req (dataOff - 12) bigEndian
        let height := u16At req (dataOff - 10) bigEndian
        if width = 0 ∨ height = 0 then some none
        else
          let dataLen := width * height * 4
          if dataOff + dataLen > total then some none
          else some (some ⟨dataOff, width, height, dataLen, total, bigEndian⟩)

/-! ## Pixels -/

/-- `unpack_rgb`: three of each four bytes. -/
def unpackRgb (bigEndian : Bool) : Bytes → Bytes
  | a :: b :: c :: d :: rest =>
    (if bigEndian then [b, c, d] else [c, b, a]) ++ unpackRgb bigEndian rest
  | _ => []

/-- `pack_rgb`: four bytes of each three. -/
def packRgb (bigEndian : Bool) : Bytes → Bytes
  | a :: b :: c :: rest => (if bigEndian then [0, a, b, c] else [c, b, a, 0]) ++ packRgb bigEndian rest
  | _ => []

theorem packRgb_length (bigEndian : Bool) (n : Nat) (rgb : Bytes) (h : rgb.length = n * 3) :
    (packRgb bigEndian rgb).length = n * 4 := by
  induction n generalizing rgb with
  | zero =>
    rw [Nat.zero_mul, List.length_eq_zero_iff] at h
    rw [h]
    rfl
  | succ n ih =>
    obtain ⟨a, b, c, rest, rfl⟩ : ∃ a b c rest, rgb = a :: b :: c :: rest := by
      match rgb with
      | a :: b :: c :: rest => exact ⟨a, b, c, rest, rfl⟩
      | [] | [_] | [_, _] => simp at h <;> omega
    have hrest : rest.length = n * 3 := by
      simp only [List.length_cons] at h
      omega
    have hpixel : (if bigEndian then [0, a, b, c] else [c, b, a, 0] : Bytes).length = 4 := by
      cases bigEndian <;> rfl
    rw [packRgb, List.length_append, hpixel, ih rest hrest]
    omega

theorem unpackRgb_length (bigEndian : Bool) (n : Nat) (pixels : Bytes) (h : pixels.length = n * 4) :
    (unpackRgb bigEndian pixels).length = n * 3 := by
  induction n generalizing pixels with
  | zero =>
    rw [Nat.zero_mul, List.length_eq_zero_iff] at h
    rw [h]
    rfl
  | succ n ih =>
    obtain ⟨a, b, c, d, rest, rfl⟩ : ∃ a b c d rest, pixels = a :: b :: c :: d :: rest := by
      match pixels with
      | a :: b :: c :: d :: rest => exact ⟨a, b, c, d, rest, rfl⟩
      | [] | [_] | [_, _] | [_, _, _] => simp at h <;> omega
    have hrest : rest.length = n * 4 := by
      simp only [List.length_cons] at h
      omega
    have hpixel : (if bigEndian then [b, c, d] else [c, b, a] : Bytes).length = 3 := by
      cases bigEndian <;> rfl
    rw [unpackRgb, List.length_append, hpixel, ih rest hrest]
    omega

/-! ## The container -/

/-- `CONTAINER_MAGIC`. -/
def containerMagic : Bytes := [82, 88, 73, 67]

/-- `CONTAINER_VERSION`. -/
def containerVersion : UInt8 := 1

inductive Codec where
  | jpeg
  | png
  deriving DecidableEq, Repr

def Codec.byte : Codec → UInt8
  | .jpeg => 1
  | .png => 2

def Codec.fromByte (b : UInt8) : Option Codec :=
  if b = 1 then some .jpeg else if b = 2 then some .png else none

/-- `FIXED`: the length of a container without its prefix and its blob. -/
def containerFixed : Nat := 4 + 1 + 1 + 1 + 1 + 6 * 4

/-- `encode_container`. -/
def encodeContainer (codec : Codec) (quality : UInt8) (frame : PutImageFrame) (req blob : Bytes) : Bytes :=
  containerMagic ++ [containerVersion, codec.byte, quality, if frame.bigEndian then 1 else 0] ++
    ([frame.dataOff, frame.total, frame.width, frame.height, frame.dataLen, blob.length].flatMap
      (leBytes 4) ++ (req.take frame.dataOff ++ blob))

structure Container where
  codec : Codec
  bigEndian : Bool
  prefix_ : Bytes
  total : Nat
  width : Nat
  height : Nat
  dataLen : Nat
  blob : Bytes
  deriving DecidableEq, Repr

/-- `decode_container`. -/
def decodeContainer (body : Bytes) : Option Container :=
  if body.length < containerFixed ∨ body.take 4 ≠ containerMagic then none
  else if body.getD 4 0 ≠ containerVersion then none
  else
    match Codec.fromByte (body.getD 5 0) with
    | none => none
    | some codec =>
      let bigEndian := body.getD 7 0 &&& 1 == 1
      let rd (i : Nat) := leNat ((body.drop (8 + i * 4)).take 4)
      let prefixLen := rd 0
      let total := rd 1
      let width := rd 2
      let height := rd 3
      let dataLen := rd 4
      let blobLen := rd 5
      if width = 0 ∨ height = 0 ∨ width > 8192 ∨ height > 8192 ∨ dataLen ≠ width * height * 4 ∨
          prefixLen + blobLen + containerFixed > body.length ∨ total < prefixLen + dataLen then none
      else
        let prefix_ := (body.drop containerFixed).take prefixLen
        if prefix_.length < 2 ∨ prefix_.getD 0 0 ≠ opPutImage ∨ prefix_.getD 1 0 ≠ formatZpixmap then none
        else some ⟨codec, bigEndian, prefix_, total, width, height, dataLen,
          (body.drop (containerFixed + prefixLen)).take blobLen⟩

/-- `rebuild_request`. -/
def rebuildRequest (c : Container) (pixels : Bytes) : Bytes :=
  c.prefix_ ++ pixels.take c.dataLen ++ List.replicate (c.total - c.prefix_.length - c.dataLen) 0

/-! ## The setup request -/

/-- `SETUP_HEADER_LEN`. -/
def setupHeaderLen : Nat := 12

/-- `setup_message_len`: the byte order and the length. -/
def setupMessageLen (buf : Bytes) : Option (Bool × Nat) :=
  if buf.length < setupHeaderLen then none
  else
    let order : Option Bool :=
      if buf.getD 0 0 = 66 then some true else if buf.getD 0 0 = 108 then some false else none
    order.map fun bigEndian =>
      (bigEndian, setupHeaderLen + pad4 (u16At buf 6 bigEndian) + pad4 (u16At buf 8 bigEndian))

/-! ## What the encoder has recognised -/

/-- A request the encoder may ship: what its checks say about it. -/
structure Recognised (req : Bytes) (bigEndian : Bool) (f : PutImageFrame) : Prop where
  opcode : req.getD 0 0 = opPutImage
  format : req.getD 1 0 = formatZpixmap
  dataOff : f.dataOff = 24 ∨ f.dataOff = 28
  extent : putImageExtent req bigEndian = some (f.dataOff, f.total)
  width : 0 < f.width
  height : 0 < f.height
  dataLen : f.dataLen = f.width * f.height * 4
  fits : f.dataOff + f.dataLen ≤ f.total
  order : f.bigEndian = bigEndian

theorem putImageExtent_bounds {req : Bytes} {bigEndian : Bool} {dataOff total : Nat}
    (h : putImageExtent req bigEndian = some (dataOff, total)) :
    (dataOff = 24 ∨ dataOff = 28) ∧ total ≤ maxRecodeRequest ∧ total ≤ req.length := by
  unfold putImageExtent at h
  simp only at h
  split at h
  · split at h
    · cases h
    · split at h
      · cases h
      · cases h
        refine ⟨.inr rfl, ?_, ?_⟩ <;> omega
  · split at h
    · cases h
    · cases h
      refine ⟨.inl rfl, ?_, ?_⟩ <;> omega

theorem classifyPutImage_recognised {req : Bytes} {bigEndian : Bool} {f : PutImageFrame}
    (h : classifyPutImage req bigEndian = some (some f)) : Recognised req bigEndian f := by
  unfold classifyPutImage at h
  split at h
  · cases h
  · rename_i hop
    rw [not_or, not_not, not_not] at hop
    split at h
    · cases h
    · rename_i dataOff total hextent
      split at h
      · cases h
      · split at h
        · cases h
        · simp only at h
          split at h
          · cases h
          · rename_i hside
            split at h
            · cases h
            · rename_i hfits
              cases h
              obtain ⟨hoff, -, -⟩ := putImageExtent_bounds hextent
              rw [not_or] at hside
              exact ⟨hop.1, hop.2, hoff, hextent, Nat.pos_of_ne_zero hside.1,
                Nat.pos_of_ne_zero hside.2, rfl, Nat.le_of_not_gt hfits, rfl⟩

theorem Recognised.bounds {req : Bytes} {bigEndian : Bool} {f : PutImageFrame}
    (h : Recognised req bigEndian f) : f.total ≤ maxRecodeRequest ∧ f.total ≤ req.length :=
  (putImageExtent_bounds h.extent).2

/-- A side of the image is at most its number of bytes. -/
theorem Recognised.sides {req : Bytes} {bigEndian : Bool} {f : PutImageFrame}
    (h : Recognised req bigEndian f) : f.width ≤ f.dataLen ∧ f.height ≤ f.dataLen := by
  have hw := Nat.le_mul_of_pos_right f.width h.height
  have hh := Nat.le_mul_of_pos_left f.height h.width
  rw [h.dataLen]
  omega

/-! ## A container of the encoder at the decoder -/

theorem encodeContainer_length (codec : Codec) (quality : UInt8) (f : PutImageFrame) {req : Bytes}
    (blob : Bytes) (h : f.dataOff ≤ req.length) :
    (encodeContainer codec quality f req blob).length = containerFixed + f.dataOff + blob.length := by
  unfold encodeContainer containerFixed
  rw [List.length_append, List.length_append, List.length_append, flatMap_leBytes_length,
    List.length_append, List.length_take, Nat.min_eq_left h]
  simp only [containerMagic, List.length_cons, List.length_nil]
  omega

/-- The fields of a container read back. -/
theorem encodeContainer_field (codec : Codec) (quality : UInt8) (f : PutImageFrame) (req blob : Bytes)
    (i : Nat) (n : Nat)
    (hi : [f.dataOff, f.total, f.width, f.height, f.dataLen, blob.length][i]? = some n)
    (hn : n < 2 ^ 32) :
    leNat (((encodeContainer codec quality f req blob).drop (8 + i * 4)).take 4) = n := by
  unfold encodeContainer
  rw [← List.drop_drop]
  have hhead : (containerMagic ++
      [containerVersion, codec.byte, quality, if f.bigEndian then 1 else 0]).length = 8 := rfl
  obtain ⟨hlt, hget⟩ := List.getElem?_eq_some_iff.mp hi
  rw [List.drop_left' hhead, take_drop_leBytes 4 _ _ i hlt, hget, leNat_leBytes 4 n (by omega)]

theorem encodeContainer_drop (codec : Codec) (quality : UInt8) (f : PutImageFrame) (req blob : Bytes) :
    (encodeContainer codec quality f req blob).drop containerFixed = req.take f.dataOff ++ blob := by
  unfold encodeContainer
  rw [← List.append_assoc]
  apply List.drop_left'
  rw [List.length_append, flatMap_leBytes_length]
  rfl

/-- **The two lists of checks.** A container of a recognised request decodes to its parts when neither
    side is above 8192, and not at all otherwise. -/
theorem decodeContainer_encode (codec : Codec) (quality : UInt8) {req blob : Bytes} {bigEndian : Bool}
    {f : PutImageFrame} (h : Recognised req bigEndian f) (hblob : blob.length < 2 ^ 32) :
    decodeContainer (encodeContainer codec quality f req blob) =
      if f.width ≤ 8192 ∧ f.height ≤ 8192 then
        some ⟨codec, f.bigEndian, req.take f.dataOff, f.total, f.width, f.height, f.dataLen, blob⟩
      else none := by
  obtain ⟨hmax, hreq⟩ := h.bounds
  obtain ⟨hw, hh⟩ := h.sides
  have hfits := h.fits
  have hw0 := h.width
  have hh0 := h.height
  unfold maxRecodeRequest at hmax
  have hoff : f.dataOff ≤ req.length := by omega
  have hlen := encodeContainer_length codec quality f blob hoff
  have hcodec : Codec.fromByte codec.byte = some codec := by cases codec <;> rfl
  have hflag : ((if f.bigEndian then 1 else 0 : UInt8) &&& 1 == 1) = f.bigEndian := by
    cases f.bigEndian <;> rfl
  -- the six fields read back
  have field := encodeContainer_field codec quality f req blob
  have h0 := field 0 f.dataOff rfl (by omega)
  have h1 := field 1 f.total rfl (by omega)
  have h2 := field 2 f.width rfl (by omega)
  have h3 := field 3 f.height rfl (by omega)
  have h4 := field 4 f.dataLen rfl (by omega)
  have h5 := field 5 blob.length rfl (by omega)
  have htail := encodeContainer_drop codec quality f req blob
  have htake : (req.take f.dataOff).length = f.dataOff := by
    rw [List.length_take, Nat.min_eq_left hoff]
  have hstart : (req.take f.dataOff ++ blob).take f.dataOff = req.take f.dataOff :=
    List.take_left' htake
  have hblob' : (req.take f.dataOff ++ blob).drop f.dataOff = blob := List.drop_left' htake
  have hget : ∀ i, i < f.dataOff → (req.take f.dataOff).getD i 0 = req.getD i 0 := by
    intro i hi
    simp only [List.getD_eq_getElem?_getD, List.getElem?_take_of_lt hi]
  have hoff2 : 2 ≤ f.dataOff := by
    have := h.dataOff
    omega
  unfold decodeContainer
  rw [if_neg (by rw [hlen]; simp [encodeContainer, containerMagic]; omega),
    if_neg (by simp [encodeContainer, containerMagic])]
  have hbyte : (encodeContainer codec quality f req blob).getD 5 0 = codec.byte := rfl
  have hbyte7 : (encodeContainer codec quality f req blob).getD 7 0 = if f.bigEndian then 1 else 0 := rfl
  simp only [hbyte, hcodec, h0, h1, h2, h3, h4, h5, hbyte7, hflag]
  rw [← List.drop_drop, htail, hstart, hblob', List.take_length, htake, hget 0 (by omega),
    hget 1 (by omega), h.opcode, h.format]
  have hhead : ¬ (f.dataOff < 2 ∨ opPutImage ≠ opPutImage ∨ formatZpixmap ≠ formatZpixmap) := by
    simp only [ne_eq, not_true_eq_false, or_false]
    omega
  rw [if_neg hhead, h.dataLen]
  by_cases hsize : f.width ≤ 8192 ∧ f.height ≤ 8192
  · have hchecks : ¬ (f.width = 0 ∨ f.height = 0 ∨ f.width > 8192 ∨ f.height > 8192 ∨
        f.width * f.height * 4 ≠ f.width * f.height * 4 ∨
        f.dataOff + blob.length + containerFixed > (encodeContainer codec quality f req blob).length ∨
        f.total < f.dataOff + f.width * f.height * 4) := by
      rw [hlen, ← h.dataLen]
      omega
    rw [if_neg hchecks, if_pos hsize]
  · rw [if_pos (by omega), if_neg hsize]

end RemoteX11.Recode
