/-
  The accesses of the expander (`DownstreamExpander::expand`, `decode_container`, `pack_rgb`,
  `rebuild_request`).

  As in `Recode.Bounds` every index, slice and subtraction is checked, and the outer `none` is a panic. A
  decoded image has its own size, which is not that of the container it came in: `pack_rgb` slices it by the
  declared size before the lengths are compared.
-/
import RemoteX11.Recode.Bounds

namespace RemoteX11.Recode

open RemoteX11.Lib

/-- An image of the `zune_jpeg` crate: as many bytes as its own size and its components say. -/
structure JpegImage where
  width : Nat
  height : Nat
  components : Nat
  bytes : Bytes
  whole : bytes.length = width * height * components

/-- The decoders of the expander. -/
structure Decoders where
  decodeRawPng : Bytes → Option Bytes
  decodeJpeg : Bytes → Option JpegImage

/-- `decode_container`. -/
def decodeContainerChecked (body : Bytes) : Option (Option Container) := do
  if body.length < containerFixed then return none
  let magic ← slice body 0 4
  if magic ≠ containerMagic then return none
  let version ← body[4]?
  if version ≠ containerVersion then return none
  let tag ← body[5]?
  match Codec.fromByte tag with
  | none => return none
  | some codec =>
    let flags ← body[7]?
    let rd (i : Nat) : Option Nat := (readAt body (8 + i * 4) 4).map leNat
    let prefixLen ← rd 0
    let total ← rd 1
    let width ← rd 2
    let height ← rd 3
    let dataLen ← rd 4
    let blobLen ← rd 5
    if width = 0 ∨ height = 0 ∨ width > 8192 ∨ height > 8192 ∨ dataLen ≠ width * height * 4 ∨
        prefixLen + blobLen + containerFixed > body.length ∨ total < prefixLen + dataLen then return none
    let prefix_ ← slice body containerFixed (containerFixed + prefixLen)
    if prefix_.length < 2 then return none
    let opcode ← prefix_[0]?
    if opcode ≠ opPutImage then return none
    let format ← prefix_[1]?
    if format ≠ formatZpixmap then return none
    let blob ← slice body (containerFixed + prefixLen) (containerFixed + prefixLen + blobLen)
    return some ⟨codec, flags &&& 1 == 1, prefix_, total, width, height, dataLen, blob⟩

/-- `pack_rgb`. -/
def packRgbChecked (rgb : Bytes) (width height : Nat) (bigEndian : Bool) : Option Bytes :=
  (slice rgb 0 (width * height * 3)).map (packRgb bigEndian)

/-- `rebuild_request`. -/
def rebuildRequestChecked (c : Container) (pixels : Bytes) : Option Bytes := do
  let block ← slice pixels 0 c.dataLen
  let rest ← checkedSub c.total c.prefix_.length
  let padding ← checkedSub rest c.dataLen
  return c.prefix_ ++ block ++ List.replicate padding 0

/-- The decoded pixels of a container. -/
def containerPixelsChecked (D : Decoders) (c : Container) : Option (Option Bytes) :=
  match c.codec with
  | .png => some (D.decodeRawPng c.blob)
  | .jpeg =>
    match D.decodeJpeg c.blob with
    | none => some none
    | some image =>
      if image.components ≠ 3 then some none
      else (packRgbChecked image.bytes c.width c.height c.bigEndian).map some

/-- `DownstreamExpander::expand`. -/
def expandChecked (D : Decoders) (payload : Bytes) : Option (Option Bytes) := do
  if payload.isEmpty then return some payload
  let kind ← payload[0]?
  let body ← slice payload 1 payload.length
  if kind = 0 then return some body
  else if kind = 1 then
    match ← decodeContainerChecked body with
    | none => return none
    | some c =>
      match ← containerPixelsChecked D c with
      | none => return none
      | some pixels =>
        if pixels.length ≠ c.dataLen then return none
        else (rebuildRequestChecked c pixels).map some
  else return none

/-! ## The parts -/

theorem decodeContainerChecked_eq (body : Bytes) :
    decodeContainerChecked body = some (decodeContainer body) := by
  unfold decodeContainerChecked decodeContainer
  by_cases hshort : body.length < containerFixed
  · rw [if_pos hshort, if_pos (.inl hshort)]
    rfl
  · have hfixed : 32 ≤ body.length := Nat.le_of_not_lt hshort
    have hrd : ∀ i, i ≤ 5 → (readAt body (8 + i * 4) 4).map leNat =
        some (leNat ((body.drop (8 + i * 4)).take 4)) := by
      intro i hi
      rw [readAt_of_le (by omega), Option.map_some]
    rw [if_neg hshort]
    simp only [slice_zero (show 4 ≤ body.length by omega), Option.bind_eq_bind, Option.bind_some,
      Option.pure_def, getElem?_eq_some_getD (show 4 < body.length by omega),
      getElem?_eq_some_getD (show 5 < body.length by omega),
      getElem?_eq_some_getD (show 7 < body.length by omega), hrd 0 (by omega), hrd 1 (by omega),
      hrd 2 (by omega), hrd 3 (by omega), hrd 4 (by omega), hrd 5 (by omega)]
    by_cases hmagic : body.take 4 = containerMagic
    · rw [if_neg (not_not.mpr hmagic), if_neg (not_or.mpr ⟨hshort, not_not.mpr hmagic⟩)]
      by_cases hversion : body.getD 4 0 = containerVersion
      · rw [if_neg (not_not.mpr hversion), if_neg (not_not.mpr hversion)]
        cases Codec.fromByte (body.getD 5 0) with
        | none => rfl
        | some codec =>
          simp only
          split
          · rfl
          · rename_i hchecks
            simp only [not_or] at hchecks
            obtain ⟨-, -, -, -, -, hblob, -⟩ := hchecks
            generalize leNat ((body.drop (8 + 0 * 4)).take 4) = prefixLen at hblob ⊢
            generalize leNat ((body.drop (8 + 5 * 4)).take 4) = blobLen at hblob ⊢
            rw [slice_of_le (Nat.le_add_right _ _) (by omega), Nat.add_sub_cancel_left, Option.bind_some,
              slice_of_le (Nat.le_add_right _ _) (by omega), Nat.add_sub_cancel_left]
            generalize (body.drop containerFixed).take prefixLen = prefix_
            by_cases htwo : prefix_.length < 2
            · rw [if_pos htwo, if_pos (.inl htwo)]
            · rw [if_neg htwo, Option.bind_some, opcode_format_checked (Nat.le_of_not_lt htwo)]
              by_cases hhead : prefix_.getD 0 0 ≠ opPutImage ∨ prefix_.getD 1 0 ≠ formatZpixmap
              · rw [if_pos hhead, if_pos (.inr hhead)]
              · rw [if_neg hhead, if_neg (not_or.mpr ⟨htwo, hhead⟩)]
      · rw [if_pos hversion, if_pos hversion]
    · rw [if_pos hmagic, if_pos (.inr hmagic)]

/-- What the checks of `decode_container` leave: the pixels and the prefix fit the request. -/
theorem decodeContainer_fits {body : Bytes} {c : Container} (h : decodeContainer body = some c) :
    c.dataLen = c.width * c.height * 4 ∧ c.prefix_.length + c.dataLen ≤ c.total := by
  unfold decodeContainer at h
  split at h
  · cases h
  · split at h
    · cases h
    · split at h
      · cases h
      · simp only at h
        split at h
        · cases h
        · rename_i hchecks
          simp only [not_or, not_not] at hchecks
          obtain ⟨-, -, -, -, hlen, -, htotal⟩ := hchecks
          split at h
          · cases h
          · cases h
            refine ⟨hlen, ?_⟩
            have hprefix := List.length_take_le (leNat ((body.drop (8 + 0 * 4)).take 4))
              (body.drop containerFixed)
            exact Nat.le_trans (Nat.add_le_add_right hprefix _) (Nat.le_of_not_lt htotal)

theorem rebuildRequestChecked_eq {c : Container} {pixels : Bytes} (hlen : pixels.length = c.dataLen)
    (hfits : c.prefix_.length + c.dataLen ≤ c.total) :
    rebuildRequestChecked c pixels = some (rebuildRequest c pixels) := by
  unfold rebuildRequestChecked rebuildRequest
  rw [slice_zero (Nat.le_of_eq hlen.symm), checkedSub_of_le (show c.prefix_.length ≤ c.total by omega)]
  simp only [Option.bind_eq_bind, Option.bind_some]
  rw [checkedSub_of_le (by omega)]
  rfl

/-! ## The declared size and the real one -/

/-- The decoders, as the part of the codecs that the expander uses. -/
def ImageCodecs.withDecoders (K : ImageCodecs) (D : Decoders) : ImageCodecs :=
  { K with
    decodeRawPng := D.decodeRawPng
    decodeJpeg := fun blob => (D.decodeJpeg blob).map fun image => (image.bytes, image.components) }

/-- The container declares more pixels than its image has. -/
def Overdeclares (D : Decoders) (c : Container) : Prop :=
  c.codec = .jpeg ∧ ∃ image, D.decodeJpeg c.blob = some image ∧ image.components = 3 ∧
    image.width * image.height < c.width * c.height

theorem packRgbChecked_eq {rgb : Bytes} {width height : Nat} (bigEndian : Bool)
    (h : width * height * 3 ≤ rgb.length) :
    packRgbChecked rgb width height bigEndian =
      some (packRgb bigEndian (rgb.take (width * height * 3))) := by
  rw [packRgbChecked, slice_zero h, Option.map_some]

/-- The pixels, when the image has as many as are declared. -/
theorem containerPixelsChecked_eq (K : ImageCodecs) {D : Decoders} {c : Container}
    (h : ¬ Overdeclares D c) :
    containerPixelsChecked D c = some (containerPixels (K.withDecoders D) c) := by
  unfold containerPixelsChecked containerPixels ImageCodecs.withDecoders
  cases hcodec : c.codec with
  | png => rfl
  | jpeg =>
    cases himage : D.decodeJpeg c.blob with
    | none => simp only [himage, Option.map_none]
    | some image =>
      simp only [himage, Option.map_some]
      by_cases hthree : image.components = 3
      · have hsize : c.width * c.height ≤ image.width * image.height := by
          apply Nat.le_of_not_lt
          intro hlt
          exact h ⟨hcodec, image, himage, hthree, hlt⟩
        have hlen : c.width * c.height * 3 ≤ image.bytes.length := by
          rw [image.whole, hthree]
          omega
        rw [if_neg (not_not.mpr hthree), if_neg (not_not.mpr hthree), packRgbChecked_eq _ hlen,
          if_neg (Nat.not_lt.mpr hlen), Option.map_some]
      · rw [if_pos hthree, if_pos hthree]

theorem containerPixelsChecked_eq_none {D : Decoders} {c : Container} (h : Overdeclares D c) :
    containerPixelsChecked D c = none := by
  obtain ⟨hcodec, image, himage, hthree, hlt⟩ := h
  have hshort : image.bytes.length < c.width * c.height * 3 := by
    rw [image.whole, hthree]
    omega
  unfold containerPixelsChecked
  simp only [hcodec, himage, if_neg (not_not.mpr hthree), packRgbChecked, slice_of_lt hshort,
    Option.map_none]

/-- What `expand` reads of a unit before it looks at the kind. -/
theorem expandChecked_cons (D : Decoders) (kind : UInt8) (body : Bytes) :
    expandChecked D (kind :: body) =
      if kind = 0 then some (some body)
      else if kind = 1 then
        match decodeContainer body with
        | none => some none
        | some c => (containerPixelsChecked D c).bind fun
          | none => some none
          | some pixels =>
            if pixels.length ≠ c.dataLen then some none else some (some (rebuildRequest c pixels))
      else some none := by
  have hbody : slice (kind :: body) 1 (kind :: body).length = some body := by
    rw [slice_of_le (by simp) (Nat.le_refl _)]
    simp
  unfold expandChecked
  simp only [List.isEmpty_cons, Bool.false_eq_true, if_false, List.getElem?_cons_zero, hbody,
    decodeContainerChecked_eq, Option.bind_eq_bind, Option.bind_some]
  by_cases hraw : kind = 0
  · rw [if_pos hraw, if_pos hraw]
    rfl
  · rw [if_neg hraw, if_neg hraw]
    by_cases hcontainer : kind = 1
    · rw [if_pos hcontainer, if_pos hcontainer]
      cases hdecode : decodeContainer body with
      | none => rfl
      | some c =>
        apply congrArg (Option.bind (containerPixelsChecked D c))
        funext pixels
        cases pixels with
        | none => rfl
        | some pixels =>
          simp only
          by_cases hlen : pixels.length = c.dataLen
          · rw [if_neg (not_not.mpr hlen), if_neg (not_not.mpr hlen),
              rebuildRequestChecked_eq hlen (decodeContainer_fits hdecode).2, Option.map_some]
          · rw [if_pos hlen, if_pos hlen]
            rfl
    · rw [if_neg hcontainer, if_neg hcontainer]
      rfl

/-- A unit whose container declares more pixels than its image has. -/
def OverdeclaredUnit (D : Decoders) (payload : Bytes) : Prop :=
  ∃ body c, payload = 1 :: body ∧ decodeContainer body = some c ∧ Overdeclares D c

/-- The expander's result, when no unit is overdeclared. -/
theorem expandChecked_eq (K : ImageCodecs) {D : Decoders} {payload : Bytes}
    (h : ¬ OverdeclaredUnit D payload) :
    expandChecked D payload = some (expand (K.withDecoders D) payload) := by
  cases payload with
  | nil => rfl
  | cons kind body =>
    rw [expandChecked_cons, expand]
    by_cases hraw : kind = 0
    · rw [if_pos hraw, if_pos hraw]
    · rw [if_neg hraw, if_neg hraw]
      by_cases hcontainer : kind = 1
      · rw [if_pos hcontainer, if_pos hcontainer]
        cases hdecode : decodeContainer body with
        | none => rfl
        | some c =>
          have hpixels : ¬ Overdeclares D c := by
            intro hover
            exact h ⟨body, c, by rw [hcontainer], hdecode, hover⟩
          simp only [containerPixelsChecked_eq K hpixels, Option.bind_eq_bind, Option.bind_some]
          cases containerPixels (K.withDecoders D) c with
          | none => rfl
          | some pixels =>
            simp only [Option.bind_some]
            split <;> rfl
      · rw [if_neg hcontainer, if_neg hcontainer]

/-- **Where the expander panics.** For every payload, and whatever the decoders make of its blob, every access
of `expand` is in range and no subtraction underflows if and only if the payload is not a container that
declares more pixels than its image has. -/
theorem expandChecked_in_range_iff (D : Decoders) (payload : Bytes) :
    (∃ r, expandChecked D payload = some r) ↔ ¬ OverdeclaredUnit D payload := by
  constructor
  · rintro ⟨r, hr⟩ ⟨body, c, rfl, hdecode, hover⟩
    rw [expandChecked_cons, if_neg (by decide), if_pos rfl, hdecode] at hr
    simp only [containerPixelsChecked_eq_none hover, Option.bind_none] at hr
    cases hr
  · intro h
    exact ⟨_, expandChecked_eq ⟨id, some, fun _ _ _ _ => none, fun _ => none⟩ h⟩

/-- A container of two by two pixels, and an image of one. -/
theorem overdeclared_container_out_of_range :
    expandChecked ⟨some, fun _ => some ⟨1, 1, 3, [0, 0, 0], rfl⟩⟩
      [1, 82, 88, 73, 67, 1, 1, 80, 0, 2, 0, 0, 0, 18, 0, 0, 0, 2, 0, 0, 0, 2, 0, 0, 0, 16, 0, 0, 0,
        1, 0, 0, 0, 72, 2, 255] = none := by
  decide +kernel

end RemoteX11.Recode
