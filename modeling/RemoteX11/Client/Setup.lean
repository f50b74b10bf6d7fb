/-
  The setup request at the head of a connection, watched for the authorization it carries
  (`audioout/x11wire.rs`).

  The X11 protocol library is the parameter `tryParse`: what it reads of a request and the bytes it leaves.

  `setupRequestLen_eq`: the client measures the request as the re-encoder does (`setup_message_len`), so both
  ends of the link take the requests behind it from the same place. `observe_watching` is the invariant of the
  watcher, in terms of the bytes seen so far alone.
-/
import RemoteX11.Recode.Machine

namespace RemoteX11.Client

open RemoteX11.Lib RemoteX11.Recode

/-! ## The wire -/

inductive ByteOrder where
  | littleEndian
  | bigEndian
  deriving DecidableEq, Repr

namespace ByteOrder

/-- `from_request`. -/
def fromRequest (bytes : Bytes) : Option ByteOrder :=
  match bytes.head? with
  | some b => if b = 108 then some littleEndian else if b = 66 then some bigEndian else none
  | none => none

/-- `u16`; the field is read by `get`, and `none` is a field that is not there. -/
def u16 (order : ByteOrder) (bytes : Bytes) (at_ : Nat) : Option Nat :=
  (slice bytes at_ (at_ + 2)).map fun pair =>
    match order with
    | littleEndian => leNat pair
    | bigEndian => beNat pair

end ByteOrder

/-- What is used of the `SetupRequest` of `x11rb_protocol`. -/
structure SetupRequest where
  authorizationProtocolName : Bytes
  authorizationProtocolData : Bytes

structure Authorization where
  name : Bytes
  data : Bytes
  deriving DecidableEq, Repr

/-- `swap_u16`. -/
def swapU16 (bytes : Bytes) (at_ : Nat) : Bytes :=
  match slice bytes at_ (at_ + 2) with
  | some pair => overwrite bytes at_ pair.reverse
  | none => bytes

/-- `Authorization::from_setup_request`. The library reads the request in the machine's own order, which is
    little-endian here. -/
def Authorization.fromSetupRequest (tryParse : Bytes → Option (SetupRequest × Bytes)) (request : Bytes) :
    Option Authorization := do
  let order ← ByteOrder.fromRequest request
  let normalized :=
    match order with
    | .littleEndian => request
    | .bigEndian => swapU16 (swapU16 request 6) 8
  let (parsed, _) ← tryParse normalized
  some ⟨parsed.authorizationProtocolName, parsed.authorizationProtocolData⟩

/-- `next_multiple_of`. -/
def nextMultipleOf (n m : Nat) : Nat := if n % m = 0 then n else n + (m - n % m)

/-- `setup_request_len`. -/
def setupRequestLen (bytes : Bytes) : Option Nat :=
  let header := 12
  if bytes.length < header then none
  else do
    let order ← ByteOrder.fromRequest bytes
    let nameLen ← order.u16 bytes 6
    let dataLen ← order.u16 bytes 8
    some (header + nextMultipleOf nameLen 4 + nextMultipleOf dataLen 4)

/-! ## Both ends measure the same request -/

theorem nextMultipleOf_four (n : Nat) : nextMultipleOf n 4 = pad4 n := by
  unfold nextMultipleOf pad4
  split <;> omega

theorem u16_of_le {bytes : Bytes} {at_ : Nat} (order : ByteOrder) (h : at_ + 2 ≤ bytes.length) :
    order.u16 bytes at_ = some (u16At bytes at_ (order = .bigEndian)) := by
  unfold ByteOrder.u16 u16At orderedNat
  rw [slice_of_le (by omega) h, Option.map_some, Nat.add_sub_cancel_left]
  cases order <;> rfl

/-- The client's reading of a whole header. -/
theorem setupRequestLen_of_order {buf : Bytes} {order : ByteOrder} (hlen : setupHeaderLen ≤ buf.length)
    (horder : ByteOrder.fromRequest buf = some order) :
    setupRequestLen buf = some (setupHeaderLen + pad4 (u16At buf 6 (order = .bigEndian)) +
      pad4 (u16At buf 8 (order = .bigEndian))) := by
  unfold setupHeaderLen at hlen ⊢
  unfold setupRequestLen
  have hname : order.u16 buf 6 = some (u16At buf 6 (order = .bigEndian)) := u16_of_le order (by omega)
  have hdata : order.u16 buf 8 = some (u16At buf 8 (order = .bigEndian)) := u16_of_le order (by omega)
  rw [if_neg (by omega), horder]
  simp only [Option.bind_eq_bind, Option.bind_some, hname, hdata, nextMultipleOf_four]

theorem setupRequestLen_of_no_order {buf : Bytes} (horder : ByteOrder.fromRequest buf = none) :
    setupRequestLen buf = none := by
  unfold setupRequestLen
  rw [horder]
  exact ite_self _

/-- The byte order and the length of the request, as the re-encoder reads them. -/
theorem setupMessageLen_eq (buf : Bytes) :
    setupMessageLen buf = (setupRequestLen buf).bind fun len =>
      (ByteOrder.fromRequest buf).map fun order => (decide (order = .bigEndian), len) := by
  by_cases hshort : buf.length < setupHeaderLen
  · have hnone : setupRequestLen buf = none := if_pos hshort
    rw [hnone, setupMessageLen, if_pos hshort]
    rfl
  · cases buf with
    | nil => exact absurd (by decide) hshort
    | cons b rest =>
      have hlen : setupHeaderLen ≤ (b :: rest).length := by omega
      rw [setupMessageLen, if_neg hshort, List.getD_cons_zero]
      by_cases hbig : b = 66
      · have horder : ByteOrder.fromRequest (b :: rest) = some .bigEndian := by
          rw [hbig]
          rfl
        rw [setupRequestLen_of_order hlen horder, horder, if_pos hbig]
        rfl
      · by_cases hlittle : b = 108
        · have horder : ByteOrder.fromRequest (b :: rest) = some .littleEndian := by
            rw [hlittle]
            rfl
          rw [setupRequestLen_of_order hlen horder, horder, if_neg hbig, if_pos hlittle]
          rfl
        · have horder : ByteOrder.fromRequest (b :: rest) = none := by
            simp only [ByteOrder.fromRequest, List.head?_cons, if_neg hbig, if_neg hlittle]
          rw [setupRequestLen_of_no_order horder, if_neg hbig, if_neg hlittle]
          rfl

/-- A request that can be measured announces its byte order. -/
theorem fromRequest_of_len {buf : Bytes} {len : Nat} (h : setupRequestLen buf = some len) :
    ∃ order, ByteOrder.fromRequest buf = some order := by
  cases horder : ByteOrder.fromRequest buf with
  | none =>
    rw [setupRequestLen_of_no_order horder] at h
    cases h
  | some order => exact ⟨order, rfl⟩

theorem setupRequestLen_eq (buf : Bytes) : setupRequestLen buf = (setupMessageLen buf).map Prod.snd := by
  rw [setupMessageLen_eq]
  cases hlen : setupRequestLen buf with
  | none => rfl
  | some len =>
    obtain ⟨order, horder⟩ := fromRequest_of_len hlen
    rw [Option.bind_some, horder]
    rfl

/-- The header alone says how long the request is, or that there is none. -/
theorem setupRequestLen_append_of_header {buf : Bytes} (more : Bytes) (h : setupHeaderLen ≤ buf.length) :
    setupRequestLen (buf ++ more) = setupRequestLen buf := by
  rw [setupRequestLen_eq, setupRequestLen_eq, setupMessageLen_append_of_header more h]

theorem setupRequestLen_header {buf : Bytes} {len : Nat} (h : setupRequestLen buf = some len) :
    setupHeaderLen ≤ buf.length ∧ setupHeaderLen ≤ len := by
  obtain ⟨order, horder⟩ := fromRequest_of_len h
  have hlen : setupHeaderLen ≤ buf.length := by
    refine Nat.le_of_not_lt fun hshort => ?_
    have hnone : setupRequestLen buf = none := if_pos hshort
    rw [hnone] at h
    cases h
  rw [setupRequestLen_of_order hlen horder] at h
  have := Option.some.inj h
  exact ⟨hlen, by omega⟩

/-! ## The watcher -/

structure SetupRequestWatcher where
  buffer : Bytes
  authorization : Option Authorization
  order : Option ByteOrder
  finished : Bool

/-- `MAX_SETUP_BYTES`. -/
def maxSetupBytes : Nat := 64 * 1024

namespace SetupRequestWatcher

def new : SetupRequestWatcher := ⟨[], none, none, false⟩

/-- `observe`: the watcher afterwards and the authorization it reports. -/
def observe (tryParse : Bytes → Option (SetupRequest × Bytes)) (w : SetupRequestWatcher) (chunk : Bytes) :
    SetupRequestWatcher × Option Authorization :=
  if w.finished then (w, none)
  else
    let buffer := w.buffer ++ chunk
    match setupRequestLen buffer with
    | none => ({ w with buffer := buffer, finished := decide (maxSetupBytes < buffer.length) }, none)
    | some len =>
      if buffer.length < len then ({ w with buffer := buffer }, none)
      else
        let request := buffer.take len
        let authorization := Authorization.fromSetupRequest tryParse request
        (⟨buffer, authorization, ByteOrder.fromRequest request, true⟩, authorization)

/-- The calls on the chunks of a stream, and what each reports. -/
def observeAll (tryParse : Bytes → Option (SetupRequest × Bytes)) :
    SetupRequestWatcher → List Bytes → SetupRequestWatcher × List (Option Authorization)
  | w, [] => (w, [])
  | w, chunk :: chunks =>
    let called := w.observe tryParse chunk
    let rest := observeAll tryParse called.1 chunks
    (rest.1, called.2 :: rest.2)

end SetupRequestWatcher

/-! ## What the watcher makes of a stream -/

/-- The setup request at the head of a stream that contains all of it. -/
def wholeRequest (stream : Bytes) : Option Bytes :=
  (setupRequestLen stream).bind fun len => if len ≤ stream.length then some (stream.take len) else none

theorem wholeRequest_of_len {stream : Bytes} {len : Nat} (hlen : setupRequestLen stream = some len) :
    wholeRequest stream = if len ≤ stream.length then some (stream.take len) else none := by
  rw [wholeRequest, hlen, Option.bind_some]

theorem wholeRequest_append {stream request : Bytes} (more : Bytes)
    (h : wholeRequest stream = some request) : wholeRequest (stream ++ more) = some request := by
  cases hlen : setupRequestLen stream with
  | none =>
    rw [wholeRequest, hlen] at h
    cases h
  | some len =>
    rw [wholeRequest_of_len hlen] at h
    have hfits : len ≤ stream.length := by
      by_contra hshort
      rw [if_neg hshort] at h
      cases h
    have hmore : setupRequestLen (stream ++ more) = some len := by
      rw [setupRequestLen_append_of_header more (setupRequestLen_header hlen).1, hlen]
    rw [if_pos hfits] at h
    rw [wholeRequest_of_len hmore, if_pos (by rw [List.length_append]; omega),
      List.take_append_of_le_length hfits, h]

/-- A watcher that has been given the bytes `seen`, in any pieces. -/
structure Watching (w : SetupRequestWatcher) (seen : Bytes) : Prop where
  order : w.order = (wholeRequest seen).bind ByteOrder.fromRequest
  waiting : w.finished = false → w.buffer = seen ∧ wholeRequest seen = none
  /-- it gives up on a stream that is no X11 connection only -/
  finished : w.finished = true → wholeRequest seen ≠ none ∨
    (setupHeaderLen ≤ seen.length ∧ setupRequestLen seen = none)

theorem watching_new : Watching SetupRequestWatcher.new [] := by
  constructor
  · rfl
  · intro _
    exact ⟨rfl, rfl⟩
  · intro h
    cases h

/-- A watcher that is done has nothing more to say. -/
theorem watching_done {w : SetupRequestWatcher} {seen : Bytes} (h : Watching w seen) (hdone : w.finished = true)
    (chunk : Bytes) :
    Watching w (seen ++ chunk) ∧ (wholeRequest seen = none → wholeRequest (seen ++ chunk) = none) := by
  have hnotWaiting : ¬ w.finished = false := by
    rw [hdone]
    exact Bool.noConfusion
  obtain hwhole | ⟨hheader, hnone⟩ := h.finished hdone
  · obtain ⟨request, hrequest⟩ := Option.ne_none_iff_exists'.mp hwhole
    have hlater := wholeRequest_append chunk hrequest
    refine ⟨⟨?_, fun hwait => absurd hwait hnotWaiting, fun _ => .inl ?_⟩, fun hnone => absurd hnone hwhole⟩
    · rw [hlater, h.order, hrequest]
    · rw [hlater]
      exact Option.some_ne_none request
  · have hlater : setupRequestLen (seen ++ chunk) = none := by
      rw [setupRequestLen_append_of_header chunk hheader, hnone]
    have hwhole : wholeRequest seen = none := by rw [wholeRequest, hnone, Option.bind_none]
    have hwhole' : wholeRequest (seen ++ chunk) = none := by rw [wholeRequest, hlater, Option.bind_none]
    refine ⟨⟨?_, fun hwait => absurd hwait hnotWaiting, fun _ => .inr ⟨?_, hlater⟩⟩, fun _ => hwhole'⟩
    · rw [hwhole', h.order, hwhole]
    · rw [List.length_append]
      omega

/-- What one call reports, and what it leaves. -/
theorem observe_watching (tryParse : Bytes → Option (SetupRequest × Bytes)) {w : SetupRequestWatcher}
    {seen : Bytes} (h : Watching w seen) (chunk : Bytes) :
    Watching (w.observe tryParse chunk).1 (seen ++ chunk) ∧
      (w.observe tryParse chunk).2 =
        if wholeRequest seen = none then
          (wholeRequest (seen ++ chunk)).bind (Authorization.fromSetupRequest tryParse)
        else none := by
  cases hdone : w.finished with
  | true =>
    have hobserve : w.observe tryParse chunk = (w, none) := if_pos hdone
    obtain ⟨hwatching, hnone⟩ := watching_done h hdone chunk
    rw [hobserve]
    refine ⟨hwatching, ?_⟩
    split
    · rename_i hseen
      rw [hnone hseen, Option.bind_none]
    · rfl
  | false =>
    obtain ⟨hbuffer, hwhole⟩ := h.waiting hdone
    have horder : w.order = none := by rw [h.order, hwhole, Option.bind_none]
    rw [if_pos hwhole]
    unfold SetupRequestWatcher.observe
    rw [if_neg (by rw [hdone]; exact Bool.false_ne_true)]
    simp only [hbuffer]
    cases hlen : setupRequestLen (seen ++ chunk) with
    | none =>
      have hwhole' : wholeRequest (seen ++ chunk) = none := by rw [wholeRequest, hlen, Option.bind_none]
      rw [hwhole', Option.bind_none]
      refine ⟨⟨?_, fun _ => ⟨rfl, hwhole'⟩, fun hgive => .inr ⟨?_, hlen⟩⟩, rfl⟩
      · rw [hwhole', horder, Option.bind_none]
      · -- the limit is far beyond the header
        have hlimit : maxSetupBytes < (seen ++ chunk).length := of_decide_eq_true hgive
        unfold maxSetupBytes at hlimit
        unfold setupHeaderLen
        omega
    | some len =>
      by_cases hshort : (seen ++ chunk).length < len
      · have hwhole' : wholeRequest (seen ++ chunk) = none := by
          rw [wholeRequest_of_len hlen, if_neg (by omega)]
        simp only [if_pos hshort]
        rw [hwhole', Option.bind_none]
        refine ⟨⟨?_, fun _ => ⟨rfl, hwhole'⟩, fun hgive => ?_⟩, rfl⟩
        · rw [hwhole', horder, Option.bind_none]
        · rw [hdone] at hgive
          cases hgive
      · have hwhole' : wholeRequest (seen ++ chunk) = some ((seen ++ chunk).take len) := by
          rw [wholeRequest_of_len hlen, if_pos (by omega)]
        simp only [if_neg hshort]
        rw [hwhole', Option.bind_some]
        refine ⟨⟨?_, ?_, fun _ => .inl ?_⟩, rfl⟩
        · rw [hwhole', Option.bind_some]
        · intro hwait
          cases hwait
        · rw [hwhole']
          exact Option.some_ne_none _

/-- After any calls. -/
theorem observeAll_watching (tryParse : Bytes → Option (SetupRequest × Bytes)) {w : SetupRequestWatcher}
    {seen : Bytes} (h : Watching w seen) (chunks : List Bytes) :
    Watching (w.observeAll tryParse chunks).1 (seen ++ chunks.flatten) := by
  induction chunks generalizing w seen with
  | nil =>
    rw [List.flatten_nil, List.append_nil]
    exact h
  | cons chunk chunks ih =>
    rw [List.flatten_cons, ← List.append_assoc]
    exact ih (observe_watching tryParse h chunk).1

/-- The request is whole once, so there is one report at most. -/
theorem observeAll_reports_le (tryParse : Bytes → Option (SetupRequest × Bytes)) {w : SetupRequestWatcher}
    {seen : Bytes} (h : Watching w seen) (chunks : List Bytes) :
    (w.observeAll tryParse chunks).2.countP Option.isSome ≤ if wholeRequest seen = none then 1 else 0 := by
  induction chunks generalizing w seen with
  | nil => exact Nat.zero_le _
  | cons chunk chunks ih =>
    obtain ⟨hcalled, hreport⟩ := observe_watching tryParse h chunk
    have hrest := ih hcalled
    unfold SetupRequestWatcher.observeAll
    simp only [List.countP_cons, hreport]
    by_cases hseen : wholeRequest seen = none
    · rw [if_pos hseen, if_pos hseen]
      cases hwhole : wholeRequest (seen ++ chunk) with
      | none =>
        rw [hwhole, if_pos rfl] at hrest
        simpa using hrest
      | some request =>
        rw [hwhole, if_neg (Option.some_ne_none request)] at hrest
        split <;> omega
    · obtain ⟨request, hrequest⟩ := Option.ne_none_iff_exists'.mp hseen
      rw [wholeRequest_append chunk hrequest, if_neg (Option.some_ne_none request)] at hrest
      rw [if_neg hseen, if_neg hseen]
      simpa using hrest

/-- The report of the call on `chunk`. -/
theorem observeAll_report (tryParse : Bytes → Option (SetupRequest × Bytes)) (w : SetupRequestWatcher)
    (pre : List Bytes) (chunk : Bytes) (post : List Bytes) :
    (w.observeAll tryParse (pre ++ chunk :: post)).2[pre.length]? =
      some ((w.observeAll tryParse pre).1.observe tryParse chunk).2 := by
  induction pre generalizing w with
  | nil => rfl
  | cons first pre ih => exact ih (w.observe tryParse first).1

/-- The request in the bytes seen, as the whole stream tells it. -/
theorem wholeRequest_seen (seen rest : Bytes) :
    wholeRequest seen = (setupRequestLen (seen ++ rest)).bind fun len =>
      if len ≤ seen.length then some ((seen ++ rest).take len) else none := by
  by_cases hheader : setupHeaderLen ≤ seen.length
  · rw [setupRequestLen_append_of_header rest hheader, wholeRequest]
    refine congrArg _ (funext fun len => ?_)
    by_cases hlen : len ≤ seen.length
    · rw [if_pos hlen, if_pos hlen, List.take_append_of_le_length hlen]
    · rw [if_neg hlen, if_neg hlen]
  · have hnone : setupRequestLen seen = none := if_pos (Nat.lt_of_not_le hheader)
    rw [wholeRequest, hnone]
    cases hlen : setupRequestLen (seen ++ rest) with
    | none => rfl
    | some len =>
      have := (setupRequestLen_header hlen).2
      rw [Option.bind_some, if_neg (by omega)]
      rfl

/-! ## What the library is given -/

theorem swapU16_append (pre : Bytes) (a b : UInt8) (post : Bytes) :
    swapU16 (pre ++ a :: b :: post) pre.length = pre ++ b :: a :: post := by
  have hfits : pre.length + 2 ≤ (pre ++ a :: b :: post).length := by
    rw [List.length_append, List.length_cons, List.length_cons]
    omega
  have hpair : slice (pre ++ a :: b :: post) pre.length (pre.length + 2) = some [a, b] := by
    rw [slice_of_le (by omega) hfits, List.drop_left, Nat.add_sub_cancel_left]
    rfl
  have hrest : (pre ++ a :: b :: post).drop (pre.length + 2) = post := by
    rw [← List.drop_drop, List.drop_left]
    rfl
  simp only [swapU16, hpair, overwrite, List.take_left, List.reverse_cons, List.reverse_nil, List.nil_append,
    List.singleton_append, List.length_cons, List.length_nil, Nat.zero_add, Nat.reduceAdd, hrest]
  rw [List.append_assoc]
  rfl

/-- The bytes of a request as the library reads them: where it is big-endian, with its two length fields turned. -/
def Normalizes (order : ByteOrder) (request normalized : Bytes) : Prop :=
  ∃ pre n₀ n₁ d₀ d₁ post, pre.length = 6 ∧ request = pre ++ n₀ :: n₁ :: d₀ :: d₁ :: post ∧
    normalized = match order with
      | .littleEndian => request
      | .bigEndian => pre ++ n₁ :: n₀ :: d₁ :: d₀ :: post

theorem swapU16_normalizes {request : Bytes} (h : 10 ≤ request.length) :
    Normalizes .bigEndian request (swapU16 (swapU16 request 6) 8) := by
  have hpre : (request.take 6).length = 6 := by
    rw [List.length_take]
    omega
  have hrest : (request.drop 6).length = request.length - 6 := List.length_drop
  have hsplit : request.take 6 ++ request.drop 6 = request := List.take_append_drop 6 request
  generalize request.take 6 = pre at hpre hsplit
  generalize request.drop 6 = rest at hrest hsplit
  match rest, hrest, hsplit with
  | n₀ :: n₁ :: d₀ :: d₁ :: post, _, hsplit =>
    refine ⟨pre, n₀, n₁, d₀, d₁, post, hpre, hsplit.symm, ?_⟩
    have hname := swapU16_append pre n₀ n₁ (d₀ :: d₁ :: post)
    have hdata := swapU16_append (pre ++ [n₁, n₀]) d₀ d₁ post
    rw [hpre] at hname
    rw [List.length_append, hpre, List.append_assoc, List.append_assoc] at hdata
    rw [← hsplit, hname]
    exact hdata
  | [], hrest, _ => rw [List.length_nil] at hrest; omega
  | [_], hrest, _ => simp only [List.length_cons, List.length_nil] at hrest; omega
  | [_, _], hrest, _ => simp only [List.length_cons, List.length_nil] at hrest; omega
  | [_, _, _], hrest, _ => simp only [List.length_cons, List.length_nil] at hrest; omega

/-- What is made of a request that is whole: its authorization is what the library reads in the normalized bytes. -/
theorem fromSetupRequest_normalized (tryParse : Bytes → Option (SetupRequest × Bytes)) {request : Bytes}
    (h : 10 ≤ request.length) {order : ByteOrder} (horder : ByteOrder.fromRequest request = some order) :
    ∃ normalized, Normalizes order request normalized ∧
      Authorization.fromSetupRequest tryParse request = (tryParse normalized).map fun parsed =>
        ⟨parsed.1.authorizationProtocolName, parsed.1.authorizationProtocolData⟩ := by
  have hswapped := swapU16_normalizes h
  have hparsed : ∀ normalized : Bytes, ((tryParse normalized).bind fun parsed =>
      some (⟨parsed.1.authorizationProtocolName, parsed.1.authorizationProtocolData⟩ : Authorization)) =
        (tryParse normalized).map fun parsed =>
          ⟨parsed.1.authorizationProtocolName, parsed.1.authorizationProtocolData⟩ := by
    intro normalized
    cases tryParse normalized <;> rfl
  unfold Authorization.fromSetupRequest
  rw [horder]
  cases order with
  | littleEndian =>
    obtain ⟨pre, n₀, n₁, d₀, d₁, post, hpre, hrequest, -⟩ := hswapped
    exact ⟨request, ⟨pre, n₀, n₁, d₀, d₁, post, hpre, hrequest, rfl⟩, hparsed request⟩
  | bigEndian => exact ⟨_, hswapped, hparsed _⟩

/-- The request is reported at the call whose bytes complete it, and at no other. -/
theorem observeAll_reports_at (tryParse : Bytes → Option (SetupRequest × Bytes)) (pre : List Bytes)
    (chunk : Bytes) (post : List Bytes) :
    (SetupRequestWatcher.new.observeAll tryParse (pre ++ chunk :: post)).2[pre.length]? =
      some ((setupRequestLen (pre ++ chunk :: post).flatten).bind fun len =>
        if pre.flatten.length < len ∧ len ≤ pre.flatten.length + chunk.length
        then Authorization.fromSetupRequest tryParse ((pre ++ chunk :: post).flatten.take len)
        else none) := by
  have hbefore := observeAll_watching tryParse watching_new pre
  rw [List.nil_append] at hbefore
  have hstream : (pre ++ chunk :: post).flatten = pre.flatten ++ (chunk ++ post.flatten) := by
    rw [List.flatten_append, List.flatten_cons]
  have hseen := wholeRequest_seen pre.flatten (chunk ++ post.flatten)
  have hseen' := wholeRequest_seen (pre.flatten ++ chunk) post.flatten
  rw [← hstream] at hseen
  rw [List.append_assoc, ← hstream, List.length_append] at hseen'
  rw [observeAll_report, (observe_watching tryParse hbefore chunk).2, hseen, hseen']
  cases setupRequestLen (pre ++ chunk :: post).flatten with
  | none => rfl
  | some len =>
    simp only [Option.bind_some]
    by_cases hpre : len ≤ pre.flatten.length
    · rw [if_pos hpre, if_neg (Option.some_ne_none _), if_neg (by omega)]
    · rw [if_neg hpre, if_pos rfl]
      by_cases hpost : len ≤ pre.flatten.length + chunk.length
      · rw [if_pos hpost, if_pos ⟨by omega, hpost⟩, Option.bind_some]
      · rw [if_neg hpost, if_neg (fun hin => hpost hin.2), Option.bind_none]

/-- The byte order is known from the call that completes the request on. -/
theorem observeAll_order_at (tryParse : Bytes → Option (SetupRequest × Bytes)) (pre : List Bytes)
    (chunk : Bytes) (post : List Bytes) :
    (SetupRequestWatcher.new.observeAll tryParse (pre ++ [chunk])).1.order =
      (setupRequestLen (pre ++ chunk :: post).flatten).bind fun len =>
        if len ≤ pre.flatten.length + chunk.length
        then ByteOrder.fromRequest ((pre ++ chunk :: post).flatten.take len) else none := by
  have hafter := observeAll_watching tryParse watching_new (pre ++ [chunk])
  rw [List.nil_append, List.flatten_append, List.flatten_singleton] at hafter
  have hstream : (pre ++ chunk :: post).flatten = (pre.flatten ++ chunk) ++ post.flatten := by
    rw [List.flatten_append, List.flatten_cons, List.append_assoc]
  have hseen := wholeRequest_seen (pre.flatten ++ chunk) post.flatten
  rw [← hstream, List.length_append] at hseen
  rw [hafter.order, hseen, Option.bind_assoc]
  refine congrArg _ (funext fun len => ?_)
  by_cases hpost : len ≤ pre.flatten.length + chunk.length
  · rw [if_pos hpost, if_pos hpost, Option.bind_some]
  · rw [if_neg hpost, if_neg hpost, Option.bind_none]

/-- A whole request is parsed from its own bytes, its integers put in little-endian order. -/
theorem fromSetupRequest_take (tryParse : Bytes → Option (SetupRequest × Bytes)) {stream : Bytes} {len : Nat}
    (hlen : setupRequestLen stream = some len) (hfits : len ≤ stream.length) :
    ∃ order normalized, ByteOrder.fromRequest (stream.take len) = some order ∧
      Normalizes order (stream.take len) normalized ∧
      Authorization.fromSetupRequest tryParse (stream.take len) = (tryParse normalized).map fun parsed =>
        ⟨parsed.1.authorizationProtocolName, parsed.1.authorizationProtocolData⟩ := by
  obtain ⟨order, horder⟩ := fromRequest_of_len hlen
  have hhead : setupHeaderLen ≤ len := (setupRequestLen_header hlen).2
  unfold setupHeaderLen at hhead
  have hrequest : ByteOrder.fromRequest (stream.take len) = some order := by
    rw [← horder]
    unfold ByteOrder.fromRequest
    rw [List.head?_take, if_neg (by omega)]
  obtain ⟨normalized, hnormalized, hread⟩ := fromSetupRequest_normalized tryParse
    (show 10 ≤ (stream.take len).length by rw [List.length_take]; omega) hrequest
  exact ⟨order, normalized, hrequest, hnormalized, hread⟩

/-- The watcher reports on the call that makes the setup request whole, on that call alone, what the first
    bytes of the stream say when they are read at once: what the library reads in them, with the length fields in
    the machine's order. And the re-encoder delimits the same bytes. -/
theorem setup_request_watched (tryParse : Bytes → Option (SetupRequest × Bytes)) :
    (∀ (pre : List Bytes) (chunk : Bytes) (post : List Bytes),
      let stream := (pre ++ chunk :: post).flatten
      let before := pre.flatten.length
      let after := before + chunk.length
      (SetupRequestWatcher.new.observeAll tryParse (pre ++ chunk :: post)).2[pre.length]? =
        some ((setupRequestLen stream).bind fun len =>
          if before < len ∧ len ≤ after then Authorization.fromSetupRequest tryParse (stream.take len)
          else none) ∧
      (SetupRequestWatcher.new.observeAll tryParse (pre ++ [chunk])).1.order =
        (setupRequestLen stream).bind fun len =>
          if len ≤ after then ByteOrder.fromRequest (stream.take len) else none) ∧
    (∀ chunks : List Bytes,
      (SetupRequestWatcher.new.observeAll tryParse chunks).2.countP Option.isSome ≤ 1) ∧
    (∀ (stream : Bytes) (len : Nat), setupRequestLen stream = some len → len ≤ stream.length →
      ∃ order normalized, ByteOrder.fromRequest (stream.take len) = some order ∧
        Normalizes order (stream.take len) normalized ∧
        Authorization.fromSetupRequest tryParse (stream.take len) = (tryParse normalized).map fun parsed =>
          ⟨parsed.1.authorizationProtocolName, parsed.1.authorizationProtocolData⟩) ∧
    ∀ buf : Bytes, setupRequestLen buf = (setupMessageLen buf).map Prod.snd ∧
      setupMessageLen buf = (setupRequestLen buf).bind fun len =>
        (ByteOrder.fromRequest buf).map fun order => (decide (order = .bigEndian), len) := by
  refine ⟨?_, ?_, ?_, ?_⟩
  · intro pre chunk post stream before after
    exact ⟨observeAll_reports_at tryParse pre chunk post, observeAll_order_at tryParse pre chunk post⟩
  · intro chunks
    exact observeAll_reports_le tryParse watching_new chunks
  · intro stream len hlen hfits
    exact fromSetupRequest_take tryParse hlen hfits
  · intro buf
    exact ⟨setupRequestLen_eq buf, setupMessageLen_eq buf⟩

end RemoteX11.Client
