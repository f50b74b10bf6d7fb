/-
  The re-encoder once it is disabled (`x11recode/mod.rs`).

  Disabled, `consume_requests` passes on what is held. `consume_setup` does not look at the flag before it
  looks at the bytes: what begins like a setup request and is not a whole one waits for the rest.
-/
import RemoteX11.Recode.Bounds
import RemoteX11.Lib.Run

namespace RemoteX11.Recode.DownstreamReencoder

open RemoteX11.Lib

/-- A push, for the state alone. -/
def step (K : ImageCodecs) (m : DownstreamReencoder) (chunk : Bytes) : Option DownstreamReencoder :=
  (m.push K chunk []).map (·.1)

/-- A disabled machine emits the chunk at once, as one raw unit, and holds nothing back. -/
def PassesOn (K : ImageCodecs) (m : DownstreamReencoder) (chunk : Bytes) : Prop :=
  m.disabled = true → chunk ≠ [] →
    ∀ out, ∃ m', m.push K chunk out = some (m', out ++ [0 :: chunk]) ∧ m'.buf = []

/-- The chunk begins like a setup request. -/
def beginsSetup (chunk : Bytes) : Prop := ¬ (chunk.head?.any fun b => b ≠ 66 ∧ b ≠ 108) = true

/-- The chunk holds the whole of the setup request that it begins. -/
def WholeSetup (chunk : Bytes) : Prop :=
  ∃ bigEndian len, setupMessageLen chunk = some (bigEndian, len) ∧ len ≤ chunk.length

/-- A disabled machine in its first stage is not pushed a chunk that begins a setup request and breaks off. -/
def NotBrokenOff (m : DownstreamReencoder) (chunk : Bytes) : Prop :=
  m.disabled = true → chunk ≠ [] → m.stage = .setup → beginsSetup chunk → WholeSetup chunk

/-- Between two pushes: no raw bytes wait, and a disabled machine holds none. -/
structure Flushed (m : DownstreamReencoder) : Prop where
  rawAcc : m.rawAcc = []
  buf : m.disabled = true → m.buf = []

theorem consumeRequests_disabled (K : ImageCodecs) {m : DownstreamReencoder} (h : m.disabled = true)
    (out : List Bytes) : m.consumeRequests K out = some (m.passRaw, out) := by
  rw [consumeRequests, if_pos h]

/-- A machine that `consume_requests` leaves disabled holds nothing. -/
theorem consumeRequests_buf {K : ImageCodecs} {m m' : DownstreamReencoder} {out out' : List Bytes}
    (h : m.consumeRequests K out = some (m', out')) (hdisabled : m'.disabled = true) : m'.buf = [] := by
  fun_induction consumeRequests K m out with
  | case1 m out hdis =>
    cases h
    rfl
  | case2 m out hdis htotal =>
    cases h
    exact absurd hdisabled hdis
  | case3 m out hdis total htotal hrange =>
    cases h
    rfl
  | case4 m out hdis total htotal hrange hlen =>
    cases h
    exact absurd hdisabled hdis
  | case5 => cases h
  | case6 m out hdis total htotal hrange hlen hship ih => exact ih h
  | case7 m out hdis total htotal hrange hlen s hship flushed ih => exact ih h

/-- Whether `consume_setup` waits for more bytes. -/
def SetupWaits (buf : Bytes) : Prop := beginsSetup buf ∧ ¬ WholeSetup buf

theorem consumeSetup_waits (K : ImageCodecs) {m : DownstreamReencoder} (h : SetupWaits m.buf)
    (out : List Bytes) : m.consumeSetup K out = some (m, out) := by
  obtain ⟨hbegins, hpart⟩ := h
  unfold beginsSetup at hbegins
  unfold consumeSetup
  rw [if_neg hbegins]
  cases hsetup : setupMessageLen m.buf with
  | none =>
    simp only
    have hshort : ¬ m.buf.length > 64 * 1024 := by
      intro hlong
      exact setupMessageLen_isSome (by unfold setupHeaderLen; omega) hbegins hsetup
    rw [if_neg hshort]
  | some header =>
    obtain ⟨bigEndian, len⟩ := header
    have hlen : m.buf.length < len := by
      apply Nat.lt_of_not_le
      intro hle
      exact hpart ⟨bigEndian, len, hsetup, hle⟩
    exact if_pos hlen

/-- Where `consume_setup` does not wait. -/
theorem consumeSetup_goes_on (K : ImageCodecs) {m : DownstreamReencoder} (h : ¬ SetupWaits m.buf)
    (out : List Bytes) : m.consumeSetup K out = some (m.passRaw, out) ∨
      ∃ bigEndian len, m.consumeSetup K out = consumeRequests K
        { m.keepRaw len with bigEndian := bigEndian, stage := .requests } out := by
  unfold consumeSetup
  by_cases hbegins : beginsSetup m.buf
  · obtain ⟨bigEndian, len, hsetup, hlen⟩ : WholeSetup m.buf := by
      by_contra hpart
      exact h ⟨hbegins, hpart⟩
    refine .inr ⟨bigEndian, len, ?_⟩
    rw [if_neg hbegins, hsetup]
    exact if_neg (Nat.not_lt.mpr hlen)
  · exact .inl (if_pos (not_not.mp hbegins))

/-- Disabled, and not at the beginning of a setup request, the machine passes on all it holds. -/
theorem consumeSetup_disabled (K : ImageCodecs) {m : DownstreamReencoder} (hdisabled : m.disabled = true)
    (h : ¬ SetupWaits m.buf) (out : List Bytes) :
    ∃ u, m.consumeSetup K out = some (u, out) ∧ u.rawAcc = m.rawAcc ++ m.buf ∧ u.buf = [] := by
  obtain hpass | ⟨bigEndian, len, hrequests⟩ := consumeSetup_goes_on K h out
  · exact ⟨m.passRaw, hpass, rfl, rfl⟩
  · have hpass := consumeRequests_disabled K
      (m := { m.keepRaw len with bigEndian := bigEndian, stage := .requests }) hdisabled out
    refine ⟨_, hrequests.trans hpass, ?_, rfl⟩
    show m.rawAcc ++ m.buf.take len ++ m.buf.drop len = m.rawAcc ++ m.buf
    rw [List.append_assoc, List.take_append_drop]

/-- What is held when a stage takes over. -/
def received (m : DownstreamReencoder) (chunk : Bytes) : DownstreamReencoder :=
  { m with buf := m.buf ++ chunk }

theorem push_at_setup (K : ImageCodecs) {m : DownstreamReencoder} (hstage : m.stage = .setup)
    (chunk : Bytes) (out : List Bytes) : m.push K chunk out =
      ((m.received chunk).consumeSetup K out).map fun r => r.1.flushRaw r.2 := by
  unfold push received
  simp only [hstage]

theorem push_at_requests (K : ImageCodecs) {m : DownstreamReencoder} (hstage : m.stage = .requests)
    (chunk : Bytes) (out : List Bytes) : m.push K chunk out =
      ((m.received chunk).consumeRequests K out).map fun r => r.1.flushRaw r.2 := by
  unfold push received
  simp only [hstage]

/-- The one raw unit of what was received. -/
theorem flushRaw_unit {u : DownstreamReencoder} {raw : Bytes} (hraw : u.rawAcc = raw) (hne : raw ≠ [])
    (out : List Bytes) : u.flushRaw out = ({ u with rawAcc := [] }, out ++ [0 :: raw]) := by
  unfold flushRaw
  rw [if_neg (by simpa [hraw] using hne), hraw]

/-- **What a disabled machine passes on.** -/
theorem passesOn_iff (K : ImageCodecs) {m : DownstreamReencoder} (h : m.Flushed) (chunk : Bytes) :
    m.PassesOn K chunk ↔ m.NotBrokenOff chunk := by
  apply forall_congr'
  intro hdisabled
  apply forall_congr'
  intro hne
  have hreceived : (m.received chunk).rawAcc ++ (m.received chunk).buf = chunk := by
    show m.rawAcc ++ (m.buf ++ chunk) = chunk
    rw [h.rawAcc, h.buf hdisabled, List.nil_append, List.nil_append]
  have hbuf : (m.received chunk).buf = chunk := by
    show m.buf ++ chunk = chunk
    rw [h.buf hdisabled, List.nil_append]
  cases hstage : m.stage with
  | requests =>
    refine iff_of_true ?_ (fun hsetup => by cases hsetup)
    intro out
    refine ⟨{ (m.received chunk).passRaw with rawAcc := [] }, ?_, rfl⟩
    rw [push_at_requests K hstage, consumeRequests_disabled K (m := m.received chunk) hdisabled,
      Option.map_some, flushRaw_unit hreceived hne]
  | setup =>
    by_cases hwaits : SetupWaits chunk
    · refine iff_of_false ?_ (fun hwhole => hwaits.2 (hwhole rfl hwaits.1))
      intro hpasses
      obtain ⟨m', hpush, -⟩ := hpasses []
      rw [push_at_setup K hstage, consumeSetup_waits K (by rwa [hbuf]), Option.map_some] at hpush
      have hacc : (m.received chunk).rawAcc = [] := h.rawAcc
      rw [flushRaw, hacc] at hpush
      cases hpush
    · refine iff_of_true ?_ ?_
      · intro out
        obtain ⟨u, hu, hacc, hnil⟩ := consumeSetup_disabled K (m := m.received chunk) hdisabled
          (by rwa [hbuf]) out
        refine ⟨{ u with rawAcc := [] }, ?_, hnil⟩
        rw [push_at_setup K hstage, hu, Option.map_some, flushRaw_unit (hacc.trans hreceived) hne]
      · intro _ hbegins
        by_contra hpart
        exact hwaits ⟨hbegins, hpart⟩

/-- What `consume_setup` leaves disabled holds nothing, unless it waits. -/
theorem consumeSetup_buf {K : ImageCodecs} {m u : DownstreamReencoder} {out out' : List Bytes}
    (hwaits : ¬ SetupWaits m.buf) (h : m.consumeSetup K out = some (u, out'))
    (hdisabled : u.disabled = true) : u.buf = [] := by
  obtain hpass | ⟨bigEndian, len, hrequests⟩ := consumeSetup_goes_on K hwaits out
  · rw [hpass] at h
    cases h
    rfl
  · exact consumeRequests_buf (hrequests.symm.trans h) hdisabled

theorem Flushed.of_consumed {u : DownstreamReencoder} (h : u.disabled = true → u.buf = [])
    (out : List Bytes) : Flushed (u.flushRaw out).1 := by
  rw [flushRaw_fst]
  exact ⟨rfl, h⟩

/-- **One push keeps a machine flushed**, when it does not break off a setup request. -/
theorem Flushed.step {K : ImageCodecs} {m m' : DownstreamReencoder} (h : m.Flushed) {chunk : Bytes}
    (hguard : m.NotBrokenOff chunk) (hstep : step K m chunk = some m') : m'.Flushed := by
  obtain ⟨r, hpush, rfl⟩ := Option.map_eq_some_iff.mp hstep
  cases hstage : m.stage with
  | requests =>
    rw [push_at_requests K hstage] at hpush
    obtain ⟨⟨u, out⟩, hconsumed, rfl⟩ := Option.map_eq_some_iff.mp hpush
    exact Flushed.of_consumed (consumeRequests_buf hconsumed) out
  | setup =>
    rw [push_at_setup K hstage] at hpush
    obtain ⟨⟨u, out⟩, hconsumed, rfl⟩ := Option.map_eq_some_iff.mp hpush
    apply Flushed.of_consumed
    by_cases hwaits : SetupWaits (m.received chunk).buf
    · rw [consumeSetup_waits K hwaits] at hconsumed
      cases hconsumed
      intro hdisabled
      have hbuf : (m.received chunk).buf = chunk := by
        show m.buf ++ chunk = chunk
        rw [h.buf hdisabled, List.nil_append]
      rw [hbuf] at hwaits ⊢
      -- only an empty chunk can have been waited for
      by_contra hne
      exact hwaits.2 (hguard hdisabled hne hstage hwaits.1)
    · exact consumeSetup_buf hwaits hconsumed

/-- **When a disabled machine holds nothing back.** For every stream and chunking: every push to a disabled
machine emits its chunk at once and leaves the buffer empty if and only if no push to a machine that was
disabled in its first stage begins a setup request and breaks it off. -/
theorem disabled_passes_on_iff (K : ImageCodecs) (spec : RecodeSpec) (chunks : List Bytes) :
    Meets (step K) (PassesOn K) (new spec) chunks ↔ Meets (step K) NotBrokenOff (new spec) chunks := by
  apply meets_iff_of_inv (J := Flushed)
  · intro m chunk hm
    exact passesOn_iff K hm chunk
  · intro m chunk m' hm hguard hstep
    exact hm.step hguard hstep
  · exact ⟨rfl, fun _ => rfl⟩

/-- Not an X11 stream: after `X` has disabled the machine, `lo` is held back. -/
theorem broken_off_setup_held : ¬ ∀ (K : ImageCodecs) (spec : RecodeSpec) (chunks : List Bytes),
    Meets (step K) (PassesOn K) (new spec) chunks := by
  intro h
  let K : ImageCodecs := ⟨id, some, fun _ _ _ _ => none, fun _ => none⟩
  let after : DownstreamReencoder := ⟨⟨.jpeg, 80, 16 * 1024⟩, [], [], .setup, false, true⟩
  have hfirst : step K (new ⟨.jpeg, 80, 16 * 1024⟩) [88] = some after := by decide +kernel
  have hsecond := ((h K ⟨.jpeg, 80, 16 * 1024⟩ [[88], [108, 111]]).2 after hfirst).1
  obtain ⟨m', hpush, -⟩ := hsecond rfl (by simp) []
  have hheld : after.push K [108, 111] [] = some ({ after with buf := [108, 111] }, []) := by decide +kernel
  rw [hheld] at hpush
  cases hpush

end RemoteX11.Recode.DownstreamReencoder
