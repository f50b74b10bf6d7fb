/-
  `destroy_session` (`session/mod.rs`), over whatever it works on.

  The call is a list of sections with awaits between them. What a section does to a server is a field of
  `DestroyParts`; the order of the sections, and which of them are left out, is `DestroyParts.next`. The
  session manager and the end of a client connection each run this one program on their own state.
-/
import RemoteX11.Protocol.Messages

namespace RemoteX11.Sessions

open RemoteX11.Protocol

/-- Where a `destroy_session` call stands. -/
inductive DestroyPhase where
  | cancelGrace
  | unbind
  | takeConns
  /-- close the connections that were taken -/
  | closing (ids : List ConnectionId)
  | xauthRemove
  | removeRelay
  | removeSession
  | done
  deriving DecidableEq, Repr

/-- The sections that are left, but for the turns of the loop over the connections. -/
def DestroyPhase.left : DestroyPhase → Nat
  | .cancelGrace => 7
  | .unbind => 6
  | .takeConns => 5
  | .closing _ => 4
  | .xauthRemove => 3
  | .removeRelay => 2
  | .removeSession => 1
  | .done => 0

/-- Two sections are left of `removeRelay` only. -/
theorem DestroyPhase.three_le_left {phase : DestroyPhase} (h : 2 ≤ phase.left)
    (hphase : phase ≠ .removeRelay) : 3 ≤ phase.left := by
  cases phase with
  | removeRelay => exact absurd rfl hphase
  | removeSession | done => simp [left] at h
  | _ => simp [left]

universe u

/-- What the sections of a call do to a server `σ`. -/
structure DestroyParts (σ : Type u) where
  cancelGrace : σ → σ
  unbindDisplay : σ → σ
  takeConns : σ → Option (List ConnectionId) × σ
  /-- `Close` to some of these connections, with those that are left; `none` when it has to wait -/
  close : List ConnectionId → σ → Option (List ConnectionId × σ)
  xauthRemove : σ → σ
  removeRelay : σ → σ
  removeSession : σ → σ

/-- The next section of a call. -/
def DestroyParts.next {σ : Type u} (parts : DestroyParts σ) (s : σ) :
    DestroyPhase → Option (DestroyPhase × σ)
  | .cancelGrace => some (.unbind, parts.cancelGrace s)
  | .unbind => some (.takeConns, parts.unbindDisplay s)
  | .takeConns =>
    match parts.takeConns s with
    | (some ids, s) => some (.closing ids, s)
    | (none, s) => some (.xauthRemove, s)
  | .closing ids =>
    match parts.close ids s with
    | some ([], s) => some (.xauthRemove, s)
    | some (rest, s) => some (.closing rest, s)
    | none => none
  | .xauthRemove => some (.removeRelay, parts.xauthRemove s)
  | .removeRelay => some (.removeSession, parts.removeRelay s)
  | .removeSession => some (.done, parts.removeSession s)
  | .done => none

end RemoteX11.Sessions
