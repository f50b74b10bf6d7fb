/-
  Programs that exchange messages with a peer, for any message and error type.

  A `Dialog` is the program: what it sends, and how it goes on with what a send or a receive returned.
  `Completes d sent received r` says that `d` can return `r` having sent and received these messages,
  whatever the peer does and whichever operations fail. `Wire` is two dialogs on a lossless ordered link;
  `wire_completes` is what a run in which both have returned says about each of them alone: what one
  received is a prefix of what the other sent.
-/
import RemoteX11.Lib.Run

namespace RemoteX11.Lib

/-- A program over messages `M`. Its sends and receives fail with a `T`, the program itself with an `E`. -/
inductive Dialog (M T E α : Type) where
  | ret (r : Except E α)
  | send (m : M) (next : Except T Unit → Dialog M T E α)
  /-- with the error that stands for a receive that took too long -/
  | recv (deadline : Option T) (next : Except T M → Dialog M T E α)

namespace Dialog

variable {M T E E' α β : Type}

/-- `?`: a failure ends the program. -/
def bind : Dialog M T E α → (α → Dialog M T E β) → Dialog M T E β
  | ret (.ok a), f => f a
  | ret (.error e), _ => ret (.error e)
  | send m next, f => send m fun r => (next r).bind f
  | recv deadline next, f => recv deadline fun r => (next r).bind f

instance : Monad (Dialog M T E) where
  pure a := ret (.ok a)
  bind := bind

def fail (e : E) : Dialog M T E α := ret (.error e)

/-- The conversion of `?` into the caller's error type. -/
def mapError (f : E → E') : Dialog M T E α → Dialog M T E' α
  | ret r => ret (r.mapError f)
  | send m next => send m fun r => (next r).mapError f
  | recv deadline next => recv deadline fun r => (next r).mapError f

def say (m : M) : Dialog M T T Unit := send m ret

def hear (deadline : Option T) : Dialog M T T M := recv deadline ret

/-! ## What a dialog can return -/

/-- The program can return `r` having sent `sent` and received `received`. A send that failed has sent
    nothing. -/
inductive Completes : Dialog M T E α → List M → List M → Except E α → Prop
  | ret {r : Except E α} : Completes (ret r) [] [] r
  | sent {m : M} {next : Except T Unit → Dialog M T E α} {sent received : List M} {r : Except E α}
      (h : Completes (next (.ok ())) sent received r) : Completes (send m next) (m :: sent) received r
  | sendFailed {m : M} {next : Except T Unit → Dialog M T E α} {sent received : List M}
      {r : Except E α} (e : T) (h : Completes (next (.error e)) sent received r) :
      Completes (send m next) sent received r
  | received {m : M} {deadline : Option T} {next : Except T M → Dialog M T E α}
      {sent received : List M} {r : Except E α} (h : Completes (next (.ok m)) sent received r) :
      Completes (recv deadline next) sent (m :: received) r
  | recvFailed {deadline : Option T} {next : Except T M → Dialog M T E α} {sent received : List M}
      {r : Except E α} (e : T) (h : Completes (next (.error e)) sent received r) :
      Completes (recv deadline next) sent received r

variable {sent received : List M}

theorem completes_pure {a b : α} :
    Completes (pure a : Dialog M T E α) sent received (.ok b) ↔ sent = [] ∧ received = [] ∧ a = b := by
  constructor
  · intro h
    cases h
    exact ⟨rfl, rfl, rfl⟩
  · rintro ⟨rfl, rfl, rfl⟩
    exact .ret

theorem not_completes_fail {e : E} {a : α} :
    ¬ Completes (fail e : Dialog M T E α) sent received (.ok a) := by
  intro h
  cases h

theorem completes_say {m : M} {u : Unit} :
    Completes (say m : Dialog M T T Unit) sent received (.ok u) ↔ sent = [m] ∧ received = [] := by
  constructor
  · intro h
    cases h with
    | sent h => cases h; exact ⟨rfl, rfl⟩
    | sendFailed e h => cases h
  · rintro ⟨rfl, rfl⟩
    exact .sent .ret

theorem completes_hear {deadline : Option T} {m : M} :
    Completes (hear deadline : Dialog M T T M) sent received (.ok m) ↔ sent = [] ∧ received = [m] := by
  constructor
  · intro h
    cases h with
    | received h => cases h; exact ⟨rfl, rfl⟩
    | recvFailed e h => cases h
  · rintro ⟨rfl, rfl⟩
    exact .received .ret

/-- A program that has returned a value has passed through each of its `?`s. -/
theorem completes_bind {d : Dialog M T E α} {f : α → Dialog M T E β} {b : β} :
    Completes (d >>= f) sent received (.ok b) ↔
      ∃ a sent₁ received₁ sent₂ received₂, Completes d sent₁ received₁ (.ok a) ∧
        Completes (f a) sent₂ received₂ (.ok b) ∧
        sent = sent₁ ++ sent₂ ∧ received = received₁ ++ received₂ := by
  constructor
  · show Completes (d.bind f) sent received (.ok b) → _
    intro h
    induction d generalizing sent received with
    | ret r =>
      cases r with
      | error e => cases h
      | ok a => exact ⟨a, [], [], sent, received, .ret, h, rfl, rfl⟩
    | send m next ih =>
      cases h with
      | sent h =>
        obtain ⟨a, s₁, r₁, s₂, r₂, h₁, h₂, rfl, rfl⟩ := ih _ h
        exact ⟨a, m :: s₁, r₁, s₂, r₂, .sent h₁, h₂, rfl, rfl⟩
      | sendFailed e h =>
        obtain ⟨a, s₁, r₁, s₂, r₂, h₁, h₂, rfl, rfl⟩ := ih _ h
        exact ⟨a, s₁, r₁, s₂, r₂, .sendFailed e h₁, h₂, rfl, rfl⟩
    | recv deadline next ih =>
      cases h with
      | received h =>
        obtain ⟨a, s₁, r₁, s₂, r₂, h₁, h₂, rfl, rfl⟩ := ih _ h
        exact ⟨a, s₁, _ :: r₁, s₂, r₂, .received h₁, h₂, rfl, rfl⟩
      | recvFailed e h =>
        obtain ⟨a, s₁, r₁, s₂, r₂, h₁, h₂, rfl, rfl⟩ := ih _ h
        exact ⟨a, s₁, r₁, s₂, r₂, .recvFailed e h₁, h₂, rfl, rfl⟩
  · rintro ⟨a, s₁, r₁, s₂, r₂, h₁, h₂, rfl, rfl⟩
    show Completes (d.bind f) _ _ _
    generalize hr : (Except.ok a : Except E α) = r at h₁
    induction h₁ with
    | ret => subst hr; exact h₂
    | sent _ ih => exact .sent (ih hr)
    | sendFailed e _ ih => exact .sendFailed e (ih hr)
    | received _ ih => exact .received (ih hr)
    | recvFailed e _ ih => exact .recvFailed e (ih hr)

theorem completes_say_bind {m : M} {f : Unit → Dialog M T T β} {b : β} :
    Completes (say m >>= f) sent received (.ok b) ↔
      ∃ rest, sent = m :: rest ∧ Completes (f ()) rest received (.ok b) := by
  rw [completes_bind]
  constructor
  · rintro ⟨_, _, _, rest, _, hsay, h, rfl, rfl⟩
    obtain ⟨rfl, rfl⟩ := completes_say.mp hsay
    exact ⟨rest, rfl, h⟩
  · rintro ⟨rest, rfl, h⟩
    exact ⟨(), [m], [], rest, received, completes_say.mpr ⟨rfl, rfl⟩, h, rfl, rfl⟩

theorem completes_hear_bind {deadline : Option T} {f : M → Dialog M T T β} {b : β} :
    Completes (hear deadline >>= f) sent received (.ok b) ↔
      ∃ m rest, received = m :: rest ∧ Completes (f m) sent rest (.ok b) := by
  rw [completes_bind]
  constructor
  · rintro ⟨m, _, _, _, rest, hhear, h, rfl, rfl⟩
    obtain ⟨rfl, rfl⟩ := completes_hear.mp hhear
    exact ⟨m, rest, rfl, h⟩
  · rintro ⟨m, rest, rfl, h⟩
    exact ⟨m, [], [m], sent, rest, completes_hear.mpr ⟨rfl, rfl⟩, h, rfl, rfl⟩

theorem completes_ret_bind {r : Except E α} {f : α → Dialog M T E β} {b : β} :
    Completes (ret r >>= f) sent received (.ok b) ↔
      ∃ a, r = .ok a ∧ Completes (f a) sent received (.ok b) := by
  cases r with
  | ok a =>
    constructor
    · intro h
      exact ⟨a, rfl, h⟩
    · rintro ⟨_, ha, h⟩
      cases ha
      exact h
  | error e =>
    constructor
    · intro h
      cases h
    · rintro ⟨_, ha, -⟩
      cases ha

end Dialog

/-! ## Playing a dialog against a script -/

/-- What an operation returned. -/
inductive Event (M T : Type) where
  | sent (r : Except T Unit)
  | received (r : Except T M)
  | timedOut

/-- The operation failed with this error. -/
def Event.failure {M T : Type} : Event M T → Option T
  | .sent (.error e) => some e
  | .received (.error e) => some e
  | _ => none

namespace Dialog

variable {M T E E' α β : Type}

/-- What the program returns when its operations return what the script says; `none` when the script is
    not one of exactly its operations. -/
def play : Dialog M T E α → List (Event M T) → Option (Except E α)
  | ret r, [] => some r
  | send _ next, .sent r :: es => play (next r) es
  | recv _ next, .received r :: es => play (next r) es
  | recv (some e) next, .timedOut :: es => play (next (.error e)) es
  | _, _ => none

theorem play_fail {e : E} {es : List (Event M T)} {r : Except E α}
    (h : (fail e : Dialog M T E α).play es = some r) : r = .error e := by
  cases es with
  | nil => exact (Option.some.inj h).symm
  | cons ev es => cases h

/-- A failed operation ends the program, with the error converted by `f`. -/
inductive Propagates (f : T → E) : Dialog M T E α → Prop
  | ret (r : Except E α) : Propagates f (ret r)
  | send (m : M) {next : Except T Unit → Dialog M T E α}
      (failed : ∀ e, next (.error e) = .ret (.error (f e))) (sent : Propagates f (next (.ok ()))) :
      Propagates f (send m next)
  | recv (deadline : Option T) {next : Except T M → Dialog M T E α}
      (failed : ∀ e, next (.error e) = .ret (.error (f e)))
      (received : ∀ m, Propagates f (next (.ok m))) : Propagates f (recv deadline next)

namespace Propagates

theorem say (m : M) : Propagates (E := T) id (say m) := .send m (fun _ => rfl) (.ret _)

theorem hear (deadline : Option T) : Propagates (M := M) (E := T) id (hear deadline) :=
  .recv deadline (fun _ => rfl) fun _ => .ret _

theorem bind {f : T → E} {d : Dialog M T E α} {k : α → Dialog M T E β} (hd : Propagates f d)
    (hk : ∀ a, Propagates f (k a)) : Propagates f (d >>= k) := by
  show Propagates f (d.bind k)
  induction hd with
  | ret r =>
    cases r with
    | ok a => exact hk a
    | error e => exact .ret _
  | send m failed _ ih =>
    refine .send m ?_ ih
    intro e
    rw [failed]
    rfl
  | recv deadline failed _ ih =>
    refine .recv deadline ?_ ih
    intro e
    rw [failed]
    rfl

theorem mapError {f : T → E} (g : E → E') {d : Dialog M T E α} (hd : Propagates f d) :
    Propagates (g ∘ f) (d.mapError g) := by
  induction hd with
  | ret r => exact .ret _
  | send m failed _ ih =>
    refine .send m ?_ ih
    intro e
    rw [failed]
    rfl
  | recv deadline failed _ ih =>
    refine .recv deadline ?_ ih
    intro e
    rw [failed]
    rfl

/-- One event of a script: the program goes on, and a failure has ended it. -/
theorem play_cons {f : T → E} {d : Dialog M T E α} (hd : Propagates f d) {ev : Event M T}
    {es : List (Event M T)} {r : Except E α} (h : d.play (ev :: es) = some r) :
    ∃ d', Propagates f d' ∧ d'.play es = some r ∧
      ∀ e, ev.failure = some e → d' = .ret (.error (f e)) := by
  cases hd with
  | ret r' => cases ev <;> cases h
  | send m failed sent =>
    cases ev with
    | sent res =>
      cases res with
      | ok u => exact ⟨_, sent, h, fun e he => by cases he⟩
      | error e' =>
        refine ⟨.ret (.error (f e')), .ret _, ?_, fun e he => by cases he; rfl⟩
        rw [← failed e']
        exact h
    | received res => cases h
    | timedOut => cases h
  | recv deadline failed received =>
    cases ev with
    | sent res => cases deadline <;> cases h
    | received res =>
      cases res with
      | ok m =>
        refine ⟨_, received m, ?_, fun e he => by cases he⟩
        cases deadline <;> exact h
      | error e' =>
        refine ⟨.ret (.error (f e')), .ret _, ?_, fun e he => by cases he; rfl⟩
        rw [← failed e']
        cases deadline <;> exact h
    | timedOut =>
      cases deadline with
      | none => cases h
      | some e' =>
        refine ⟨.ret (.error (f e')), .ret _, ?_, fun e he => by cases he⟩
        rw [← failed e']
        exact h

/-- A script that ends with a failed operation returns its error. -/
theorem play_failed {f : T → E} {d : Dialog M T E α} (hd : Propagates f d) {es : List (Event M T)}
    {last : Event M T} {e : T} (hlast : last.failure = some e) {r : Except E α}
    (h : d.play (es ++ [last]) = some r) : r = .error (f e) := by
  induction es generalizing d with
  | nil =>
    obtain ⟨d', -, hplay, hfailed⟩ := hd.play_cons h
    rw [hfailed e hlast] at hplay
    exact (Option.some.inj hplay).symm
  | cons ev es ih =>
    obtain ⟨d', hd', hplay, -⟩ := hd.play_cons h
    exact ih hd' hplay

end Propagates

end Dialog

/-! ## Two dialogs on a link -/

/-- What a party does next: the operation it is at succeeds, or fails. -/
inductive Move (T : Type) where
  | go
  | fails (e : T)

/-- Two parties and the messages in flight. -/
structure Wire (M T E α β : Type) where
  left : Dialog M T E α
  right : Dialog M T E β
  toRight : List M
  toLeft : List M

inductive WireAction (T : Type) where
  | left (move : Move T)
  | right (move : Move T)

namespace Wire

variable {M T E α β : Type}

/-- The operation a party is at: a send appends to what is on the way out, a receive takes the first of
    what has come in. -/
def advance : Dialog M T E α → List M → List M → Move T → Option (Dialog M T E α × List M × List M)
  | .ret _, _, _, _ => none
  | .send m next, out, inn, .go => some (next (.ok ()), out ++ [m], inn)
  | .send _ next, out, inn, .fails e => some (next (.error e), out, inn)
  | .recv _ _, _, [], .go => none
  | .recv _ next, out, m :: inn, .go => some (next (.ok m), out, inn)
  | .recv _ next, out, inn, .fails e => some (next (.error e), out, inn)

def step (w : Wire M T E α β) : WireAction T → Option (Wire M T E α β)
  | .left move => (advance w.left w.toRight w.toLeft move).map fun (d, out, inn) =>
      { w with left := d, toRight := out, toLeft := inn }
  | .right move => (advance w.right w.toLeft w.toRight move).map fun (d, out, inn) =>
      { w with right := d, toLeft := out, toRight := inn }

/-- One operation: what the party completes with afterwards, it completes with before, having sent what
    the operation appended and received what it took. -/
theorem advance_completes {d d' : Dialog M T E α} {out out' inn inn' : List M} {move : Move T}
    (h : advance d out inn move = some (d', out', inn')) {sent received : List M} {r : Except E α}
    (hc : d'.Completes sent received r) :
    ∃ sent' received', d.Completes sent' received' r ∧ out ++ sent' = out' ++ sent ∧
      ∀ more rest, inn' ++ more = received ++ rest → inn ++ more = received' ++ rest := by
  cases d with
  | ret r => cases h
  | send m next =>
    cases move with
    | go =>
      cases h
      exact ⟨m :: sent, received, .sent hc, (List.append_assoc out [m] sent).symm, fun _ _ h => h⟩
    | fails e =>
      cases h
      exact ⟨sent, received, .sendFailed e hc, rfl, fun _ _ h => h⟩
  | recv deadline next =>
    cases move with
    | go =>
      cases inn with
      | nil => cases h
      | cons m inn =>
        cases h
        exact ⟨sent, m :: received, .received hc, rfl, fun _ _ h => congrArg (m :: ·) h⟩
    | fails e =>
      cases inn with
      | nil =>
        cases h
        exact ⟨sent, received, .recvFailed e hc, rfl, fun _ _ h => h⟩
      | cons m inn =>
        cases h
        exact ⟨sent, received, .recvFailed e hc, rfl, fun _ _ h => h⟩

/-- **Both have returned.** Each of the two alone completes with what it returned, and what it received,
    followed by what is still in flight, is what was in flight before and what the other sent. -/
theorem wire_completes {w u : Wire M T E α β} {as : List (WireAction T)} (h : run step w as = some u)
    {a : Except E α} {b : Except E β} (ha : u.left = .ret a) (hb : u.right = .ret b) :
    ∃ sentL receivedL sentR receivedR, w.left.Completes sentL receivedL a ∧
      w.right.Completes sentR receivedR b ∧
      w.toRight ++ sentL = receivedR ++ u.toRight ∧ w.toLeft ++ sentR = receivedL ++ u.toLeft := by
  induction as generalizing w with
  | nil =>
    cases Option.some.inj h
    refine ⟨[], [], [], [], ?_, ?_, by simp, by simp⟩
    · rw [ha]; exact .ret
    · rw [hb]; exact .ret
  | cons act as ih =>
    obtain ⟨v, hv, hrun⟩ := run_cons_eq_some.mp h
    obtain ⟨sentL, receivedL, sentR, receivedR, hL, hR, htoR, htoL⟩ := ih hrun
    cases act with
    | left move =>
      obtain ⟨⟨d, out, inn⟩, hadv, rfl⟩ := Option.map_eq_some_iff.mp hv
      obtain ⟨sent', received', hc, hout, hinn⟩ := advance_completes hadv hL
      exact ⟨sent', received', sentR, receivedR, hc, hR, hout.trans htoR, hinn _ _ htoL⟩
    | right move =>
      obtain ⟨⟨d, out, inn⟩, hadv, rfl⟩ := Option.map_eq_some_iff.mp hv
      obtain ⟨sent', received', hc, hout, hinn⟩ := advance_completes hadv hR
      exact ⟨sentL, receivedL, sent', received', hL, hc, hinn _ _ htoR, hout.trans htoL⟩

end Wire

end RemoteX11.Lib
