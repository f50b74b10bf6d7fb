/-
  Who is removed by the two fan-outs, and who is told (`audio/mix.rs`, `audio/per_app.rs`).

  Here the lanes are only what they answer: every `send_priority` returns any of its three results, whatever
  the writers and the other senders did before it. `Listeners` is what the two fan-outs have in common.
  `Mix.step_acts` and `fanOut_acts` say that the hubs of `Audio.Mix` and `Audio.Hub`, whose lanes are
  queues, act on their lists in this way.

  A full lane costs more than the packet at two places: `ChannelOpen`, where the listener counts as dead,
  and `ChannelClose`, which nobody repeats (`listeners_kept_iff`).
-/
import RemoteX11.Audio.Captures
import RemoteX11.Audio.Subscriptions

namespace RemoteX11.Audio

open RemoteX11.Lib RemoteX11.Protocol RemoteX11.Queue

/-! ## One turn of a fan-out -/

/-- What `send_priority` returns. -/
abbrev Answer := Except PrioritySendError Unit

/-- What a turn leaves of a listener, with the answers of its lane. -/
structure Turned where
  opened : Bool
  shed : Nat
  answers : List Answer
  dead : Bool
  deriving Repr

/-- The packet for an opened listener. -/
def packetTurn (data : Answer) (shed : Nat) (before : List Answer) : Turned :=
  match data with
  | .ok () => ⟨true, shed, before ++ [data], false⟩
  | .error .full => ⟨true, shed + 1, before ++ [data], false⟩
  | .error .closed => ⟨true, shed, before ++ [data], true⟩

/-- One turn: `ChannelOpen` where it is due, then the packet. -/
def turn (opening data : Answer) (opened : Bool) (shed : Nat) : Turned :=
  if opened then packetTurn data shed []
  else
    match opening with
    | .ok () => packetTurn data shed [opening]
    | .error _ => ⟨false, shed, [opening], true⟩

section Turn

variable {opening data : Answer} {opened : Bool} {shed : Nat}

/-- The listener is opened when it was, or when its `ChannelOpen` was taken. -/
theorem turn_opened : (turn opening data opened shed).opened = true ↔ opened = true ∨ opening = .ok () := by
  unfold turn packetTurn
  cases opened with
  | true => rcases data with (_ | _) | _ <;> simp
  | false => rcases opening with (_ | _) | _ <;> rcases data with (_ | _) | _ <;> simp

theorem turn_dead_of_closed (h : .error .closed ∈ (turn opening data opened shed).answers) :
    (turn opening data opened shed).dead = true := by
  unfold turn packetTurn at *
  cases opened with
  | true => rcases data with (_ | _) | _ <;> simp_all
  | false => rcases opening with (_ | _) | _ <;> rcases data with (_ | _) | _ <;> simp_all

/-- Who is dead has a closed lane, unless a full one refused the opening. -/
theorem turn_dead (hroom : opened = false → opening ≠ .error .full)
    (h : (turn opening data opened shed).dead = true) :
    .error .closed ∈ (turn opening data opened shed).answers := by
  unfold turn packetTurn at *
  cases opened with
  | true => rcases data with (_ | _) | _ <;> simp_all
  | false => rcases opening with (_ | _) | _ <;> rcases data with (_ | _) | _ <;> simp_all

end Turn

/-! ## Both fan-outs -/

/-- What a fan-out needs of its listeners. -/
structure Listeners (α : Type) where
  id : α → ConnectionId
  opened : α → Bool
  shed : α → Nat
  mark : α → Bool → Nat → α
  id_mark : ∀ x o n, id (mark x o n) = id x
  opened_mark : ∀ x o n, opened (mark x o n) = o
  shed_mark : ∀ x o n, shed (mark x o n) = n
  mark_self : ∀ x, mark x (opened x) (shed x) = x
  mark_mark : ∀ x o n o' n', mark (mark x o n) o' n' = mark x o' n'

/-- The subscribers of the mix. -/
def mixListeners : Listeners MixSubscriber where
  id := MixSubscriber.conn
  opened := MixSubscriber.opened
  shed := MixSubscriber.shed
  mark sub opened shed := { sub with opened := opened, shed := shed }
  id_mark _ _ _ := rfl
  opened_mark _ _ _ := rfl
  shed_mark _ _ _ := rfl
  mark_self _ := rfl
  mark_mark _ _ _ _ _ := rfl

/-- The channels of one application. -/
def appListeners : Listeners Channel where
  id := Channel.audioChannelId
  opened := Channel.opened
  shed := Channel.shed
  mark ch opened shed := { ch with opened := opened, shed := shed }
  id_mark _ _ _ := rfl
  opened_mark _ _ _ := rfl
  shed_mark _ _ _ := rfl
  mark_self _ := rfl
  mark_mark _ _ _ _ _ := rfl

namespace Listeners

variable {α : Type} (L : Listeners α)

/-- The turn of a listener whose lane answers in this way. -/
def turnOf (answers : Answer × Answer) (x : α) : Turned :=
  turn answers.1 answers.2 (L.opened x) (L.shed x)

def marked (answers : Answer × Answer) (x : α) : α :=
  L.mark x (L.turnOf answers x).opened (L.turnOf answers x).shed

/-- The turns of the loop; `answers` are those of the lane of the `i`-th listener. -/
def turns (answers : Nat → Answer × Answer) (l : List α) : List (α × Bool) :=
  l.mapIdx fun i x => (L.marked (answers i) x, (L.turnOf (answers i) x).dead)

/-- The loop and the sweep after it. -/
def fanOut (answers : Nat → Answer × Answer) (l : List α) : List α :=
  let dead := ((L.turns answers l).filter Prod.snd).map fun r => L.id r.1
  ((L.turns answers l).map Prod.fst).filter fun x => !dead.contains (L.id x)

/-- A listener is kept, opened if its `ChannelOpen` was taken, or its lane has said that it is closed. -/
def SweepFair (answers : Nat → Answer × Answer) (l : List α) : Prop :=
  ∀ i x, l[i]? = some x →
    (∃ y ∈ L.fanOut answers l, L.id y = L.id x ∧
      (L.opened y = true ↔ L.opened x = true ∨ (answers i).1 = .ok ())) ∨
    .error .closed ∈ (L.turnOf (answers i) x).answers

/-- No `ChannelOpen` finds its lane full. -/
def Roomy (answers : Nat → Answer × Answer) (l : List α) : Prop :=
  ∀ i x, l[i]? = some x → L.opened x = false → (answers i).1 ≠ .error .full

/-- No listener on a closed lane has the id of one on an open lane. -/
def Unshared (answers : Nat → Answer × Answer) (l : List α) : Prop :=
  ∀ i j x y, l[i]? = some x → l[j]? = some y → L.id x = L.id y →
    .error .closed ∈ (L.turnOf (answers i) x).answers → .error .closed ∈ (L.turnOf (answers j) y).answers

variable {L} {answers : Nat → Answer × Answer} {l : List α} {i : Nat} {x : α}

theorem mem_turns {r : α × Bool} : r ∈ L.turns answers l ↔
    ∃ i x, l[i]? = some x ∧ (L.marked (answers i) x, (L.turnOf (answers i) x).dead) = r := by
  unfold turns
  rw [List.mem_mapIdx]
  constructor
  · rintro ⟨i, hi, h⟩
    exact ⟨i, l[i], List.getElem?_eq_getElem hi, h⟩
  · rintro ⟨i, x, hx, h⟩
    obtain ⟨hi, rfl⟩ := List.getElem?_eq_some_iff.mp hx
    exact ⟨i, hi, h⟩

theorem id_marked (a : Answer × Answer) : L.id (L.marked a x) = L.id x := L.id_mark _ _ _

/-- The ids of the dead. -/
theorem mem_dead {id : ConnectionId} :
    id ∈ ((L.turns answers l).filter Prod.snd).map (fun r => L.id r.1) ↔
      ∃ i x, l[i]? = some x ∧ (L.turnOf (answers i) x).dead = true ∧ L.id x = id := by
  simp only [List.mem_map, List.mem_filter, mem_turns]
  constructor
  · rintro ⟨r, ⟨⟨i, x, hx, rfl⟩, hdead⟩, rfl⟩
    exact ⟨i, x, hx, hdead, (id_marked _).symm⟩
  · rintro ⟨i, x, hx, hdead, rfl⟩
    exact ⟨_, ⟨⟨i, x, hx, rfl⟩, hdead⟩, id_marked _⟩

/-- A listener that is kept is a marked one whose id is not dead. -/
theorem mem_fanOut {y : α} : y ∈ L.fanOut answers l ↔
    (∃ i x, l[i]? = some x ∧ L.marked (answers i) x = y) ∧
      ∀ j z, l[j]? = some z → L.id z = L.id y → (L.turnOf (answers j) z).dead = false := by
  unfold fanOut
  rw [List.mem_filter, List.mem_map, Bool.not_eq_true', List.contains_eq_mem, decide_eq_false_iff_not,
    mem_dead]
  constructor
  · rintro ⟨⟨r, hr, rfl⟩, hnot⟩
    obtain ⟨i, x, hx, rfl⟩ := mem_turns.mp hr
    refine ⟨⟨i, x, hx, rfl⟩, fun j z hz hid => ?_⟩
    cases hdead : (L.turnOf (answers j) z).dead with
    | false => rfl
    | true => exact absurd ⟨j, z, hz, hdead, hid⟩ hnot
  · rintro ⟨⟨i, x, hx, rfl⟩, hall⟩
    refine ⟨⟨_, mem_turns.mpr ⟨i, x, hx, rfl⟩, rfl⟩, ?_⟩
    rintro ⟨j, z, hz, hd, hid⟩
    rw [hall j z hz hid] at hd
    cases hd

/-- **The sweep** is fair if and only if no opening finds its lane full and no id is shared with a
    listener on a closed lane. -/
theorem sweepFair_iff : L.SweepFair answers l ↔ L.Roomy answers l ∧ L.Unshared answers l := by
  constructor
  · intro hfair
    constructor
    · intro i x hx hopened hfull
      have hturn : L.turnOf (answers i) x = ⟨false, L.shed x, [.error .full], true⟩ := by
        unfold turnOf
        rw [hopened, hfull]
        rfl
      rcases hfair i x hx with ⟨y, hy, hid, -⟩ | hclosed
      · have hdead := (mem_fanOut.mp hy).2 i x hx hid.symm
        rw [hturn] at hdead
        cases hdead
      · rw [hturn] at hclosed
        simp at hclosed
    · intro i j x y hx hy hid hclosed
      rcases hfair j y hy with ⟨z, hz, hzid, -⟩ | h
      · have hdead := (mem_fanOut.mp hz).2 i x hx (hid.trans hzid.symm)
        rw [turnOf, turn_dead_of_closed hclosed] at hdead
        cases hdead
      · exact h
  · rintro ⟨hroomy, hunshared⟩ i x hx
    by_cases hclosed : .error .closed ∈ (L.turnOf (answers i) x).answers
    · exact .inr hclosed
    · refine .inl ⟨L.marked (answers i) x, mem_fanOut.mpr ⟨⟨i, x, hx, rfl⟩, ?_⟩, id_marked _, ?_⟩
      · intro j z hz hid
        cases hdead : (L.turnOf (answers j) z).dead with
        | false => rfl
        | true =>
          have hz' := turn_dead (hroomy j z hz) hdead
          exact absurd (hunshared j i z x hz hx (hid.trans (id_marked _)) hz') hclosed
      · rw [marked, L.opened_mark]
        exact turn_opened

end Listeners

/-! ## Lanes that are queues -/

theorem Lanes.send_closed_iff {lanes : Lanes} {k : Nat} {frame : Frame} :
    (lanes.send k frame).1 = .error .closed ↔ (lanes k).isOpen = false := by
  refine ⟨Lanes.send_closed, fun hclosed => ?_⟩
  unfold Lanes.send Lane.sendPriority
  rw [hclosed]
  rfl

namespace Listeners

variable {α : Type} (L : Listeners α) (lane : α → Nat) (opening data : α → Frame)

/-- The packet for an opened listener, with the lanes of the hubs. -/
def shipData (lanes : Lanes) (x : α) : Lanes × α × Bool :=
  match lanes.send (lane x) (data x) with
  | (.ok (), lanes) => (lanes, x, false)
  | (.error .full, lanes) => (lanes, L.mark x (L.opened x) (L.shed x + 1), false)
  | (.error .closed, lanes) => (lanes, x, true)

def ship (lanes : Lanes) (x : α) : Lanes × α × Bool :=
  if L.opened x then L.shipData lane data lanes x
  else
    match lanes.send (lane x) (opening x) with
    | (.error _, lanes) => (lanes, x, true)
    | (.ok (), lanes) => L.shipData lane data lanes (L.mark x true (L.shed x))

def shipAll : List α → Lanes → Lanes × List (α × Bool)
  | [], lanes => (lanes, [])
  | x :: rest, lanes =>
    let (lanes, shipped) := L.ship lane opening data lanes x
    let (lanes, others) := shipAll rest lanes
    (lanes, shipped :: others)

/-- The answers are those of a lane in this state. -/
def AnsweredBy (isOpen : Bool) (answers : List Answer) : Prop :=
  ∀ a ∈ answers, a = .error .closed ↔ isOpen = false

variable {L}

theorem shipData_acts (lanes : Lanes) {x : α} (hopened : L.opened x = true) :
    (L.shipData lane data lanes x).2 =
        (L.mark x true (packetTurn (lanes.send (lane x) (data x)).1 (L.shed x) []).shed,
          (packetTurn (lanes.send (lane x) (data x)).1 (L.shed x) []).dead) ∧
      ∀ k, ((L.shipData lane data lanes x).1 k).isOpen = (lanes k).isOpen := by
  have hself : L.mark x true (L.shed x) = x := by
    rw [← hopened]
    exact L.mark_self x
  have hopen : ∀ k, ((lanes.send (lane x) (data x)).2 k).isOpen = (lanes k).isOpen :=
    fun k => Lanes.send_grows.isOpen
  unfold shipData
  rcases hsent : lanes.send (lane x) (data x) with ⟨(_ | _) | _, lanes'⟩
  all_goals
    rw [hsent] at hopen
    refine ⟨?_, hopen⟩
    simp [packetTurn, hself, hopened]

/-- **One turn** with real lanes is a turn with the answers of the listener's lane. -/
theorem ship_acts (hlane : ∀ x o n, lane (L.mark x o n) = lane x) (lanes : Lanes) (x : α) :
    ∃ a : Answer × Answer,
      (L.ship lane opening data lanes x).2 = (L.marked a x, (L.turnOf a x).dead) ∧
      AnsweredBy (lanes (lane x)).isOpen (L.turnOf a x).answers ∧
      ∀ k, ((L.ship lane opening data lanes x).1 k).isOpen = (lanes k).isOpen := by
  have hturn : ∀ (d : Answer) (n : Nat) (before : List Answer),
      (packetTurn d n before).opened = true ∧ (packetTurn d n before).shed = (packetTurn d n []).shed ∧
      (packetTurn d n before).dead = (packetTurn d n []).dead ∧
      (packetTurn d n before).answers = before ++ [d] := by
    rintro ((_ | _) | _) n before <;> exact ⟨rfl, rfl, rfl, rfl⟩
  unfold ship marked turnOf turn
  cases hopened : L.opened x with
  | true =>
    obtain ⟨heq, hopen⟩ := shipData_acts lane data lanes hopened
    refine ⟨(.ok (), (lanes.send (lane x) (data x)).1), ?_, ?_, hopen⟩
    · exact heq.trans (by simp [(hturn _ _ _).1])
    · simp only [if_true, (hturn _ _ _).2.2.2]
      rintro a (_ | ⟨_, ⟨⟩⟩)
      exact Lanes.send_closed_iff
  | false =>
    have hopen : ∀ k, ((lanes.send (lane x) (opening x)).2 k).isOpen = (lanes k).isOpen :=
      fun k => Lanes.send_grows.isOpen
    have hclosed : (lanes.send (lane x) (opening x)).1 = .error .closed ↔ (lanes (lane x)).isOpen = false :=
      Lanes.send_closed_iff
    rcases hsent : lanes.send (lane x) (opening x) with ⟨e | _, lanes'⟩
    · rw [hsent] at hopen hclosed
      have hself : L.mark x false (L.shed x) = x := by
        rw [← hopened]
        exact L.mark_self x
      refine ⟨(.error e, .ok ()), by simp [hself], ?_, by simpa using hopen⟩
      rintro a (_ | ⟨_, ⟨⟩⟩)
      exact hclosed
    · rw [hsent] at hopen hclosed
      have hmark : L.opened (L.mark x true (L.shed x)) = true := L.opened_mark _ _ _
      obtain ⟨heq, hopen'⟩ := shipData_acts lane data lanes' hmark
      rw [hlane] at heq
      refine ⟨(.ok (), (lanes'.send (lane x) (data (L.mark x true (L.shed x)))).1), ?_, ?_, ?_⟩
      · refine heq.trans ?_
        simp [(hturn _ _ [_]), L.mark_mark, L.shed_mark]
      · simp only [Bool.false_eq_true, if_false, (hturn _ _ _).2.2.2]
        rintro a (_ | ⟨_, _ | ⟨_, ⟨⟩⟩⟩)
        · exact hclosed
        · rw [Lanes.send_closed_iff, hopen]
      · exact fun k => (hopen' k).trans (hopen k)

/-- **The loop.** -/
theorem shipAll_acts (hlane : ∀ x o n, lane (L.mark x o n) = lane x) (l : List α) (lanes : Lanes) :
    ∃ answers, (L.shipAll lane opening data l lanes).2 = L.turns answers l ∧
      ∀ i x, l[i]? = some x → AnsweredBy (lanes (lane x)).isOpen (L.turnOf (answers i) x).answers := by
  induction l generalizing lanes with
  | nil => exact ⟨fun _ => (.ok (), .ok ()), rfl, by simp⟩
  | cons x rest ih =>
    obtain ⟨a, hship, hanswered, hopen⟩ := ship_acts lane opening data hlane lanes x
    obtain ⟨answers, hrest, hothers⟩ := ih (L.ship lane opening data lanes x).1
    refine ⟨fun i => Nat.casesOn i a answers, ?_, ?_⟩
    · rw [turns, List.mapIdx_cons]
      exact congrArg₂ List.cons hship hrest
    · rintro (_ | i) y hy
      · obtain rfl := Option.some.inj hy
        exact hanswered
      · rw [← hopen]
        exact hothers i y hy

end Listeners

/-! ## The subscribers of the mix -/

inductive MixAct where
  | attach (lane : Nat) (conn : ConnectionId) (serial : Nat)
  /-- a packet, and the answers of the lanes to what is sent with it -/
  | packet (answers : Nat → Answer × Answer)
  /-- `finish(close)`, and the answers to its `ChannelClose` -/
  | finish (close : Bool) (answers : Nat → Answer)

namespace MixAct

def apply (subs : List MixSubscriber) : MixAct → List MixSubscriber
  | .attach lane conn serial =>
    if subs.any fun sub => sub.conn == conn then subs else subs ++ [⟨conn, lane, false, 0, serial⟩]
  | .packet answers => mixListeners.fanOut answers subs
  | .finish close _ => if close then [] else subs.filter fun sub => sub.opened

/-- Who is removed by a packet has a closed lane; who is opened and removed by a finish is told, unless
    the lane is closed. -/
def Fair (subs : List MixSubscriber) : MixAct → Prop
  | .attach .. => True
  | .packet answers => mixListeners.SweepFair answers subs
  | .finish close answers =>
    ∀ i sub, subs[i]? = some sub → sub.opened = true →
      sub ∈ apply subs (.finish close answers) ∨ answers i = .ok () ∨ answers i = .error .closed

/-- No `ChannelOpen` and no `ChannelClose` finds its lane full. -/
def NeverFull (subs : List MixSubscriber) : MixAct → Prop
  | .attach .. => True
  | .packet answers => mixListeners.Roomy answers subs
  | .finish close answers =>
    close = true → ∀ i sub, subs[i]? = some sub → sub.opened = true → answers i ≠ .error .full

def step (subs : List MixSubscriber) (a : MixAct) : Option (List MixSubscriber) := some (apply subs a)

end MixAct

/-- An answer that is not the full lane's is one of the other two. -/
theorem answer_cases {a : Answer} : a ≠ .error .full ↔ a = .ok () ∨ a = .error .closed := by
  rcases a with (_ | _) | _ <;> simp

/-- Subscribers with a connection each share no id. -/
theorem Listeners.unshared_of_nodup {α : Type} {L : Listeners α} {l : List α} (h : (l.map L.id).Nodup)
    (answers : Nat → Answer × Answer) : L.Unshared answers l := by
  intro i j x y hx hy hid hclosed
  have hi := (List.getElem?_eq_some_iff.mp hx).1
  have hplaces : (l.map L.id)[i]? = (l.map L.id)[j]? := by
    rw [List.getElem?_map, List.getElem?_map, hx, hy, Option.map_some, Option.map_some, hid]
  obtain rfl := (List.getElem?_inj (by simpa using hi) h).mp hplaces
  obtain rfl := Option.some.inj (hx.symm.trans hy)
  exact hclosed

theorem Listeners.fanOut_ids {α : Type} (L : Listeners α) (answers : Nat → Answer × Answer) (l : List α) :
    ((L.fanOut answers l).map L.id).Sublist (l.map L.id) := by
  have hall : ((L.turns answers l).map Prod.fst).map L.id = l.map L.id := by
    apply List.ext_getElem
    · simp [turns]
    · intro i hi _
      simp [turns, id_marked]
  rw [← hall]
  exact List.filter_sublist.map _

namespace MixAct

theorem apply_conns {subs : List MixSubscriber} (h : (subs.map MixSubscriber.conn).Nodup) (a : MixAct) :
    ((apply subs a).map MixSubscriber.conn).Nodup := by
  cases a with
  | attach lane conn serial =>
    simp only [apply]
    split
    · exact h
    · rename_i hnew
      rw [List.map_append]
      refine h.append (List.nodup_singleton _) ?_
      simpa using hnew
  | packet answers => exact h.sublist (mixListeners.fanOut_ids answers subs)
  | finish close answers =>
    cases close with
    | true => exact List.nodup_nil
    | false => exact h.sublist (List.filter_sublist.map _)

/-- **One act** on the subscribers. -/
theorem fair_iff {subs : List MixSubscriber} (h : (subs.map MixSubscriber.conn).Nodup) (a : MixAct) :
    Fair subs a ↔ NeverFull subs a := by
  cases a with
  | attach lane conn serial => exact Iff.rfl
  | packet answers =>
    have hunshared := Listeners.unshared_of_nodup (L := mixListeners) h answers
    exact Listeners.sweepFair_iff.trans (and_iff_left hunshared)
  | finish close answers =>
    cases close with
    | true => simp [Fair, NeverFull, apply, answer_cases]
    | false =>
      refine iff_of_true ?_ nofun
      intro i sub hsub hopened
      exact .inl (List.mem_filter.mpr ⟨List.mem_of_getElem? hsub, hopened⟩)

end MixAct

/-! ## The channels of an application -/

inductive ChannelAct where
  /-- `add_channel` -/
  | add (id conn : ConnectionId) (lane : Nat)
  | packet (answers : Nat → Answer × Answer)
  /-- `remove_channel`, and the answer to its `ChannelClose` -/
  | remove (conn : ConnectionId) (answer : Answer)

namespace ChannelAct

def apply (channels : List Channel) : ChannelAct → List Channel
  | .add id conn lane => channels ++ [⟨id, conn, lane, false, 0⟩]
  | .packet answers => appListeners.fanOut answers channels
  | .remove conn _ => channels.eraseP fun ch => ch.appConnectionId == conn

/-- As for the mix; a channel is known by its id. -/
def Fair (channels : List Channel) : ChannelAct → Prop
  | .add .. => True
  | .packet answers => appListeners.SweepFair answers channels
  | .remove conn answer =>
    ∀ ch ∈ channels, ch.opened = true →
      (∃ left ∈ apply channels (.remove conn answer), left.audioChannelId = ch.audioChannelId) ∨
        answer = .ok () ∨ answer = .error .closed

/-- No `ChannelOpen` and no `ChannelClose` finds its lane full. Two channels of one id, which the id
    counter gives out after a whole turn only, are not told apart. -/
def NeverFull (channels : List Channel) : ChannelAct → Prop
  | .add .. => True
  | .packet answers => appListeners.Roomy answers channels ∧ appListeners.Unshared answers channels
  | .remove conn answer =>
    ∀ ch, channels.find? (fun ch => ch.appConnectionId == conn) = some ch → ch.opened = true →
      (∃ left ∈ channels.eraseP fun ch => ch.appConnectionId == conn,
        left.audioChannelId = ch.audioChannelId) ∨ answer ≠ .error .full

def step (channels : List Channel) (a : ChannelAct) : Option (List Channel) := some (apply channels a)

/-- **One act** on the channels. -/
theorem fair_iff (channels : List Channel) (a : ChannelAct) : Fair channels a ↔ NeverFull channels a := by
  cases a with
  | add id conn lane => exact Iff.rfl
  | packet answers => exact Listeners.sweepFair_iff
  | remove conn answer =>
    simp only [Fair, NeverFull, apply, answer_cases]
    constructor
    · intro h ch hfind
      exact h ch (List.mem_of_find?_eq_some hfind)
    · intro h ch hch hopened
      cases hfind : channels.find? fun ch => ch.appConnectionId == conn with
      | none =>
        refine .inl ⟨ch, ?_, rfl⟩
        rwa [List.eraseP_of_forall_not fun c hc => by simpa using List.find?_eq_none.mp hfind c hc]
      | some found =>
        rcases mem_eraseP_or_eq hfind hch with hleft | rfl
        · exact .inl ⟨ch, hleft, rfl⟩
        · exact h ch hfind hopened

end ChannelAct

/-! ## The two hubs -/

theorem mix_shipAll (seq : UInt32) (packet : Bytes) (subs : List MixSubscriber) (lanes : Lanes) :
    MixSubscriber.shipAll seq packet subs lanes =
      mixListeners.shipAll MixSubscriber.outbound MixSubscriber.openFrame
        (fun sub => .binary (.streamData ⟨sub.conn, seq, packet⟩)) subs lanes := by
  induction subs generalizing lanes with
  | nil => rfl
  | cons sub rest ih =>
    rw [MixSubscriber.shipAll, Listeners.shipAll]
    simp only [ih]
    rfl

theorem app_shipAll (seq : UInt32) (packet : Bytes) (channels : List Channel) (lanes : Lanes) :
    Audio.shipAll seq packet channels lanes =
      appListeners.shipAll Channel.outbound Channel.openFrame
        (fun ch => .binary (.streamData ⟨ch.audioChannelId, seq, packet⟩)) channels lanes := by
  induction channels generalizing lanes with
  | nil => rfl
  | cons ch rest ih =>
    rw [Audio.shipAll, Listeners.shipAll]
    simp only [ih]
    rfl

/-- A frame that the lane takes is offered to it and taken. -/
theorem Lanes.send_offered {lanes : Lanes} {k : Nat} {frame : Frame} (hok : (lanes.send k frame).1 = .ok ()) :
    (frame, true) ∈ ((lanes.send k frame).2 k).offered := by
  have htakes := Lanes.send_ok hok
  unfold Lanes.send
  simp only [if_true]
  rw [(sendPriority_offered _ _).1, htakes]
  exact List.mem_append_right _ List.mem_cons_self

/-- The closes of a finish, and what the lanes answer to them. -/
theorem closeAll_answers (subs : List MixSubscriber) (lanes : Lanes) :
    ∃ answers : Nat → Answer, ∀ i sub, subs[i]? = some sub → sub.opened = true →
      (answers i = .error .closed ↔ (lanes sub.outbound).isOpen = false) ∧
      (answers i = .ok () →
        (closeFrame sub.conn, true) ∈ (MixSubscriber.closeAll subs lanes sub.outbound).offered) := by
  have hgrows : ∀ (subs : List MixSubscriber) (lanes : Lanes) (k : Nat),
      (lanes k).Grows (MixSubscriber.closeAll subs lanes k) := by
    intro subs
    induction subs with
    | nil => exact fun lanes k => Lane.Grows.refl _
    | cons sub rest ih =>
      intro lanes k
      rw [MixSubscriber.closeAll]
      split
      · exact Lanes.send_grows.trans (ih _ k)
      · exact ih _ k
  induction subs generalizing lanes with
  | nil => exact ⟨fun _ => .ok (), by simp⟩
  | cons sub rest ih =>
    obtain ⟨answers, hrest⟩ := ih
      (if sub.opened then (lanes.send sub.outbound (closeFrame sub.conn)).2 else lanes)
    refine ⟨fun i => Nat.casesOn i (lanes.send sub.outbound (closeFrame sub.conn)).1 answers, ?_⟩
    rintro (_ | i) other hother hopened
    · obtain rfl := Option.some.inj hother
      refine ⟨Lanes.send_closed_iff, fun hok => ?_⟩
      rw [MixSubscriber.closeAll, if_pos hopened]
      apply (hgrows _ _ _).offered
      exact Lanes.send_offered hok
    · obtain ⟨hclosed, htold⟩ := hrest i other hother hopened
      refine ⟨hclosed.trans ?_, htold⟩
      split
      · rw [Lanes.send_grows.isOpen]
      · exact Iff.rfl

/-- A step of the mix leaves the subscribers alone or acts on them, with the answers of its lanes. -/
theorem Mix.step_acts {s t : Mix} {a : Mix.Action} (h : s.step a = some t) :
    t.subscribers = s.subscribers ∨ ∃ act : MixAct, t.subscribers = act.apply s.subscribers ∧
      match act with
      | .attach .. => True
      | .packet answers => ∀ i sub, s.subscribers[i]? = some sub →
          Listeners.AnsweredBy (s.lanes sub.outbound).isOpen (mixListeners.turnOf (answers i) sub).answers
      | .finish close answers => close = true → ∀ i sub, s.subscribers[i]? = some sub →
          sub.opened = true → (answers i = .error .closed ↔ (s.lanes sub.outbound).isOpen = false) ∧
            (answers i = .ok () → (closeFrame sub.conn, true) ∈ (t.lanes sub.outbound).offered) := by
  cases a with
  | attach lane conn =>
    obtain rfl := Option.some.inj h
    refine .inr ⟨.attach lane conn s.added.length, ?_, trivial⟩
    simp only [Mix.attach, MixAct.apply]
    split <;> rfl
  | packet seq data =>
    simp only [Mix.step] at h
    split at h
    · obtain rfl := Option.some.inj h
      obtain ⟨answers, hturns, hanswered⟩ := Listeners.shipAll_acts (L := mixListeners)
        MixSubscriber.outbound MixSubscriber.openFrame
        (fun sub => .binary (.streamData ⟨sub.conn, seq, data⟩)) (fun _ _ _ => rfl)
        s.subscribers s.lanes
      refine .inr ⟨.packet answers, ?_, hanswered⟩
      simp only [Mix.packet, mix_shipAll, hturns]
      rfl
    · contradiction
  | finish =>
    simp only [Mix.step] at h
    split at h
    · rename_i close ending _
      obtain rfl := Option.some.inj h
      obtain ⟨answers, hanswers⟩ := closeAll_answers s.subscribers s.lanes
      refine .inr ⟨.finish close answers, rfl, ?_⟩
      rintro rfl
      exact hanswers
    · contradiction
  | startFails | read packets | endOfStream =>
    simp only [Mix.step] at h
    split at h
    · obtain rfl := Option.some.inj h
      exact .inl rfl
    · contradiction
  | count =>
    simp only [Mix.step] at h
    split at h
    · split at h
      all_goals
        obtain rfl := Option.some.inj h
        exact .inl rfl
    · contradiction
  | endPush =>
    simp only [Mix.step] at h
    split at h
    · obtain rfl := Option.some.inj h
      exact .inl rfl
    · obtain rfl := Option.some.inj h
      exact .inl rfl
    · contradiction
  | offer lane frame | take lane | close lane =>
    obtain rfl := Option.some.inj h
    exact .inl rfl

/-- `fan_out` acts on the channels of an application, with the answers of its lanes. -/
theorem fanOut_acts (seq : UInt32) (packet : Bytes) (channels : List Channel) (lanes : Lanes) :
    ∃ answers, (fanOut seq packet channels lanes).2 = ChannelAct.apply channels (.packet answers) ∧
      ∀ i ch, channels[i]? = some ch →
        Listeners.AnsweredBy (lanes ch.outbound).isOpen (appListeners.turnOf (answers i) ch).answers := by
  obtain ⟨answers, hturns, hanswered⟩ := Listeners.shipAll_acts (L := appListeners)
    Channel.outbound Channel.openFrame
    (fun ch => .binary (.streamData ⟨ch.audioChannelId, seq, packet⟩)) (fun _ _ _ => rfl)
    channels lanes
  refine ⟨answers, ?_, hanswered⟩
  simp only [fanOut, app_shipAll, hturns]
  rfl

/-- So does `remove_channel`, with the answer of the lane to its `ChannelClose`. -/
theorem removeChannel_acts (conn : ConnectionId) (channels : List Channel) (lanes : Lanes) :
    ∃ answer, (removeChannel conn channels lanes).2 = ChannelAct.apply channels (.remove conn answer) ∧
      ∀ ch, channels.find? (fun ch => ch.appConnectionId == conn) = some ch → ch.opened = true →
        (answer = .error .closed ↔ (lanes ch.outbound).isOpen = false) ∧
        (answer = .ok () → (closeFrame ch.audioChannelId, true) ∈
          ((removeChannel conn channels lanes).1 ch.outbound).offered) := by
  unfold removeChannel
  cases hfind : channels.find? fun ch => ch.appConnectionId == conn with
  | none =>
    refine ⟨.ok (), (List.eraseP_of_forall_not fun ch hch => ?_).symm, nofun⟩
    simpa using List.find?_eq_none.mp hfind ch hch
  | some ch =>
    refine ⟨(lanes.send ch.outbound (closeFrame ch.audioChannelId)).1, rfl, ?_⟩
    rintro other hother hopened
    obtain rfl := Option.some.inj hother
    simp only [hopened, if_true]
    exact ⟨Lanes.send_closed_iff, Lanes.send_offered⟩

/-- **Who is removed, and who is told.** Of every run of the mix and of every run of an application, with
    any answers of the lanes: a packet removes only listeners whose lane said that it is closed, and who is
    opened and removed on an open lane has its `ChannelClose` taken, if and only if no `ChannelOpen` and no
    `ChannelClose` is refused by a full lane. -/
theorem listeners_kept_iff (mixActs : List MixAct) (channelActs : List ChannelAct) :
    (Meets MixAct.step MixAct.Fair [] mixActs ↔ Meets MixAct.step MixAct.NeverFull [] mixActs) ∧
    (Meets ChannelAct.step ChannelAct.Fair [] channelActs ↔
      Meets ChannelAct.step ChannelAct.NeverFull [] channelActs) := by
  constructor
  · refine meets_iff_of_inv (J := fun subs => (subs.map MixSubscriber.conn).Nodup)
      (fun _ a h => MixAct.fair_iff h a) ?_ List.nodup_nil mixActs
    intro subs a subs' h _ hstep
    obtain rfl := Option.some.inj hstep
    exact MixAct.apply_conns h a
  · exact meets_iff_of_inv (J := fun _ => True) (fun channels a _ => ChannelAct.fair_iff channels a)
      (fun _ _ _ _ _ _ => trivial) trivial channelActs

/-- A client is listening, and its lane is full when its `ChannelOpen` is due. -/
def fullAtOpening : List MixAct := [.attach 0 ⟨7⟩ 0, .packet fun _ => (.error .full, .ok ())]

/-- A channel of an application is open, and its lane is full when the application closes it. -/
def fullAtClosing : List ChannelAct :=
  [.add ⟨5⟩ ⟨11⟩ 0, .packet fun _ => (.ok (), .ok ()), .remove ⟨11⟩ (.error .full)]

/-- Neither is fair: the client is in the list no more, and the client of the channel is not told. -/
theorem full_lane_loses :
    (¬ ∀ as, Meets MixAct.step MixAct.Fair [] as) ∧ ¬ ∀ as, Meets ChannelAct.step ChannelAct.Fair [] as := by
  constructor
  · intro h
    have hfair := ((h fullAtOpening).2 _ rfl).1
    rcases hfair 0 ⟨⟨7⟩, 0, false, 0, 0⟩ rfl with ⟨y, hy, -⟩ | hclosed
    · cases (show y ∈ ([] : List MixSubscriber) from hy)
    · exact absurd hclosed (by decide)
  · intro h
    have hfair := (((h fullAtClosing).2 _ rfl).2 _ rfl).1
    rcases hfair ⟨⟨5⟩, ⟨11⟩, 0, true, 0⟩ (by decide) rfl with ⟨y, hy, -⟩ | hok | hclosed
    · cases (show y ∈ ([] : List Channel) from hy)
    · cases hok
    · cases hclosed

end RemoteX11.Audio
