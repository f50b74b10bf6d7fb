/-
  What a session holds outside the manager: the port of its display, with the accept loop on it, and the
  cookie in the xauth file.

  `create_session` acquires the port first and releases it only when it fails, so two calls of it never
  act on one display at a time: the port itself excludes them. Nothing excludes a `destroy_session` of
  the same display, which takes the listener, the cookie and the session away in three sections of its
  own (`destroy_takes_new_cookie`). In runs where the two do not overlap on a display (`Exclusive`) a
  display is held by one create call, or is being dismantled, or is settled (`ResourceInv`).

  A call that fails leaves no trace: the run without its steps is a run, and it ends with the same
  sessions, listeners and cookies.
-/
import RemoteX11.Sessions.Manager
import RemoteX11.Lib.Calls

namespace RemoteX11.Sessions

open RemoteX11.Lib RemoteX11.Protocol

/-- The call has bound the port of its display and has neither returned nor failed. -/
def CreatePhase.holds : CreatePhase → Bool
  | .listing | .installing | .unwinding _ | .inserting | .inUseUnbinding | .inUseRemoving => true
  | _ => false

def CreatePhase.returned : CreatePhase → Bool
  | .returnedOk _ | .acked _ | .returnedErr _ => true
  | _ => false

/-- The listener of the display is gone. -/
def DestroyPhase.unbound : DestroyPhase → Bool
  | .takeConns | .closing _ | .xauthRemove | .removeRelay | .removeSession => true
  | _ => false

/-- The cookie of the display is gone. -/
def DestroyPhase.revoked : DestroyPhase → Bool
  | .removeRelay | .removeSession => true
  | _ => false

namespace Manager

def CallsReturned (m : Manager) : Prop :=
  (∀ call ∈ m.creates, call.phase.returned = true) ∧ ∀ call ∈ m.destroys, call.phase = .done

/-- The name and cookie that the session of a display was created with. -/
def credentials (m : Manager) (disp : DisplayNumber) : Option (String × Bytes) :=
  (m.sessions.get disp).map fun session => (session.authName, session.authData)

/-- The listener of a display is bound exactly when it has a session, and its cookie is the session's. -/
structure Settled (m : Manager) (disp : DisplayNumber) : Prop where
  port : m.ports.get disp = m.listeners.get disp
  bound : (m.listeners.get disp).isSome = (m.sessions.get disp).isSome
  cookie : m.xauth.get disp = m.credentials disp

/-- No create call is between its bind and its return on the display. -/
def Unheld (m : Manager) (disp : DisplayNumber) : Prop :=
  ∀ call ∈ m.creates, call.display = disp → call.phase.holds = false

/-- No `destroy_session` of the display is in progress. -/
def Undisturbed (m : Manager) (disp : DisplayNumber) : Prop :=
  ∀ call ∈ m.destroys, call.display = disp → call.phase = .done

instance (m : Manager) (disp : DisplayNumber) : Decidable (m.Unheld disp) :=
  inferInstanceAs (Decidable (∀ call ∈ m.creates, call.display = disp → call.phase.holds = false))

instance (m : Manager) (disp : DisplayNumber) : Decidable (m.Undisturbed disp) :=
  inferInstanceAs (Decidable (∀ call ∈ m.destroys, call.display = disp → call.phase = .done))

/-- The display that the next step of a grace task starts to destroy. -/
def GracePhase.next : GracePhase → Option DisplayNumber
  | .destroying _ (disp :: _) => some disp
  | _ => none

/-- Creating and destroying a session do not overlap on a display: a port is bound only while no
    `destroy_session` of its display is in progress, and `destroy_session` is called only while no create
    call holds the display. -/
def Exclusive (m : Manager) : Action → Prop
  | .createStep i failure _ => ∀ call ∈ m.creates[i]?, call.phase = .binding → failure = none →
      m.Undisturbed call.display
  | .destroy disp => m.Unheld disp
  | .graceStep i => ∀ task ∈ m.graces[i]?, ∀ disp ∈ GracePhase.next task.phase, m.Unheld disp
  | _ => True

instance (m : Manager) : (a : Action) → Decidable (Exclusive m a)
  | .createStep i failure _ => inferInstanceAs (Decidable (∀ call ∈ m.creates[i]?,
      call.phase = .binding → failure = none → m.Undisturbed call.display))
  | .destroy disp => inferInstanceAs (Decidable (m.Unheld disp))
  | .graceStep i => inferInstanceAs (Decidable (∀ task ∈ m.graces[i]?,
      ∀ disp ∈ GracePhase.next task.phase, m.Unheld disp))
  | .create .. | .createAuto .. | .resume .. | .resumeStep _ | .destroyStep _ | .release _
  | .accept .. | .appStep _ | .appEnd _ | .unregister _ | .unregisterStep _
  | .unregisterRelay _ => .isTrue trivial

instance (m : Manager) : Decidable m.CallsReturned := inferInstanceAs (Decidable (_ ∧ _))

/-! ## The invariant -/

/-- A create call between its bind and its return. -/
structure Held (m : Manager) (i : Nat) (call : CreateCall) : Prop where
  session : m.sessions.get call.display = none
  port : m.ports.get call.display = some i
  listener : m.listeners.get call.display = if call.phase = .listing then none else some i
  cookie : m.xauth.get call.display =
    if call.phase = .inserting then some (call.authName, call.authData) else none
  undisturbed : m.Undisturbed call.display
  free : call.phase ≠ .inUseUnbinding ∧ call.phase ≠ .inUseRemoving

/-- A `destroy_session` in progress. -/
structure Dismantled (m : Manager) (call : DestroyCall) : Prop where
  port : m.ports.get call.display = m.listeners.get call.display
  unbound : call.phase.unbound = true → m.listeners.get call.display = none
  revoked : call.phase.revoked = true → m.xauth.get call.display = none

structure ResourceInv (m : Manager) : Prop where
  keys : ∀ disp session, m.sessions.get disp = some session → session.display = disp
  held : ∀ i call, m.creates[i]? = some call → call.phase.holds = true → Held m i call
  dismantled : ∀ call ∈ m.destroys, call.phase ≠ .done → Dismantled m call
  settled : ∀ disp, m.Unheld disp → m.Undisturbed disp → Settled m disp

variable {m t : Manager} {i : Nat} {disp : DisplayNumber}

/-- The resources of a display are the same in both states. -/
structure SameAt (m t : Manager) (disp : DisplayNumber) : Prop where
  session : (t.sessions.get disp).isSome = (m.sessions.get disp).isSome
  credentials : t.credentials disp = m.credentials disp
  port : t.ports.get disp = m.ports.get disp
  listener : t.listeners.get disp = m.listeners.get disp
  cookie : t.xauth.get disp = m.xauth.get disp

theorem Settled.same (h : Settled m disp) (hs : SameAt m t disp) : Settled t disp where
  port := by rw [hs.port, hs.listener, h.port]
  bound := by rw [hs.listener, hs.session, h.bound]
  cookie := by rw [hs.cookie, hs.credentials, h.cookie]

theorem Held.same {call : CreateCall} (h : Held m i call) (hs : SameAt m t call.display)
    (hu : t.Undisturbed call.display) : Held t i call where
  session := by
    have hsome := hs.session
    rw [h.session] at hsome
    exact Option.isNone_iff_eq_none.mp (by simpa using hsome)
  port := by rw [hs.port, h.port]
  listener := by rw [hs.listener, h.listener]
  cookie := by rw [hs.cookie, h.cookie]
  undisturbed := hu
  free := h.free

theorem Dismantled.same {call : DestroyCall} (h : Dismantled m call)
    (hs : SameAt m t call.display) : Dismantled t call where
  port := by rw [hs.port, hs.listener, h.port]
  unbound hp := by rw [hs.listener, h.unbound hp]
  revoked hp := by rw [hs.cookie, h.revoked hp]

/-! ## One step -/

theorem ResourceInv.of_same (h : ResourceInv m)
    (hkeys : ∀ disp session, t.sessions.get disp = some session → session.display = disp)
    (hsame : ∀ disp, SameAt m t disp) (hcreates : t.creates = m.creates)
    (hdestroys : t.destroys = m.destroys) : ResourceInv t where
  keys := hkeys
  held i call hi hp := by
    rw [hcreates] at hi
    refine (h.held i call hi hp).same (hsame _) ?_
    unfold Undisturbed
    rw [hdestroys]
    exact (h.held i call hi hp).undisturbed
  dismantled call hcall hp := by
    rw [hdestroys] at hcall
    exact (h.dismantled call hcall hp).same (hsame _)
  settled disp hu hd := by
    unfold Unheld at hu
    unfold Undisturbed at hd
    rw [hcreates] at hu
    rw [hdestroys] at hd
    exact (h.settled disp hu hd).same (hsame disp)

/-- A create call that holds nothing moves on. -/
theorem ResourceInv.bystander {call call' : CreateCall} (h : ResourceInv m)
    (hi : m.creates[i]? = some call) (hold : call.phase.holds = false)
    (hnew : call'.phase.holds = false) (hsessions : t.sessions = m.sessions)
    (hsame : ∀ disp, SameAt m t disp) (hcreates : t.creates = m.creates.set i call')
    (hdestroys : t.destroys = m.destroys) : ResourceInv t where
  keys := by
    rw [hsessions]
    exact h.keys
  held j call hj hp := by
    rw [hcreates] at hj
    obtain ⟨-, rfl⟩ | ⟨-, hj⟩ := getElem?_of_set hj
    · rw [hnew] at hp
      contradiction
    · refine (h.held j call hj hp).same (hsame _) ?_
      unfold Undisturbed
      rw [hdestroys]
      exact (h.held j call hj hp).undisturbed
  dismantled call hcall hp := by
    rw [hdestroys] at hcall
    exact (h.dismantled call hcall hp).same (hsame _)
  settled disp hu hd := by
    have hunheld : m.Unheld disp := by
      intro c hc hcd
      obtain ⟨j, hj⟩ := List.mem_iff_getElem?.mp hc
      obtain ⟨-, rfl, -⟩ | ⟨-, hother⟩ := getElem?_set_of call' hi hj
      · exact hold
      · exact hu c (List.mem_iff_getElem?.mpr ⟨j, hcreates ▸ hother⟩) hcd
    unfold Undisturbed at hd
    rw [hdestroys] at hd
    exact (h.settled disp hunheld hd).same (hsame disp)

/-- A create call moves on that no other call is in the way of. -/
theorem ResourceInv.own {call : CreateCall} (h : ResourceInv m)
    (hi : m.creates[i]? = some call) (phase : CreatePhase)
    (hothers : ∀ j c, m.creates[j]? = some c → j ≠ i → c.display = call.display →
      c.phase.holds = false)
    (hundisturbed : m.Undisturbed call.display)
    (hkeys : ∀ disp session, t.sessions.get disp = some session → session.display = disp)
    (hsame : ∀ disp, disp ≠ call.display → SameAt m t disp)
    (hcreates : t.creates = m.creates.set i { call with phase := phase })
    (hdestroys : t.destroys = m.destroys)
    (hheld : phase.holds = true → Held t i { call with phase := phase })
    (hsettled : phase.holds = false → Settled t call.display) : ResourceInv t where
  keys := hkeys
  held j c hj hp := by
    rw [hcreates] at hj
    obtain ⟨rfl, rfl⟩ | ⟨hij, hj⟩ := getElem?_of_set hj
    · exact hheld hp
    · have hne : c.display ≠ call.display := by
        intro hcd
        rw [hothers j c hj (Ne.symm hij) hcd] at hp
        contradiction
      refine (h.held j c hj hp).same (hsame _ hne) ?_
      unfold Undisturbed
      rw [hdestroys]
      exact (h.held j c hj hp).undisturbed
  dismantled c hc hp := by
    rw [hdestroys] at hc
    exact (h.dismantled c hc hp).same (hsame _ fun hcd => hp (hundisturbed c hc hcd))
  settled disp hu hd := by
    unfold Undisturbed at hd
    rw [hdestroys] at hd
    obtain ⟨hlt, -⟩ := List.getElem?_eq_some_iff.mp hi
    by_cases hne : disp = call.display
    · subst hne
      refine hsettled (hu { call with phase := phase } ?_ rfl)
      rw [hcreates]
      exact List.mem_set hlt _
    · refine (h.settled disp ?_ hd).same (hsame disp hne)
      intro c hc hcd
      obtain ⟨j, hj⟩ := List.mem_iff_getElem?.mp hc
      obtain ⟨-, rfl, -⟩ | ⟨-, hother⟩ := getElem?_set_of { call with phase := phase } hi hj
      · exact absurd hcd.symm hne
      · exact hu c (List.mem_iff_getElem?.mpr ⟨j, hcreates ▸ hother⟩) hcd

/-- A `destroy_session` moves on: no create call holds its display. -/
theorem ResourceInv.dismantle {call : DestroyCall} (h : ResourceInv m)
    (hi : m.destroys[i]? = some call) (phase : DestroyPhase) (hp : call.phase ≠ .done)
    (hkeys : ∀ disp session, t.sessions.get disp = some session → session.display = disp)
    (hsame : ∀ disp, disp ≠ call.display → SameAt m t disp) (hcreates : t.creates = m.creates)
    (hdestroys : t.destroys = m.destroys.set i { call with phase := phase })
    (hkeep : ∀ c : DestroyCall, c.display = call.display → Dismantled m c → Dismantled t c)
    (hmine : phase ≠ .done → Dismantled t { call with phase := phase })
    (hdone : phase = .done → Settled t call.display) : ResourceInv t where
  keys := hkeys
  held j c hj hcp := by
    rw [hcreates] at hj
    have hheld := h.held j c hj hcp
    have hne : c.display ≠ call.display := by
      intro hcd
      exact hp (hheld.undisturbed call (List.mem_of_getElem? hi) hcd.symm)
    refine hheld.same (hsame _ hne) ?_
    unfold Undisturbed
    rw [hdestroys]
    refine forall_mem_set hheld.undisturbed fun hcd => absurd hcd.symm hne
  dismantled c hc hcp := by
    rw [hdestroys] at hc
    rcases List.mem_or_eq_of_mem_set hc with hc | rfl
    · by_cases hcd : c.display = call.display
      · exact hkeep c hcd (h.dismantled c hc hcp)
      · exact (h.dismantled c hc hcp).same (hsame _ hcd)
    · exact hmine hcp
  settled disp hu hd := by
    unfold Unheld at hu
    rw [hcreates] at hu
    obtain ⟨hlt, -⟩ := List.getElem?_eq_some_iff.mp hi
    by_cases hne : disp = call.display
    · subst hne
      refine hdone (hd { call with phase := phase } ?_ rfl)
      rw [hdestroys]
      exact List.mem_set hlt _
    · refine (h.settled disp hu ?_).same (hsame disp hne)
      intro c hc hcd
      obtain ⟨j, hj⟩ := List.mem_iff_getElem?.mp hc
      obtain ⟨-, rfl, -⟩ | ⟨-, hother⟩ := getElem?_set_of { call with phase := phase } hi hj
      · exact absurd hcd.symm hne
      · exact hd c (List.mem_iff_getElem?.mpr ⟨j, hdestroys ▸ hother⟩) hcd

theorem unbindDisplay_listeners (m : Manager) (disp disp' : DisplayNumber) :
    (m.unbindDisplay disp).listeners.get disp' = if disp' = disp then none else m.listeners.get disp' := by
  unfold unbindDisplay
  split
  · exact Table.get_remove _ _ _
  · split
    · rename_i hnone hd
      rw [hd, hnone]
    · rfl

/-- The port is freed with its listener. -/
theorem unbindDisplay_ports (hport : m.ports.get disp = m.listeners.get disp)
    (disp' : DisplayNumber) :
    (m.unbindDisplay disp).ports.get disp' = if disp' = disp then none else m.ports.get disp' := by
  unfold unbindDisplay
  split
  · rename_i handle hhandle
    rw [hhandle] at hport
    simp only [hport, if_true]
    exact Table.get_remove _ _ _
  · rename_i hnone
    rw [hnone] at hport
    split
    · rename_i hd
      rw [hd, hport]
    · rfl

/-- A display that no call is at keeps its resources when another one is unbound. -/
theorem sameAt_unbindDisplay {disp' : DisplayNumber}
    (hport : m.ports.get disp = m.listeners.get disp) (hne : disp' ≠ disp) :
    SameAt m (m.unbindDisplay disp) disp' where
  session := by rw [unbindDisplay_frame]
  credentials := by rw [unbindDisplay_frame]; rfl
  port := by rw [unbindDisplay_ports hport, if_neg hne]
  listener := by rw [unbindDisplay_listeners, if_neg hne]
  cookie := by rw [unbindDisplay_frame]

theorem ResourceInv.sole {call : CreateCall} (h : ResourceInv m) (hi : m.creates[i]? = some call)
    (hp : call.phase.holds = true) : ∀ j c, m.creates[j]? = some c → j ≠ i →
      c.display = call.display → c.phase.holds = false := by
  intro j c hj hne hcd
  by_contra hholds
  have hport := (h.held j c hj (by simpa using hholds)).port
  rw [hcd, (h.held i call hi hp).port, Option.some.injEq] at hport
  exact hne hport.symm

theorem createStep_resourceInv {call : CreateCall} {failure : Option String} {id : SessionId}
    (h : ResourceInv m) (hg : Exclusive m (.createStep i failure id))
    (hi : m.creates[i]? = some call) (ht : m.createStep i call failure id = some t) :
    ResourceInv t := by
  cases createStep_cases ht with
  | choose hp | taken hp | unbound hp | ack hp =>
    exact h.bystander hi (by simp [hp, CreatePhase.holds]) (by rfl) rfl
      (fun disp => ⟨rfl, rfl, rfl, rfl, rfl⟩) rfl rfl
  | bind hp hok hport =>
    -- the port is free, so the display is held by no call and settled without a session
    have hothers : ∀ (j : Nat) (c : CreateCall), m.creates[j]? = some c →
        c.display = call.display → c.phase.holds = false := by
      intro j c hj hcd
      by_contra hholds
      have hbound := (h.held j c hj (by simpa using hholds)).port
      rw [hcd, hport] at hbound
      contradiction
    have hundisturbed : m.Undisturbed call.display := hg call hi hp hok
    have hsettled : Settled m call.display := by
      refine h.settled _ (fun c hc hcd => ?_) hundisturbed
      obtain ⟨j, hj⟩ := List.mem_iff_getElem?.mp hc
      exact hothers j c hj hcd
    have hlistener : m.listeners.get call.display = none := by rw [← hsettled.port, hport]
    have hsession : m.sessions.get call.display = none := by
      have hbound := hsettled.bound
      rw [hlistener] at hbound
      exact Option.isNone_iff_eq_none.mp (by simpa using hbound)
    refine h.own hi _ (fun j c hj _ => hothers j c hj) hundisturbed h.keys ?_ rfl rfl ?_ ?_
    · intro disp hne
      exact ⟨rfl, rfl, Table.get_put_of_ne _ _ hne, rfl, rfl⟩
    · intro _
      refine ⟨hsession, Table.get_put_self _ _ _, hlistener, ?_, hundisturbed, by simp⟩
      exact hsettled.cookie.trans (by simp [credentials, hsession])
    · intro hholds
      contradiction
  | list hp =>
    have hholds : call.phase.holds = true := by rw [hp]; rfl
    have hheld := h.held i call hi hholds
    refine h.own hi _ (h.sole hi hholds) hheld.undisturbed h.keys ?_ rfl rfl ?_ ?_
    · intro disp hne
      exact ⟨rfl, rfl, rfl, Table.get_put_of_ne _ _ hne, rfl⟩
    · intro _
      refine ⟨hheld.session, hheld.port, Table.get_put_self _ _ _, ?_, hheld.undisturbed, by simp⟩
      exact hheld.cookie.trans (by simp [hp])
    · intro hholds
      contradiction
  | reject hp =>
    have hholds : call.phase.holds = true := by rw [hp]; rfl
    have hheld := h.held i call hi hholds
    refine h.own hi _ (h.sole hi hholds) hheld.undisturbed h.keys
      (fun disp _ => ⟨rfl, rfl, rfl, rfl, rfl⟩) rfl rfl ?_ ?_
    · intro _
      refine ⟨hheld.session, hheld.port, hheld.listener.trans (by simp [hp]),
        hheld.cookie.trans (by simp [hp]), hheld.undisturbed, by simp⟩
    · intro hholds
      contradiction
  | install hp =>
    have hholds : call.phase.holds = true := by rw [hp]; rfl
    have hheld := h.held i call hi hholds
    refine h.own hi _ (h.sole hi hholds) hheld.undisturbed h.keys ?_ rfl rfl ?_ ?_
    · intro disp hne
      exact ⟨rfl, rfl, rfl, rfl, Table.get_put_of_ne _ _ hne⟩
    · intro _
      exact ⟨hheld.session, hheld.port, hheld.listener.trans (by simp [hp]),
        Table.get_put_self _ _ _, hheld.undisturbed, by simp⟩
    · intro hholds
      contradiction
  | @unwind e error hp =>
    have hholds : call.phase.holds = true := by rw [hp]; rfl
    have hheld := h.held i call hi hholds
    have hport : m.ports.get call.display = m.listeners.get call.display := by
      rw [hheld.port, hheld.listener, if_neg (by simp [hp])]
    refine h.own hi (.returnedErr error) (h.sole hi hholds) hheld.undisturbed ?_ ?_ ?_ ?_ ?_ ?_
    · rw [unbindDisplay_frame]
      exact h.keys
    · intro disp hne
      have hsame := sameAt_unbindDisplay hport hne
      exact ⟨hsame.session, hsame.credentials, hsame.port, hsame.listener, hsame.cookie⟩
    · rw [unbindDisplay_frame]
      rfl
    · rw [unbindDisplay_frame]
      rfl
    · intro hholds
      contradiction
    · intro _
      have hlistener := unbindDisplay_listeners m call.display call.display
      have hfreed := unbindDisplay_ports hport call.display
      rw [if_pos rfl] at hlistener hfreed
      refine ⟨hfreed.trans hlistener.symm, ?_, ?_⟩
      · show ((m.unbindDisplay call.display).listeners.get call.display).isSome =
          ((m.unbindDisplay call.display).sessions.get call.display).isSome
        rw [hlistener, unbindDisplay_frame, hheld.session]
        rfl
      · show (m.unbindDisplay call.display).xauth.get call.display =
          (m.unbindDisplay call.display).credentials call.display
        unfold credentials
        rw [unbindDisplay_frame, hheld.session, hheld.cookie, if_neg (by simp [hp])]
        rfl
  | inUse hp hsession =>
    -- whoever holds the port inserts into a free display
    have hholds : call.phase.holds = true := by rw [hp]; rfl
    exact absurd (h.held i call hi hholds).session hsession
  | insert hp hsession hfresh =>
    have hholds : call.phase.holds = true := by rw [hp]; rfl
    have hheld := h.held i call hi hholds
    refine h.own hi _ (h.sole hi hholds) hheld.undisturbed ?_ ?_ rfl rfl ?_ ?_
    · intro disp session hget
      change (m.sessions.put _ _).get disp = some session at hget
      rw [Table.get_put] at hget
      split at hget
      · obtain rfl := Option.some.inj hget
        exact Eq.symm ‹_›
      · exact h.keys disp session hget
    · intro disp hne
      have hget := Table.get_put_of_ne m.sessions
        (⟨id, call.display, call.authName, call.authData, call.clientId⟩ : Session) hne
      exact ⟨congrArg Option.isSome hget, congrArg (Option.map _) hget, rfl, rfl, rfl⟩
    · intro hholds
      contradiction
    · intro _
      have hget := Table.get_put_self m.sessions call.display
        ⟨id, call.display, call.authName, call.authData, call.clientId⟩
      have hlistener : m.listeners.get call.display = some i := by
        rw [hheld.listener, if_neg (by simp [hp])]
      refine ⟨hheld.port.trans hlistener.symm, ?_, ?_⟩
      · refine Eq.trans ?_ (congrArg Option.isSome hget).symm
        exact congrArg Option.isSome hlistener
      · refine Eq.trans ?_ (congrArg (Option.map _) hget).symm
        exact hheld.cookie.trans (by simp [hp])
  | unbindInUse hp =>
    exact absurd hp (h.held i call hi (by rw [hp]; rfl)).free.1
  | removeInUse hp =>
    exact absurd hp (h.held i call hi (by rw [hp]; rfl)).free.2

theorem destroyStep_resourceInv {call : DestroyCall} (h : ResourceInv m)
    (hi : m.destroys[i]? = some call) (ht : m.destroyStep i call = some t) : ResourceInv t := by
  have hcall := List.mem_of_getElem? hi
  cases destroyStep_cases ht with
  | cancel hp | noGrace hp =>
    have hmine := h.dismantled call hcall (by simp [hp])
    exact h.dismantle hi _ (by simp [hp]) h.keys (fun disp _ => ⟨rfl, rfl, rfl, rfl, rfl⟩) rfl rfl
      (fun c _ hc => ⟨hc.port, hc.unbound, hc.revoked⟩)
      (fun _ => ⟨hmine.port, nofun, nofun⟩) nofun
  | unbind hp =>
    have hmine := h.dismantled call hcall (by simp [hp])
    have hlistener := unbindDisplay_listeners m call.display call.display
    have hfreed := unbindDisplay_ports hmine.port call.display
    rw [if_pos rfl] at hlistener hfreed
    refine h.dismantle hi .takeConns (by simp [hp]) ?_ ?_ ?_ ?_ ?_ ?_ nofun
    · rw [unbindDisplay_frame]
      exact h.keys
    · intro disp hne
      have hsame := sameAt_unbindDisplay hmine.port hne
      exact ⟨hsame.session, hsame.credentials, hsame.port, hsame.listener, hsame.cookie⟩
    · rw [unbindDisplay_frame]
      rfl
    · rw [unbindDisplay_frame]
      rfl
    · intro c hcd hc
      have hcookie : c.phase.revoked = true → m.xauth.get call.display = none := hcd ▸ hc.revoked
      refine ⟨?_, fun _ => ?_, fun hr => ?_⟩ <;> rw [hcd]
      · exact hfreed.trans hlistener.symm
      · exact hlistener
      · rw [unbindDisplay_frame]
        exact hcookie hr
    · intro _
      exact ⟨hfreed.trans hlistener.symm, fun _ => hlistener, nofun⟩
  | take hp | noConns hp | close hp =>
    have hmine := h.dismantled call hcall (by simp [hp])
    have hlistener := hmine.unbound (by rw [hp]; rfl)
    exact h.dismantle hi _ (by simp [hp]) h.keys (fun disp _ => ⟨rfl, rfl, rfl, rfl, rfl⟩) rfl rfl
      (fun c _ hc => ⟨hc.port, hc.unbound, hc.revoked⟩)
      (fun _ => ⟨hmine.port, fun _ => hlistener, nofun⟩) nofun
  | removeCookie hp =>
    have hmine := h.dismantled call hcall (by simp [hp])
    have hlistener := hmine.unbound (by rw [hp]; rfl)
    refine h.dismantle hi .removeRelay (by simp [hp]) h.keys ?_ rfl rfl ?_ ?_ nofun
    · intro disp hne
      exact ⟨rfl, rfl, rfl, rfl, Table.get_remove_of_ne _ hne⟩
    · intro c hcd hc
      refine ⟨hc.port, hc.unbound, fun _ => ?_⟩
      rw [hcd]
      exact Table.get_remove_self _ _
    · intro _
      exact ⟨hmine.port, fun _ => hlistener, fun _ => Table.get_remove_self _ _⟩
  | removeRelay hp =>
    have hmine := h.dismantled call hcall (by simp [hp])
    have hlistener := hmine.unbound (by rw [hp]; rfl)
    have hcookie := hmine.revoked (by rw [hp]; rfl)
    exact h.dismantle hi _ (by simp [hp]) h.keys (fun disp _ => ⟨rfl, rfl, rfl, rfl, rfl⟩) rfl rfl
      (fun c _ hc => ⟨hc.port, hc.unbound, hc.revoked⟩)
      (fun _ => ⟨hmine.port, fun _ => hlistener, fun _ => hcookie⟩) nofun
  | removeSession hp =>
    have hmine := h.dismantled call hcall (by simp [hp])
    have hlistener := hmine.unbound (by rw [hp]; rfl)
    have hcookie := hmine.revoked (by rw [hp]; rfl)
    refine h.dismantle hi .done (by simp [hp]) ?_ ?_ rfl rfl ?_ (fun hne => absurd rfl hne) ?_
    · intro disp session hget
      exact h.keys disp session (Table.get_of_get_remove hget)
    · intro disp hne
      have hget := Table.get_remove_of_ne m.sessions hne
      exact ⟨congrArg Option.isSome hget, congrArg (Option.map _) hget, rfl, rfl, rfl⟩
    · intro c _ hc
      exact ⟨hc.port, hc.unbound, hc.revoked⟩
    · intro _
      have hget := Table.get_remove_self m.sessions call.display
      refine ⟨hmine.port, ?_, ?_⟩
      · refine Eq.trans ?_ (congrArg Option.isSome hget).symm
        exact congrArg Option.isSome hlistener
      · refine Eq.trans ?_ (congrArg (Option.map _) hget).symm
        exact hcookie

/-- `destroy_session` is called for a display that no create call holds. -/
theorem ResourceInv.destroy {call : DestroyCall} (h : ResourceInv m) (hu : m.Unheld call.display)
    (hp : call.phase = .cancelGrace) (hsessions : t.sessions = m.sessions)
    (hsame : ∀ disp, SameAt m t disp) (hcreates : t.creates = m.creates)
    (hdestroys : t.destroys = m.destroys ++ [call]) : ResourceInv t where
  keys := by
    rw [hsessions]
    exact h.keys
  held j c hj hcp := by
    rw [hcreates] at hj
    refine (h.held j c hj hcp).same (hsame _) ?_
    unfold Undisturbed
    rw [hdestroys]
    refine forall_mem_snoc (h.held j c hj hcp).undisturbed fun hcd => ?_
    rw [hu c (List.mem_of_getElem? hj) hcd.symm] at hcp
    contradiction
  dismantled c hc hcp := by
    rw [hdestroys] at hc
    rcases List.mem_append.mp hc with hc | hc
    · exact (h.dismantled c hc hcp).same (hsame _)
    · obtain rfl := List.mem_singleton.mp hc
      refine ⟨?_, by simp [hp, DestroyPhase.unbound], by simp [hp, DestroyPhase.revoked]⟩
      rw [(hsame _).port, (hsame _).listener]
      by_cases hd : m.Undisturbed c.display
      · exact (h.settled _ hu hd).port
      · -- another call is dismantling it already
        unfold Undisturbed at hd
        push Not at hd
        obtain ⟨c', hc', hcd, hne⟩ := hd
        exact hcd ▸ (h.dismantled c' hc' hne).port
  settled disp hunheld hd := by
    unfold Unheld at hunheld
    unfold Undisturbed at hd
    rw [hcreates] at hunheld
    rw [hdestroys] at hd
    exact (h.settled disp hunheld fun c hc => hd c (List.mem_append_left _ hc)).same (hsame disp)

theorem resumeStep_resourceInv {call : ResumeCall} (h : ResourceInv m)
    (ht : m.resumeStep i call = some t) : ResourceInv t := by
  cases resumeStep_cases ht with
  | @find session hp hfind =>
    obtain ⟨⟨disp, session'⟩, hmem, rfl⟩ := List.mem_map.mp (List.mem_of_find?_eq_some hfind)
    have hget := Table.mem_entries.mp hmem
    obtain rfl : session'.display = disp := h.keys _ _ hget
    -- the session is put back under its own display with a new owner
    refine h.of_same ?_ ?_ rfl rfl
    · intro disp session hput
      change (m.sessions.put _ _).get disp = some session at hput
      rw [Table.get_put] at hput
      split at hput
      · obtain rfl := Option.some.inj hput
        exact Eq.symm ‹_›
      · exact h.keys disp session hput
    · intro disp
      have hsame : ((m.sessions.put session'.display
          { session' with clientId := call.clientId }).get disp).map
            (fun s => (s.authName, s.authData)) = m.credentials disp := by
        unfold credentials
        rw [Table.get_put]
        split
        · rename_i hd
          rw [hd, hget]
          rfl
        · rfl
      refine ⟨?_, hsame, rfl, rfl, rfl⟩
      have hsome := congrArg Option.isSome hsame
      unfold credentials at hsome
      rwa [Option.isSome_map, Option.isSome_map] at hsome
  | missing | cancel | noGrace | ack =>
    exact h.of_same h.keys (fun disp => ⟨rfl, rfl, rfl, rfl, rfl⟩) rfl rfl

theorem graceStep_resourceInv {task : GraceTask} (h : ResourceInv m)
    (hg : Exclusive m (.graceStep i)) (hi : m.graces[i]? = some task)
    (ht : m.graceStep i task = some t) : ResourceInv t := by
  cases graceStep_cases ht with
  | @destroy all rest disp disp' hp hnew =>
    obtain rfl := DisplayNumber.eq_of_new_raw hnew
    have hu : m.Unheld disp' := hg task hi disp' (by simp [hp, GracePhase.next])
    exact h.destroy hu rfl rfl (fun disp => ⟨rfl, rfl, rfl, rfl, rfl⟩) rfl rfl
  | _ => exact h.of_same h.keys (fun disp => ⟨rfl, rfl, rfl, rfl, rfl⟩) rfl rfl

/-- A create call is made. -/
theorem ResourceInv.create {call : CreateCall} (h : ResourceInv m) (hp : call.phase.holds = false) :
    ResourceInv { m with creates := m.creates ++ [call] } where
  keys := h.keys
  held j c hj hcp := by
    rcases List.mem_append.mp (List.mem_of_getElem? hj) with hc | hc
    · change (m.creates ++ [call])[j]? = some c at hj
      rw [List.getElem?_append] at hj
      split at hj
      · have hheld := h.held j c hj hcp
        exact ⟨hheld.session, hheld.port, hheld.listener, hheld.cookie, hheld.undisturbed, hheld.free⟩
      · obtain rfl := List.mem_singleton.mp (List.mem_of_getElem? hj)
        rw [hp] at hcp
        contradiction
    · rw [List.mem_singleton.mp hc, hp] at hcp
      contradiction
  dismantled c hc hcp := (h.dismantled c hc hcp).same ⟨rfl, rfl, rfl, rfl, rfl⟩
  settled disp hu hd := by
    refine (h.settled disp (fun c hc => ?_) hd).same ⟨rfl, rfl, rfl, rfl, rfl⟩
    exact hu c (List.mem_append_left _ hc)

/-- The actions that look at these resources or change them. -/
def actsOnResources : Action → Bool
  | .create .. | .createAuto .. | .createStep .. | .destroyStep _ | .accept .. => true
  | _ => false

theorem step_resources {a : Action} (ht : m.step a = some t) (ha : actsOnResources a = false) :
    t.ports = m.ports ∧ t.listeners = m.listeners ∧ t.xauth = m.xauth ∧ t.creates = m.creates := by
  cases a with
  | create | createAuto | createStep | destroyStep | accept => contradiction
  | resume | destroy | unregisterRelay =>
    obtain rfl := Option.some.inj ht
    exact ⟨rfl, rfl, rfl, rfl⟩
  | release client =>
    obtain rfl := Option.some.inj ht
    rw [release_frame]
    exact ⟨rfl, rfl, rfl, rfl⟩
  | unregister c =>
    obtain ⟨-, rfl⟩ := step_unregister ht
    exact ⟨rfl, rfl, rfl, rfl⟩
  | resumeStep i =>
    obtain ⟨call, -, ht⟩ := Option.bind_eq_some_iff.mp ht
    rw [resumeStep_frame ht]
    exact ⟨rfl, rfl, rfl, rfl⟩
  | graceStep i =>
    obtain ⟨task, -, ht⟩ := Option.bind_eq_some_iff.mp ht
    rw [graceStep_frame ht]
    exact ⟨rfl, rfl, rfl, rfl⟩
  | appStep i =>
    obtain ⟨app, -, ht⟩ := Option.bind_eq_some_iff.mp ht
    rw [appStep_frame ht]
    exact ⟨rfl, rfl, rfl, rfl⟩
  | appEnd i =>
    obtain ⟨app, -, ht⟩ := Option.bind_eq_some_iff.mp ht
    rw [appEnd_frame ht]
    exact ⟨rfl, rfl, rfl, rfl⟩
  | unregisterStep i =>
    obtain ⟨call, -, ht⟩ := Option.bind_eq_some_iff.mp ht
    rw [unregisterStep_frame ht]
    exact ⟨rfl, rfl, rfl, rfl⟩

theorem step_resourceInv {a : Action} (h : ResourceInv m) (hg : Exclusive m a)
    (ht : m.step a = some t) : ResourceInv t := by
  cases a with
  | create | createAuto =>
    obtain rfl := Option.some.inj ht
    exact h.create rfl
  | createStep i failure id =>
    obtain ⟨call, hi, ht⟩ := Option.bind_eq_some_iff.mp ht
    exact createStep_resourceInv h hg hi ht
  | resumeStep i =>
    obtain ⟨call, -, ht⟩ := Option.bind_eq_some_iff.mp ht
    exact resumeStep_resourceInv h ht
  | destroy disp =>
    obtain rfl := Option.some.inj ht
    have hu : m.Unheld (DestroyCall.mk disp none .cancelGrace).display := hg
    exact h.destroy hu rfl rfl (fun disp => ⟨rfl, rfl, rfl, rfl, rfl⟩) rfl rfl
  | destroyStep i =>
    obtain ⟨call, hi, ht⟩ := Option.bind_eq_some_iff.mp ht
    exact destroyStep_resourceInv h hi ht
  | graceStep i =>
    obtain ⟨task, hi, ht⟩ := Option.bind_eq_some_iff.mp ht
    exact graceStep_resourceInv h hg hi ht
  | accept port c =>
    obtain ⟨handle, -, rfl⟩ := Option.map_eq_some_iff.mp ht
    exact h.of_same h.keys (fun disp => ⟨rfl, rfl, rfl, rfl, rfl⟩) rfl rfl
  | _ =>
    have hframe := step_frame ht
    have hsessions := hframe.sessions rfl
    obtain ⟨hports, hlisteners, hxauth, hcreates⟩ := step_resources ht rfl
    refine h.of_same (hsessions ▸ h.keys) (fun disp => ?_) hcreates (hframe.destroys rfl)
    exact ⟨by rw [hsessions], by unfold credentials; rw [hsessions], by rw [hports], by rw [hlisteners],
      by rw [hxauth]⟩

theorem init_resourceInv : ResourceInv init where
  keys := nofun
  held := nofun
  dismantled := nofun
  settled := fun _ _ _ => ⟨rfl, rfl, rfl⟩

theorem ResourceInv.all_settled (h : ResourceInv m) (hidle : m.CallsReturned) (disp : DisplayNumber) :
    Settled m disp := by
  refine h.settled disp (fun call hcall _ => ?_) (fun call hcall _ => hidle.2 call hcall)
  have hreturned := hidle.1 call hcall
  cases hp : call.phase <;> rw [hp] at hreturned <;> first | rfl | contradiction

/-! ## Without a failed call -/

/-- Not a step of the `i`-th create call. -/
def spared (i : Nat) : Action → Bool
  | .createStep j _ _ => j ≠ i
  | _ => true

/-- The actions of a run without the steps of the `i`-th create call, which is made and never gets to
    its first section. -/
def without (i : Nat) (as : List Action) : List Action := as.filter (spared i)

/-- No application connects to the port while the `i`-th create call has it. -/
def Unvisited (i : Nat) (m : Manager) : Action → Prop
  | .accept port _ => m.ports.get port ≠ some i
  | _ => True

instance (i : Nat) (m : Manager) : (a : Action) → Decidable (Unvisited i m a)
  | .accept port _ => inferInstanceAs (Decidable (m.ports.get port ≠ some i))
  | .create .. | .createAuto .. | .createStep .. | .resume .. | .resumeStep _ | .destroy _
  | .destroyStep _ | .release _ | .graceStep _ | .appStep _ | .appEnd _ | .unregister _
  | .unregisterStep _ | .unregisterRelay _ => .isTrue trivial

def CreatePhase.ok : CreatePhase → Bool
  | .returnedOk _ | .acked _ => true
  | _ => false

/-- The `i`-th create call has returned a session. -/
def ReturnedOk (i : Nat) (m : Manager) : Prop :=
  ∃ call, m.creates[i]? = some call ∧ CreatePhase.ok call.phase = true

/-- What `create_session` works on besides the sessions. -/
def setResources (m : Manager) (ports listeners : Table DisplayNumber Nat)
    (xauth : Table DisplayNumber (String × Bytes)) (creates : List CreateCall) : Manager :=
  { m with ports := ports, listeners := listeners, xauth := xauth, creates := creates }

section Commute

variable {ports listeners : Table DisplayNumber Nat} {xauth : Table DisplayNumber (String × Bytes)}
  {creates : List CreateCall}

theorem resumeStep_setResources (call : ResumeCall) :
    (m.setResources ports listeners xauth creates).resumeStep i call =
      (m.resumeStep i call).map fun t => t.setResources ports listeners xauth creates := by
  unfold resumeStep
  cases call.phase <;> simp only [setResources] <;> first | rfl | split <;> rfl

theorem release_setResources (client : String) :
    (m.setResources ports listeners xauth creates).release client =
      (m.release client).setResources ports listeners xauth creates := by
  unfold release
  dsimp only [setResources]
  split <;> rfl

theorem graceStep_setResources (task : GraceTask) :
    (m.setResources ports listeners xauth creates).graceStep i task =
      (m.graceStep i task).map fun t => t.setResources ports listeners xauth creates := by
  unfold graceStep
  split <;> simp only [setResources] <;> first | rfl | split <;> rfl

theorem appStep_setResources (app : App) :
    (m.setResources ports listeners xauth creates).appStep i app =
      (m.appStep i app).map fun t => t.setResources ports listeners xauth creates := by
  unfold appStep
  cases app.phase with
  | accepted =>
    dsimp only [setResources]
    split <;> rfl
  | attached =>
    show (if maxX11ConnectionsPerDisplay ≤ (m.connsOf app.display).length then _ else _) =
      Option.map _ (if maxX11ConnectionsPerDisplay ≤ (m.connsOf app.display).length then _ else _)
    split <;> rfl
  | inserting =>
    show (if m.connectionsFree then _ else _) = Option.map _ (if m.connectionsFree then _ else _)
    split <;> rfl
  | _ => rfl

theorem appEnd_setResources (app : App) :
    (m.setResources ports listeners xauth creates).appEnd i app =
      (m.appEnd i app).map fun t => t.setResources ports listeners xauth creates := by
  unfold appEnd
  cases app.phase <;> rfl

theorem unregisterStep_setResources (call : UnregisterCall) :
    (m.setResources ports listeners xauth creates).unregisterStep i call =
      (m.unregisterStep i call).map fun t => t.setResources ports listeners xauth creates := by
  unfold unregisterStep
  cases call.phase with
  | removing =>
    show (if m.connectionsFree then _ else _) = Option.map _ (if m.connectionsFree then _ else _)
    split
    · dsimp only [setResources]
      split <;> rfl
    · rfl
  | unlisting disp =>
    dsimp only [setResources]
    split <;> rfl
  | done => rfl

end Commute

/-- A step of a call that is not about these resources is the same with others in their place. -/
theorem step_setResources {a : Action} (ht : m.step a = some t)
    (ha : actsOnResources a = false) (ports listeners : Table DisplayNumber Nat)
    (xauth : Table DisplayNumber (String × Bytes)) (creates : List CreateCall) :
    (m.setResources ports listeners xauth creates).step a =
      some (t.setResources ports listeners xauth creates) := by
  have hmap : (m.setResources ports listeners xauth creates).step a =
      (m.step a).map fun t => t.setResources ports listeners xauth creates := by
    cases a with
    | create | createAuto | createStep | destroyStep | accept => contradiction
    | resume | destroy | unregisterRelay => rfl
    | resumeStep i =>
      show (m.resumes[i]?.bind _) = (m.resumes[i]?.bind _).map _
      cases m.resumes[i]? with
      | none => rfl
      | some call => exact resumeStep_setResources call
    | release client => exact congrArg some (release_setResources client)
    | graceStep i =>
      show (m.graces[i]?.bind _) = (m.graces[i]?.bind _).map _
      cases m.graces[i]? with
      | none => rfl
      | some task => exact graceStep_setResources task
    | appStep i =>
      show (m.apps[i]?.bind _) = (m.apps[i]?.bind _).map _
      cases m.apps[i]? with
      | none => rfl
      | some app => exact appStep_setResources app
    | appEnd i =>
      show (m.apps[i]?.bind _) = (m.apps[i]?.bind _).map _
      cases m.apps[i]? with
      | none => rfl
      | some app => exact appEnd_setResources app
    | unregister c =>
      show (if m.apps.any _ then _ else _) = Option.map _ (if m.apps.any _ then _ else _)
      split <;> rfl
    | unregisterStep i =>
      show (m.unregisters[i]?.bind _) = (m.unregisters[i]?.bind _).map _
      cases m.unregisters[i]? with
      | none => rfl
      | some call => exact unregisterStep_setResources call
  rw [hmap, ht]
  rfl

/-- `t` is `m` without the steps of the `i`-th create call: the display it holds is free. -/
structure Without (i : Nat) (m t : Manager) : Prop where
  rest : t = m.setResources t.ports t.listeners t.xauth t.creates
  length : t.creates.length = m.creates.length
  others : ∀ j, j ≠ i → t.creates[j]? = m.creates[j]?
  elsewhere : ∀ disp, (∀ call, m.creates[i]? = some call → call.phase.holds = true →
    call.display ≠ disp) → t.ports.get disp = m.ports.get disp ∧
      t.listeners.get disp = m.listeners.get disp ∧ t.xauth.get disp = m.xauth.get disp
  erased : ∀ call, m.creates[i]? = some call → call.phase.holds = true →
    t.ports.get call.display = none ∧ t.listeners.get call.display = none ∧
      t.xauth.get call.display = none

variable {m' : Manager}

/-- A step that leaves these resources alone. -/
theorem Without.of_rest (h : Without i m t) (m' : Manager) (hports : m'.ports = m.ports)
    (hlisteners : m'.listeners = m.listeners) (hxauth : m'.xauth = m.xauth)
    (hcreates : m'.creates = m.creates) :
    Without i m' (m'.setResources t.ports t.listeners t.xauth t.creates) where
  rest := rfl
  length := by
    rw [hcreates]
    exact h.length
  others := by
    rw [hcreates]
    exact h.others
  elsewhere := by
    rw [hcreates, hports, hlisteners, hxauth]
    exact h.elsewhere
  erased := by
    rw [hcreates]
    exact h.erased

/-- A step of the call that is left out. -/
theorem Without.own {call : CreateCall} (h : Without i m t) (hi : m.creates[i]? = some call)
    (call' : CreateCall)
    (hrest : m' = m.setResources m'.ports m'.listeners m'.xauth m'.creates)
    (hcreates : m'.creates = m.creates.set i call')
    (helsewhere : ∀ disp, (call'.phase.holds = true → call'.display ≠ disp) →
      t.ports.get disp = m'.ports.get disp ∧ t.listeners.get disp = m'.listeners.get disp ∧
        t.xauth.get disp = m'.xauth.get disp)
    (herased : call'.phase.holds = true → t.ports.get call'.display = none ∧
      t.listeners.get call'.display = none ∧ t.xauth.get call'.display = none) :
    Without i m' t := by
  obtain ⟨hlt, -⟩ := List.getElem?_eq_some_iff.mp hi
  have hmine : m'.creates[i]? = some call' := by
    rw [hcreates]
    exact List.getElem?_set_self hlt
  refine ⟨?_, ?_, ?_, ?_, ?_⟩
  · rw [hrest]
    exact h.rest
  · rw [hcreates, List.length_set]
    exact h.length
  · intro j hj
    rw [hcreates, List.getElem?_set_ne hj.symm]
    exact h.others j hj
  · intro disp hdisp
    exact helsewhere disp (hdisp call' hmine)
  · intro c hc
    obtain rfl := Option.some.inj (hmine.symm.trans hc)
    exact herased

theorem Without.skip {call : CreateCall} {failure : Option String} {id : SessionId}
    (h : Without i m t) (hinv : ResourceInv m) (hg : Exclusive m (.createStep i failure id))
    (hi : m.creates[i]? = some call) (hm : m.createStep i call failure id = some m')
    (hok : ¬ ReturnedOk i m') : Without i m' t := by
  obtain ⟨hlt, -⟩ := List.getElem?_eq_some_iff.mp hi
  -- while it holds nothing, both sides agree everywhere
  have hsame : call.phase.holds = false → ∀ disp, t.ports.get disp = m.ports.get disp ∧
      t.listeners.get disp = m.listeners.get disp ∧ t.xauth.get disp = m.xauth.get disp := by
    intro hp disp
    refine h.elsewhere disp fun c hc hcp => ?_
    obtain rfl := Option.some.inj (hi.symm.trans hc)
    rw [hp] at hcp
    contradiction
  -- while it holds its display, both sides agree off that display
  have hoff : ∀ disp, call.display ≠ disp → t.ports.get disp = m.ports.get disp ∧
      t.listeners.get disp = m.listeners.get disp ∧ t.xauth.get disp = m.xauth.get disp := by
    intro disp hne
    refine h.elsewhere disp fun c hc _ => ?_
    obtain rfl := Option.some.inj (hi.symm.trans hc)
    exact hne
  cases createStep_cases hm with
  | choose hp | taken hp | unbound hp =>
    exact h.own hi _ rfl rfl (fun disp _ => hsame (by rw [hp]; rfl) disp) nofun
  | bind hp hfail hport =>
    have hnext := createStep_resourceInv hinv hg hi hm
    have hheld := hnext.held i { call with phase := .listing } (List.getElem?_set_self hlt) rfl
    refine h.own hi _ rfl rfl ?_ ?_
    · intro disp hne
      obtain ⟨hp', hl', hx'⟩ := hoff disp (hne rfl)
      exact ⟨hp'.trans (Table.get_put_of_ne _ _ (hne rfl).symm).symm, hl', hx'⟩
    · intro _
      obtain ⟨hp', hl', hx'⟩ := hsame (by rw [hp]; rfl) call.display
      exact ⟨hp'.trans hport, hl'.trans hheld.listener, hx'.trans hheld.cookie⟩
  | list hp =>
    refine h.own hi _ rfl rfl ?_ fun _ => h.erased call hi (by rw [hp]; rfl)
    intro disp hne
    obtain ⟨hp', hl', hx'⟩ := hoff disp (hne rfl)
    exact ⟨hp', hl'.trans (Table.get_put_of_ne _ _ (hne rfl).symm).symm, hx'⟩
  | reject hp =>
    exact h.own hi _ rfl rfl (fun disp hne => hoff disp (hne rfl))
      fun _ => h.erased call hi (by rw [hp]; rfl)
  | install hp =>
    refine h.own hi _ rfl rfl ?_ fun _ => h.erased call hi (by rw [hp]; rfl)
    intro disp hne
    obtain ⟨hp', hl', hx'⟩ := hoff disp (hne rfl)
    exact ⟨hp', hl', hx'.trans (Table.get_put_of_ne _ _ (hne rfl).symm).symm⟩
  | @unwind e error hp =>
    -- the display is as free as it would have been
    have hheld := hinv.held i call hi (by rw [hp]; rfl)
    have hport : m.ports.get call.display = m.listeners.get call.display := by
      rw [hheld.port, hheld.listener, if_neg (by simp [hp])]
    have hcookie : m.xauth.get call.display = none := by
      rw [hheld.cookie, if_neg (by simp [hp])]
    refine h.own hi { call with phase := .returnedErr error } ?_ ?_ ?_ nofun
    · rw [unbindDisplay_frame]
      rfl
    · rw [unbindDisplay_frame]
      rfl
    · intro disp _
      have hxauth : ((m.unbindDisplay call.display).setCreate i call
          (.returnedErr error)).xauth = m.xauth := by
        rw [unbindDisplay_frame]
        rfl
      rw [hxauth]
      show t.ports.get disp = (m.unbindDisplay call.display).ports.get disp ∧
        t.listeners.get disp = (m.unbindDisplay call.display).listeners.get disp ∧ _
      rw [unbindDisplay_ports hport, unbindDisplay_listeners]
      by_cases hd : disp = call.display
      · subst hd
        rw [if_pos rfl, if_pos rfl, hcookie]
        exact h.erased call hi (by rw [hp]; rfl)
      · rw [if_neg hd, if_neg hd]
        exact hoff disp (Ne.symm hd)
  | inUse hp hsession => exact absurd (hinv.held i call hi (by rw [hp]; rfl)).session hsession
  | unbindInUse hp => exact absurd hp (hinv.held i call hi (by rw [hp]; rfl)).free.1
  | removeInUse hp => exact absurd hp (hinv.held i call hi (by rw [hp]; rfl)).free.2
  | insert | ack => exact absurd ⟨_, List.getElem?_set_self hlt, rfl⟩ hok

/-- A change of the resources of a display that the call left out does not hold. -/
theorem Without.beside {t' : Manager} (h : Without i m t)
    (hfree : ∀ c, m.creates[i]? = some c → c.phase.holds = true → c.display ≠ disp)
    (hrest : t' = m'.setResources t'.ports t'.listeners t'.xauth t'.creates)
    (hcreates : m'.creates = m.creates) (hcreates' : t'.creates = t.creates)
    (hm : ∀ d, d ≠ disp → m'.ports.get d = m.ports.get d ∧
      m'.listeners.get d = m.listeners.get d ∧ m'.xauth.get d = m.xauth.get d)
    (ht : ∀ d, d ≠ disp → t'.ports.get d = t.ports.get d ∧
      t'.listeners.get d = t.listeners.get d ∧ t'.xauth.get d = t.xauth.get d)
    (hnew : t'.ports.get disp = m'.ports.get disp ∧ t'.listeners.get disp = m'.listeners.get disp ∧
      t'.xauth.get disp = m'.xauth.get disp) : Without i m' t' where
  rest := hrest
  length := by
    rw [hcreates, hcreates']
    exact h.length
  others := by
    rw [hcreates, hcreates']
    exact h.others
  elsewhere d hd := by
    rw [hcreates] at hd
    by_cases hne : d = disp
    · subst hne
      exact hnew
    · rw [(hm d hne).1, (hm d hne).2.1, (hm d hne).2.2, (ht d hne).1, (ht d hne).2.1, (ht d hne).2.2]
      exact h.elsewhere d hd
  erased c hc hp := by
    rw [hcreates] at hc
    have hne := hfree c hc hp
    rw [(ht _ hne).1, (ht _ hne).2.1, (ht _ hne).2.2]
    exact h.erased c hc hp

theorem Without.putPort {handle : Nat} (h : Without i m t)
    (hfree : ∀ c, m.creates[i]? = some c → c.phase.holds = true → c.display ≠ disp) :
    Without i { m with ports := m.ports.put disp handle }
      { t with ports := t.ports.put disp handle } := by
  obtain ⟨-, hl, hx⟩ := h.elsewhere disp hfree
  refine h.beside hfree ?_ rfl rfl ?_ ?_ ?_
  · rw [h.rest]
    rfl
  · intro d hd
    exact ⟨Table.get_put_of_ne _ _ hd, rfl, rfl⟩
  · intro d hd
    exact ⟨Table.get_put_of_ne _ _ hd, rfl, rfl⟩
  · exact ⟨(Table.get_put_self _ _ _).trans (Table.get_put_self _ _ _).symm, hl, hx⟩

theorem Without.putListener {handle : Nat} (h : Without i m t)
    (hfree : ∀ c, m.creates[i]? = some c → c.phase.holds = true → c.display ≠ disp) :
    Without i { m with listeners := m.listeners.put disp handle }
      { t with listeners := t.listeners.put disp handle } := by
  obtain ⟨hp, -, hx⟩ := h.elsewhere disp hfree
  refine h.beside hfree ?_ rfl rfl ?_ ?_ ?_
  · rw [h.rest]
    rfl
  · intro d hd
    exact ⟨rfl, Table.get_put_of_ne _ _ hd, rfl⟩
  · intro d hd
    exact ⟨rfl, Table.get_put_of_ne _ _ hd, rfl⟩
  · exact ⟨hp, (Table.get_put_self _ _ _).trans (Table.get_put_self _ _ _).symm, hx⟩

theorem Without.putCookie {cookie : String × Bytes} (h : Without i m t)
    (hfree : ∀ c, m.creates[i]? = some c → c.phase.holds = true → c.display ≠ disp) :
    Without i { m with xauth := m.xauth.put disp cookie }
      { t with xauth := t.xauth.put disp cookie } := by
  obtain ⟨hp, hl, -⟩ := h.elsewhere disp hfree
  refine h.beside hfree ?_ rfl rfl ?_ ?_ ?_
  · rw [h.rest]
    rfl
  · intro d hd
    exact ⟨rfl, rfl, Table.get_put_of_ne _ _ hd⟩
  · intro d hd
    exact ⟨rfl, rfl, Table.get_put_of_ne _ _ hd⟩
  · exact ⟨hp, hl, (Table.get_put_self _ _ _).trans (Table.get_put_self _ _ _).symm⟩

theorem Without.removeCookie (h : Without i m t)
    (hfree : ∀ c, m.creates[i]? = some c → c.phase.holds = true → c.display ≠ disp) :
    Without i { m with xauth := m.xauth.remove disp } { t with xauth := t.xauth.remove disp } := by
  obtain ⟨hp, hl, -⟩ := h.elsewhere disp hfree
  refine h.beside hfree ?_ rfl rfl ?_ ?_ ?_
  · rw [h.rest]
    rfl
  · intro d hd
    exact ⟨rfl, rfl, Table.get_remove_of_ne _ hd⟩
  · intro d hd
    exact ⟨rfl, rfl, Table.get_remove_of_ne _ hd⟩
  · exact ⟨hp, hl, (Table.get_remove_self _ _).trans (Table.get_remove_self _ _).symm⟩

theorem Without.unbind (h : Without i m t)
    (hfree : ∀ c, m.creates[i]? = some c → c.phase.holds = true → c.display ≠ disp)
    (hport : m.ports.get disp = m.listeners.get disp) :
    Without i (m.unbindDisplay disp) (t.unbindDisplay disp) := by
  obtain ⟨hp, hl, hx⟩ := h.elsewhere disp hfree
  have hport' : t.ports.get disp = t.listeners.get disp := by rw [hp, hl, hport]
  have hkeep : ∀ (u : Manager) (d : DisplayNumber), u.ports.get disp = u.listeners.get disp → d ≠ disp →
      (u.unbindDisplay disp).ports.get d = u.ports.get d ∧
        (u.unbindDisplay disp).listeners.get d = u.listeners.get d ∧
        (u.unbindDisplay disp).xauth.get d = u.xauth.get d := by
    intro u d hu hd
    have hsame := sameAt_unbindDisplay hu hd
    exact ⟨hsame.port, hsame.listener, hsame.cookie⟩
  refine h.beside hfree ?_ ?_ ?_ (fun d hd => hkeep m d hport hd) (fun d hd => hkeep t d hport' hd) ?_
  · rw [unbindDisplay_frame m, unbindDisplay_frame t, h.rest]
    rfl
  · rw [unbindDisplay_frame]
  · rw [unbindDisplay_frame]
  · rw [unbindDisplay_ports hport, unbindDisplay_ports hport', unbindDisplay_listeners,
      unbindDisplay_listeners, unbindDisplay_frame m, unbindDisplay_frame t, if_pos rfl, if_pos rfl,
      if_pos rfl, if_pos rfl]
    exact ⟨rfl, rfl, hx⟩

/-- A create call that is not left out moves on, and nothing else changes. -/
theorem Without.moveCreate {j : Nat} {call : CreateCall} {phase : CreatePhase}
    (h : Without i m t) (hne : j ≠ i) :
    Without i (m.setCreate j call phase) (t.setCreate j call phase) := by
  have hmine : (m.setCreate j call phase).creates[i]? = m.creates[i]? := by
    show (m.creates.set j _)[i]? = _
    rw [List.getElem?_set_ne hne]
  refine ⟨?_, ?_, ?_, ?_, ?_⟩
  · rw [h.rest]
    rfl
  · show (t.creates.set j _).length = (m.creates.set j _).length
    rw [List.length_set, List.length_set]
    exact h.length
  · intro k hk
    show (t.creates.set j _)[k]? = (m.creates.set j _)[k]?
    rw [List.getElem?_set, List.getElem?_set, h.length, h.others k hk]
  · rw [hmine]
    exact h.elsewhere
  · rw [hmine]
    exact h.erased

theorem Without.createStep {j : Nat} {call : CreateCall} {failure : Option String} {id : SessionId}
    (h : Without i m t) (hinv : ResourceInv m) (hne : j ≠ i) (hj : m.creates[j]? = some call)
    (hm : m.createStep j call failure id = some m') :
    ∃ t', t.createStep j call failure id = some t' ∧ Without i m' t' := by
  -- a display that another call holds is not held by the one left out
  have hfree : call.phase.holds = true → ∀ c, m.creates[i]? = some c → c.phase.holds = true →
      c.display ≠ call.display := by
    intro hp c hc hcp hcd
    rw [hinv.sole hj hp i c hc hne.symm hcd] at hcp
    contradiction
  obtain ⟨p, l, x, cs, rfl⟩ : ∃ p l x cs, t = m.setResources p l x cs := ⟨_, _, _, _, h.rest⟩
  unfold Manager.createStep at hm ⊢
  cases hp : call.phase with
  | choosing =>
    simp only [hp] at hm ⊢
    rw [show (m.setResources p l x cs).firstFree = m.firstFree from rfl]
    cases hf : m.firstFree with
    | some free =>
      simp only [hf] at hm ⊢
      obtain rfl := Option.some.inj hm
      exact ⟨_, rfl, h.moveCreate hne⟩
    | none =>
      simp only [hf] at hm ⊢
      obtain rfl := Option.some.inj hm
      exact ⟨_, rfl, h.moveCreate hne⟩
  | binding =>
    simp only [hp] at hm ⊢
    cases failure with
    | some e =>
      obtain rfl := Option.some.inj hm
      exact ⟨_, rfl, h.moveCreate hne⟩
    | none =>
      simp only at hm ⊢
      split at hm
      · contradiction
      · rename_i hport
        obtain rfl := Option.some.inj hm
        have hfree : ∀ c, m.creates[i]? = some c → c.phase.holds = true →
            c.display ≠ call.display := by
          intro c hc hcp hcd
          have hbound := (hinv.held i c hc hcp).port
          rw [hcd, hport] at hbound
          contradiction
        have hport' := (h.elsewhere call.display hfree).1.trans hport
        rw [show (m.setResources p l x cs).ports.get call.display = none from hport']
        exact ⟨_, rfl, (h.putPort hfree).moveCreate hne⟩
  | listing =>
    simp only [hp] at hm ⊢
    obtain rfl := Option.some.inj hm
    exact ⟨_, rfl, (h.putListener (hfree (by rw [hp]; rfl))).moveCreate hne⟩
  | installing =>
    simp only [hp] at hm ⊢
    cases failure with
    | some e =>
      obtain rfl := Option.some.inj hm
      exact ⟨_, rfl, h.moveCreate hne⟩
    | none =>
      obtain rfl := Option.some.inj hm
      exact ⟨_, rfl, (h.putCookie (hfree (by rw [hp]; rfl))).moveCreate hne⟩
  | unwinding e =>
    simp only [hp] at hm ⊢
    obtain rfl := Option.some.inj hm
    have hheld := hinv.held j call hj (by rw [hp]; rfl)
    have hport : m.ports.get call.display = m.listeners.get call.display := by
      rw [hheld.port, hheld.listener, if_neg (by simp [hp])]
    exact ⟨_, rfl, (h.unbind (hfree (by rw [hp]; rfl)) hport).moveCreate hne⟩
  | inserting =>
    simp only [hp] at hm ⊢
    have hsession := (hinv.held j call hj (by rw [hp]; rfl)).session
    rw [hsession] at hm
    rw [show (m.setResources p l x cs).sessions.get call.display = none from hsession]
    simp only at hm ⊢
    split at hm
    · contradiction
    · rename_i hfresh
      obtain rfl := Option.some.inj hm
      rw [if_neg (show ¬ id ∈ (m.setResources p l x cs).issued from hfresh)]
      refine ⟨_, rfl, ?_⟩
      exact (h.of_rest { m with
        sessions := m.sessions.put call.display
          ⟨id, call.display, call.authName, call.authData, call.clientId⟩
        issued := id :: m.issued } rfl rfl rfl rfl).moveCreate hne
  | inUseUnbinding =>
    exact absurd hp (hinv.held j call hj (by rw [hp]; rfl)).free.1
  | inUseRemoving =>
    exact absurd hp (hinv.held j call hj (by rw [hp]; rfl)).free.2
  | returnedOk session =>
    simp only [hp] at hm ⊢
    obtain rfl := Option.some.inj hm
    refine ⟨_, rfl, ?_⟩
    exact (h.of_rest { m with
      connToRelay := m.connToRelay.put call.display call.clientId } rfl rfl rfl rfl).moveCreate hne
  | acked | returnedErr =>
    simp only [hp] at hm
    contradiction

theorem Without.destroyStep {j : Nat} {call : DestroyCall} (h : Without i m t)
    (hinv : ResourceInv m) (hj : m.destroys[j]? = some call)
    (hm : m.destroyStep j call = some m') :
    ∃ t', t.destroyStep j call = some t' ∧ Without i m' t' := by
  -- a display that is being dismantled is held by no create call
  have hfree : call.phase ≠ .done → ∀ c, m.creates[i]? = some c → c.phase.holds = true →
      c.display ≠ call.display := by
    intro hp c hc hcp hcd
    exact hp ((hinv.held i c hc hcp).undisturbed call (List.mem_of_getElem? hj) hcd.symm)
  have hmove : ∀ (m₁ t₁ : Manager) (phase : DestroyPhase), Without i m₁ t₁ →
      Without i (m₁.setDestroy j call phase) (t₁.setDestroy j call phase) := by
    intro m₁ t₁ phase h₁
    have hrest := h₁.of_rest (m₁.setDestroy j call phase) rfl rfl rfl rfl
    rwa [show (m₁.setDestroy j call phase).setResources t₁.ports t₁.listeners t₁.xauth t₁.creates =
      t₁.setDestroy j call phase by rw [h₁.rest]; rfl] at hrest
  obtain ⟨p, l, x, cs, rfl⟩ : ∃ p l x cs, t = m.setResources p l x cs := ⟨_, _, _, _, h.rest⟩
  cases destroyStep_cases hm with
  | @cancel g hp hg =>
    exact ⟨_, DestroyStep.taken (.cancel hp hg), hmove _ _ _ (h.of_rest { m with
      graceTasks := m.graceTasks.remove call.display
      graces := m.graces.modify g GraceTask.cancel } rfl rfl rfl rfl)⟩
  | noGrace hp hg => exact ⟨_, DestroyStep.taken (.noGrace hp hg), hmove _ _ _ h⟩
  | unbind hp =>
    have hmine := hinv.dismantled call (List.mem_of_getElem? hj) (by simp [hp])
    exact ⟨_, DestroyStep.taken (.unbind hp),
      hmove _ _ _ (h.unbind (hfree (by simp [hp])) hmine.port)⟩
  | @take ids hp hids =>
    exact ⟨_, DestroyStep.taken (.take hp hids), hmove _ _ _ (h.of_rest { m with
      displayConns := m.displayConns.remove call.display } rfl rfl rfl rfl)⟩
  | noConns hp hids => exact ⟨_, DestroyStep.taken (.noConns hp hids), hmove _ _ _ h⟩
  | @close ids hp hunlocked =>
    exact ⟨_, DestroyStep.taken (.close hp hunlocked), hmove _ _ _ (h.of_rest { m with
      connections := m.connections.removeAll ids } rfl rfl rfl rfl)⟩
  | removeCookie hp =>
    exact ⟨_, DestroyStep.taken (.removeCookie hp),
      hmove _ _ _ (h.removeCookie (hfree (by simp [hp])))⟩
  | removeRelay hp =>
    exact ⟨_, DestroyStep.taken (.removeRelay hp), hmove _ _ _ (h.of_rest { m with
      connToRelay := m.connToRelay.remove call.display } rfl rfl rfl rfl)⟩
  | removeSession hp =>
    exact ⟨_, DestroyStep.taken (.removeSession hp), hmove _ _ _ (h.of_rest { m with
      sessions := m.sessions.remove call.display
      expired := m.expired ++ m.expiredBy call } rfl rfl rfl rfl)⟩

/-- A create call is made, which may be the one that is left out. -/
theorem Without.create {call : CreateCall} (h : Without i m t) (hp : call.phase.holds = false) :
    Without i { m with creates := m.creates ++ [call] } { t with creates := t.creates ++ [call] } := by
  have hmine : ∀ c, (m.creates ++ [call])[i]? = some c → c.phase.holds = true →
      m.creates[i]? = some c := by
    intro c hc hcp
    rw [List.getElem?_append] at hc
    split at hc
    · exact hc
    · obtain rfl := List.mem_singleton.mp (List.mem_of_getElem? hc)
      rw [hp] at hcp
      contradiction
  refine ⟨?_, ?_, ?_, ?_, fun c hc hcp => h.erased c (hmine c hc hcp) hcp⟩
  · rw [h.rest]
    rfl
  · simp [h.length]
  · intro j hj
    show (t.creates ++ [call])[j]? = (m.creates ++ [call])[j]?
    rw [List.getElem?_append, List.getElem?_append, h.length, h.others j hj]
  · intro disp hdisp
    refine h.elsewhere disp fun c hc hcp => hdisp c ?_ hcp
    obtain ⟨hlt, -⟩ := List.getElem?_eq_some_iff.mp hc
    exact (List.getElem?_append_left hlt).trans hc

theorem Without.keep {a : Action} (h : Without i m t) (hinv : ResourceInv m)
    (hvisit : Unvisited i m a) (ha : ∀ failure id, a ≠ .createStep i failure id)
    (hm : m.step a = some m') : ∃ t', t.step a = some t' ∧ Without i m' t' := by
  cases hres : actsOnResources a with
  | false =>
    obtain ⟨hports, hlisteners, hxauth, hcreates⟩ := step_resources hm hres
    refine ⟨_, ?_, h.of_rest m' hports hlisteners hxauth hcreates⟩
    rw [h.rest]
    exact step_setResources hm hres _ _ _ _
  | true =>
    cases a with
    | create | createAuto =>
      obtain rfl := Option.some.inj hm
      exact ⟨_, rfl, h.create rfl⟩
    | createStep j failure id =>
      obtain ⟨call, hj, hm⟩ := Option.bind_eq_some_iff.mp hm
      have hne : j ≠ i := by
        rintro rfl
        exact ha failure id rfl
      obtain ⟨t', ht', h'⟩ := h.createStep hinv hne hj hm
      refine ⟨t', Option.bind_eq_some_iff.mpr ⟨call, ?_, ht'⟩, h'⟩
      rw [h.others j hne, hj]
    | destroyStep j =>
      obtain ⟨call, hj, hm⟩ := Option.bind_eq_some_iff.mp hm
      obtain ⟨t', ht', h'⟩ := h.destroyStep hinv hj hm
      refine ⟨t', Option.bind_eq_some_iff.mpr ⟨call, ?_, ht'⟩, h'⟩
      rw [h.rest]
      exact hj
    | accept port c =>
      obtain ⟨handle, hport, rfl⟩ := Option.map_eq_some_iff.mp hm
      have hfree : ∀ call, m.creates[i]? = some call → call.phase.holds = true →
          call.display ≠ port := by
        rintro call hc hcp rfl
        exact hvisit (hinv.held i call hc hcp).port
      refine ⟨_, Option.map_eq_some_iff.mpr ⟨handle, ?_, rfl⟩, ?_⟩
      · rw [(h.elsewhere port hfree).1, hport]
      · refine ⟨?_, h.length, h.others, h.elsewhere, h.erased⟩
        rw [h.rest]
        rfl
    | _ => contradiction

theorem createStep_ok {call : CreateCall} {failure : Option String} {id : SessionId}
    (h : m.createStep i call failure id = some t) :
    ∃ call', t.creates = m.creates.set i call' ∧
      (CreatePhase.ok call.phase = true → CreatePhase.ok call'.phase = true) := by
  cases createStep_cases h with
  | @unwind e error hp =>
    rw [unbindDisplay_frame]
    exact ⟨_, rfl, by simp [hp, CreatePhase.ok]⟩
  | unbindInUse hp =>
    rw [unbindDisplay_frame]
    exact ⟨_, rfl, by simp [hp, CreatePhase.ok]⟩
  | choose hp | taken hp | unbound hp | bind hp | list hp | reject hp | install hp | inUse hp
  | insert hp | removeInUse hp | ack hp => exact ⟨_, rfl, by simp [hp, CreatePhase.ok]⟩

/-- A session that was returned stays returned. -/
theorem step_returnedOk {a : Action} (h : ReturnedOk i m) (ht : m.step a = some t) :
    ReturnedOk i t := by
  obtain ⟨call, hi, hp⟩ := h
  obtain ⟨hlt, -⟩ := List.getElem?_eq_some_iff.mp hi
  cases a with
  | create | createAuto =>
    obtain rfl := Option.some.inj ht
    exact ⟨call, (List.getElem?_append_left hlt).trans hi, hp⟩
  | createStep j failure id =>
    obtain ⟨c, hj, ht⟩ := Option.bind_eq_some_iff.mp ht
    obtain ⟨c', hcreates, hok⟩ := createStep_ok ht
    obtain ⟨-, rfl, hmine⟩ | ⟨-, hother⟩ := getElem?_set_of c' hj hi
    · exact ⟨c', hcreates ▸ hmine, hok hp⟩
    · exact ⟨call, hcreates ▸ hother, hp⟩
  | _ => exact ⟨call, (step_frame ht).creates rfl ▸ hi, hp⟩

/-- One step of the run, with the call that is left out among the actions. -/
theorem without_step {a : Action} (h : ResourceInv m ∧ Without i m t) (hexclusive : Exclusive m a)
    (hok : ∀ m', m.step a = some m' → ¬ ReturnedOk i m') (ha : spared i a = false)
    (hm : m.step a = some m') : ResourceInv m' ∧ Without i m' t := by
  refine ⟨step_resourceInv h.1 hexclusive hm, ?_⟩
  cases a with
  | createStep j failure id =>
    obtain rfl : j = i := by simpa [spared] using ha
    obtain ⟨call, hj, hstep⟩ := Option.bind_eq_some_iff.mp hm
    exact h.2.skip h.1 hexclusive hj hstep (hok m' hm)
  | _ => contradiction

theorem spared_step {a : Action} (h : ResourceInv m ∧ Without i m t) (hexclusive : Exclusive m a)
    (hvisit : Unvisited i m a) (ha : spared i a = true) (hm : m.step a = some m') :
    ∃ t', t.step a = some t' ∧ ResourceInv m' ∧ Without i m' t' := by
  have hother : ∀ failure id, a ≠ .createStep i failure id := by
    rintro failure id rfl
    simp [spared] at ha
  obtain ⟨t', ht', hnext⟩ := h.2.keep h.1 hvisit hother hm
  exact ⟨t', ht', step_resourceInv h.1 hexclusive hm, hnext⟩

theorem run_without {as : List Action} (hmeets : Meets step Exclusive init as)
    (hvisit : Meets step (Unvisited i) init as) (hrun : run step init as = some m)
    (hfailed : ¬ ReturnedOk i m) :
    ∃ t, run step init (without i as) = some t ∧ Without i m t := by
  have hnever := meets_not_of_final (fun s a t h ht => step_returnedOk h ht) hrun hfailed
  have hinit : ResourceInv init ∧ Without i init init :=
    ⟨init_resourceInv, rfl, rfl, fun _ _ => rfl, fun _ _ => ⟨rfl, rfl, rfl⟩, nofun⟩
  have hfilter : ∃ t, run step init (as.filter (spared i)) = some t ∧ ResourceInv m ∧ Without i m t := by
    refine run_filter (R := fun m t => ResourceInv m ∧ Without i m t) ?_ ?_ hinit
      ((hmeets.and hvisit).and hnever) hrun
    · rintro m t a m' h ⟨⟨hexclusive, -⟩, hok⟩ ha hm
      exact without_step h hexclusive hok ha hm
    · rintro m t a m' h ⟨⟨hexclusive, hvisit⟩, -⟩ ha hm
      exact spared_step h hexclusive hvisit ha hm
  obtain ⟨t, ht, -, hwithout⟩ := hfilter
  exact ⟨t, ht, hwithout⟩

/-- **Resources of a display.** In every run in which creating and destroying do not overlap on a
    display: whenever every call has returned, a display has a session exactly when its listener is bound,
    and then its cookie is the session's; and for a create call that has returned an error, the run
    without its steps is a run and ends with the same sessions, listeners and cookies. -/
theorem resources_settled {as : List Action} (hmeets : Meets step Exclusive init as)
    (hrun : run step init as = some m) :
    (m.CallsReturned → ∀ disp, Settled m disp) ∧
    ∀ i call error, m.creates[i]? = some call → call.phase = .returnedErr error →
      Meets step (Unvisited i) init as →
        ∃ t, run step init (without i as) = some t ∧ t.sessions = m.sessions ∧
          ∀ disp, t.ports.get disp = m.ports.get disp ∧
            t.listeners.get disp = m.listeners.get disp ∧ t.xauth.get disp = m.xauth.get disp := by
  constructor
  · intro hidle
    have hinv : ResourceInv m :=
      run_inv (fun m a t h hg ht => step_resourceInv h hg ht) init_resourceInv hmeets hrun
    exact hinv.all_settled hidle
  · intro i call error hi hp hvisit
    have hmine : ∀ c, m.creates[i]? = some c → c = call := by
      intro c hc
      exact Option.some.inj (hc.symm.trans hi)
    have hfailed : ¬ ReturnedOk i m := by
      rintro ⟨c, hc, hok⟩
      rw [hmine c hc, hp] at hok
      contradiction
    obtain ⟨t, ht, hwithout⟩ := run_without hmeets hvisit hrun hfailed
    refine ⟨t, ht, by rw [hwithout.rest]; rfl, fun disp => hwithout.elsewhere disp ?_⟩
    intro c hc hcp
    rw [hmine c hc, hp] at hcp
    contradiction

/-- A session is created and destroyed, and on another display `xauth` fails. -/
def oneFails : List Action :=
  createCall 0 ⟨3⟩ ⟨"a"⟩ "client" ++
    [.create ⟨4⟩ "MIT-MAGIC-COOKIE-1" [7] "client", .createStep 1 none ⟨"b"⟩,
      .createStep 1 none ⟨"b"⟩, .createStep 1 (some "no xauth") ⟨"b"⟩] ++
    createCall 2 ⟨5⟩ ⟨"c"⟩ "client" ++
    .destroy ⟨3⟩ :: List.replicate 6 (.destroyStep 0) ++ [.createStep 1 none ⟨"b"⟩]

theorem resources_settled_oneFails : ∃ m, run step init oneFails = some m ∧ m.CallsReturned ∧
    (m.sessions.get ⟨5⟩).isSome = true ∧ (∀ disp, Settled m disp) ∧
    ∃ t, run step init (without 1 oneFails) = some t ∧ t.sessions = m.sessions ∧
      ∀ disp, t.ports.get disp = m.ports.get disp ∧
        t.listeners.get disp = m.listeners.get disp ∧ t.xauth.get disp = m.xauth.get disp := by
  have hlast : ∃ m ∈ run step init oneFails, m.CallsReturned ∧ (m.sessions.get ⟨5⟩).isSome = true ∧
      m.creates[1]? = some ⟨⟨4⟩, "MIT-MAGIC-COOKIE-1", [7], "client",
        .returnedErr (.protocol "xauth setup failed for display :4: no xauth")⟩ := by
    decide +kernel
  obtain ⟨m, hm, hidle, hsession, hfailed⟩ := hlast
  have hmeets : Meets step Exclusive init oneFails := by decide +kernel
  have hvisit : Meets step (Unvisited 1) init oneFails := by decide +kernel
  obtain ⟨hsettled, herased⟩ := resources_settled hmeets hm
  exact ⟨m, hm, hidle, hsession, hsettled hidle, herased 1 _ _ hfailed rfl hvisit⟩

/-- A display is created again between the sections of the `destroy_session` of its old session. -/
def createdAgain : List Action :=
  createCall 0 ⟨3⟩ ⟨"a"⟩ "client" ++ [.destroy ⟨3⟩, .destroyStep 0, .destroyStep 0] ++
    .create ⟨3⟩ "MIT-MAGIC-COOKIE-1" [7] "client" :: List.replicate 3 (.createStep 1 none ⟨"b"⟩) ++
    List.replicate 4 (.destroyStep 0) ++ [.createStep 1 none ⟨"b"⟩]

/-- Every call has returned, and the new session has no cookie. -/
theorem destroy_takes_new_cookie : ∃ m, run step init createdAgain = some m ∧ m.CallsReturned ∧
    (m.sessions.get ⟨3⟩).map (·.id) = some ⟨"b"⟩ ∧ m.xauth.get ⟨3⟩ = none := by
  have hlast : ∃ m ∈ run step init createdAgain, m.CallsReturned ∧
      (m.sessions.get ⟨3⟩).map (·.id) = some ⟨"b"⟩ ∧ m.xauth.get ⟨3⟩ = none := by
    decide +kernel
  exact hlast

end Manager

end RemoteX11.Sessions
