/-
  A stop that is requested of the connector (`connector.rs`: `ConnectorHandle::stop`, `connect_and_serve`,
  `run_cycles`, `sleep_or_stop`, `connect_and_serve_once`).

  The machine is `connect_and_serve` between two awaits, with the flag of the handle; a request is an action
  of its own, and comes at any moment. The check at the top of the loop and the start of the attempt are one
  step. A `select!` against the stop signal may take either branch when both are ready, and the signal is
  ready once the flag is set: a permit of the `Notify` that is lost or left over changes nothing.

  `run_refines`: with the flag forgotten, a run is one of the attempts of `Client.Connector`.
-/
import RemoteX11.Client.Connector

namespace RemoteX11.Client.Stop

open RemoteX11.Lib RemoteX11.Protocol RemoteX11.Transport RemoteX11.Client.Connector

/-- Where `connect_and_serve` is. -/
inductive Place where
  /-- the top of the loop of `run_cycles` -/
  | top
  | establishing
  /-- the `select!` of `serve` and the stop signal -/
  | serving
  /-- the attempt has its result; the tasks of its session are ended -/
  | closing (result : Except AnyError Unit)
  /-- `sleep_or_stop` -/
  | backoff

structure Machine where
  cycles : Cycles
  place : Place
  stopRequested : Bool
  /-- how many attempts have started -/
  starts : Nat

def Machine.new : Machine := ⟨.new, .top, false, 0⟩

inductive Action where
  /-- `ConnectorHandle::stop` -/
  | stop
  | check
  /-- `establish` returns; of the script only its part is read -/
  | establish (a : Attempt)
  /-- a turn of `serve`, or the stop signal -/
  | serve (event : ServeEvent)
  | close
  /-- `sleep_or_stop` returns after the delay -/
  | slept
  /-- `sleep_or_stop` returns for the signal -/
  | woken

/-- The branch of the `select!` is ready. -/
def ready (stopRequested : Bool) : ServeEvent → Bool
  | .stop => stopRequested
  | _ => true

/-- A session is established. -/
def serving (s : Cycles) (est : Established) : Cycles :=
  { s with
    lastSessionId := est.saved
    state := { s.state with
      phase := .serving
      display := some est.display.raw
      sessionId := est.saved
      compression := est.dataplane.compression.map CompressionAlgo.asStr
      features := est.dataplane.features.toList
      lastError := none } }

namespace Machine

def finish (m : Machine) (result : Except AnyError Unit) : Machine :=
  { m with cycles := m.cycles.finish result }

/-- What `run_cycles` makes of the result of an attempt. -/
def classify (c : LocalConnector) (m : Machine) : Except AnyError Unit → Machine
  | .ok () => m.finish (.ok ())
  | .error e => { m with cycles := m.cycles.afterFailure c e false, place := .backoff }

/-- One step of a connector that has not returned. -/
def advance (c : LocalConnector) (m : Machine) : Place → Action → Option Machine
  | .top, .check =>
    if m.stopRequested then some (m.finish (.ok ()))
    else some { m with cycles := m.cycles.connecting, place := .establishing, starts := m.starts + 1 }
  | .establishing, .establish a =>
    (established c m.cycles a).map fun
      | .error e => { m with
          cycles := { m.cycles with state := { m.cycles.state with phase := a.failedPhase } }
          place := .closing (.error e) }
      | .ok est => { m with cycles := serving m.cycles est, place := .serving }
  | .serving, .serve event =>
    if ready m.stopRequested event then
      some (match event.outcome with
        | none => m
        | some result => { m with place := .closing result })
    else none
  | .closing result, .close => some (m.classify c result)
  | .backoff, .slept =>
    -- the flag is read again after the delay
    if m.stopRequested then some (m.finish (.ok ())) else some { m with place := .top }
  | .backoff, .woken => if m.stopRequested then some (m.finish (.ok ())) else none
  | _, _ => none

end Machine

def step (c : LocalConnector) (m : Machine) : Action → Option Machine
  | .stop => some { m with stopRequested := true }
  | act => if m.cycles.result.isSome then none else m.advance c m.place act

/-! ## What a step can do -/

inductive Moves (c : LocalConnector) (m : Machine) : Action → Machine → Prop
  | stop : Moves c m .stop { m with stopRequested := true }
  | stopsAtTop (hplace : m.place = .top) (hstop : m.stopRequested = true)
      (hlive : m.cycles.result = none) : Moves c m .check (m.finish (.ok ()))
  | starts (hplace : m.place = .top) (hstop : m.stopRequested = false)
      (hlive : m.cycles.result = none) : Moves c m .check
        { m with cycles := m.cycles.connecting, place := .establishing, starts := m.starts + 1 }
  | fails (a : Attempt) (e : AnyError) (hplace : m.place = .establishing)
      (hest : established c m.cycles a = some (.error e)) (hlive : m.cycles.result = none) :
      Moves c m (.establish a) { m with
        cycles := { m.cycles with state := { m.cycles.state with phase := a.failedPhase } }
        place := .closing (.error e) }
  | establishes (a : Attempt) (est : Established) (hplace : m.place = .establishing)
      (hest : established c m.cycles a = some (.ok est)) (hlive : m.cycles.result = none) :
      Moves c m (.establish a) { m with cycles := serving m.cycles est, place := .serving }
  | turn (event : ServeEvent) (hplace : m.place = .serving) (houtcome : event.outcome = none)
      (hlive : m.cycles.result = none) : Moves c m (.serve event) m
  | served (event : ServeEvent) (result : Except AnyError Unit) (hplace : m.place = .serving)
      (hready : ready m.stopRequested event = true) (houtcome : event.outcome = some result)
      (hlive : m.cycles.result = none) : Moves c m (.serve event) { m with place := .closing result }
  | closes (result : Except AnyError Unit) (hplace : m.place = .closing result)
      (hlive : m.cycles.result = none) : Moves c m .close (m.classify c result)
  | sleeps (hplace : m.place = .backoff) (hstop : m.stopRequested = false)
      (hlive : m.cycles.result = none) : Moves c m .slept { m with place := .top }
  | wakes (act : Action) (hact : act = .slept ∨ act = .woken) (hplace : m.place = .backoff)
      (hstop : m.stopRequested = true) (hlive : m.cycles.result = none) :
      Moves c m act (m.finish (.ok ()))

theorem advance_moves {c : LocalConnector} {m m' : Machine} {act : Action}
    (hlive : m.cycles.result = none) (h : m.advance c m.place act = some m') : Moves c m act m' := by
  unfold Machine.advance at h
  split at h
  · rename_i hplace
    split at h
    · rename_i hstop
      cases h
      exact .stopsAtTop hplace hstop hlive
    · rename_i hstop
      cases h
      exact .starts hplace (Bool.eq_false_iff.mpr hstop) hlive
  · rename_i a hplace
    obtain ⟨result, hest, rfl⟩ := Option.map_eq_some_iff.mp h
    cases result with
    | error e => exact .fails a e hplace hest hlive
    | ok est => exact .establishes a est hplace hest hlive
  · rename_i event hplace
    split at h
    · rename_i hready
      cases houtcome : event.outcome with
      | none =>
        rw [houtcome] at h
        cases h
        exact .turn event hplace houtcome hlive
      | some result =>
        rw [houtcome] at h
        cases h
        exact .served event result hplace hready houtcome hlive
    · cases h
  · rename_i result hplace
    cases h
    exact .closes result hplace hlive
  · rename_i hplace
    split at h
    · rename_i hstop
      cases h
      exact .wakes .slept (.inl rfl) hplace hstop hlive
    · rename_i hstop
      cases h
      exact .sleeps hplace (Bool.eq_false_iff.mpr hstop) hlive
  · rename_i hplace
    split at h
    · rename_i hstop
      cases h
      exact .wakes .woken (.inr rfl) hplace hstop hlive
    · cases h
  · cases h

theorem step_moves {c : LocalConnector} {m m' : Machine} {act : Action} (h : step c m act = some m') :
    Moves c m act m' := by
  have hadvance : (if m.cycles.result.isSome then none else m.advance c m.place act) = some m' →
      Moves c m act m' := by
    intro h
    split at h
    · cases h
    · rename_i hlive
      exact advance_moves (by simpa using hlive) h
  cases act with
  | stop =>
    cases h
    exact .stop
  | check => exact hadvance h
  | establish a => exact hadvance h
  | serve event => exact hadvance h
  | close => exact hadvance h
  | slept => exact hadvance h
  | woken => exact hadvance h

/-! ## After a request -/

/-- The steps of the connector that are not turns of the serve loop. -/
def Action.advances : Action → Bool
  | .stop => false
  | .serve event => event.outcome.isSome
  | _ => true

/-- How many steps are left at most, once a stop is requested. -/
def Place.stepsLeft : Place → Nat
  | .top => 1
  | .establishing => 4
  | .serving => 3
  | .closing _ => 2
  | .backoff => 1

theorem Place.stepsLeft_le (place : Place) : place.stepsLeft ≤ 4 := by
  cases place <;> simp [Place.stepsLeft]

def Machine.stepsLeft (m : Machine) : Nat :=
  if m.cycles.result.isSome then 0 else m.place.stepsLeft

/-- The result that is classified ends the connector with its error: it is not retriable, or the budget is
used up. -/
def Fatal (c : LocalConnector) (m : Machine) (e : AnyError) : Prop :=
  m.place = .closing (.error e) ∧ (isRetriable e = false ∨ m.cycles.attempt + 1 > c.maxRetries)

/-- The step does not classify a result that ends the connector with its error. -/
def NotFatal (c : LocalConnector) (m : Machine) (act : Action) : Prop :=
  act = .close → ∀ e, ¬ Fatal c m e

/-- If the connector has returned, it has returned without an error and shows it. -/
def StoppedOk (m : Machine) : Prop :=
  m.cycles.result.isSome → m.cycles.result = some (.ok ()) ∧ m.cycles.state.phase = .stopped

/-- What a request promises of the steps `after` it, from `s` to `t`. -/
structure Honoured (c : LocalConnector) (s : Machine) (after : List Action) (t : Machine) : Prop where
  noStart : t.starts = s.starts
  /-- it returns: its steps are few, and until it returns it has a next one -/
  bounded : after.countP Action.advances ≤ 4
  goesOn : t.cycles.result = none → ∃ act u, act.advances = true ∧ step c t act = some u
  stopped : StoppedOk t

theorem stoppedOk_of_live {m : Machine} (h : m.cycles.result = none) : StoppedOk m := by
  intro hsome
  rw [h] at hsome
  cases hsome

theorem stoppedOk_finish (m : Machine) : StoppedOk (m.finish (.ok ())) := fun _ => ⟨rfl, rfl⟩

/-- What `run_cycles` returns for a failed attempt. -/
theorem afterFailure_result (c : LocalConnector) (s : Cycles) (e : AnyError) :
    (s.afterFailure c e false).result =
      if isRetriable e = false ∨ s.attempt + 1 > c.maxRetries then some (.error e) else s.result := by
  unfold Cycles.afterFailure
  by_cases hretry : isRetriable e = true
  · rw [if_neg (not_not.mpr hretry)]
    by_cases hbudget : s.attempt + 1 > c.maxRetries
    · have hbad : isRetriable e = false ∨ s.attempt + 1 > c.maxRetries := .inr hbudget
      simp only [if_pos hbudget, if_pos hbad]
      rfl
    · have hgood : ¬ (isRetriable e = false ∨ s.attempt + 1 > c.maxRetries) := by
        rw [hretry]
        exact fun hbad => hbad.elim Bool.noConfusion hbudget
      simp only [if_neg hbudget, if_neg hgood, Bool.false_eq_true, if_false]
  · rw [if_pos hretry, if_pos (.inl (Bool.eq_false_iff.mpr hretry))]
    rfl

theorem stoppedOk_afterFailure {c : LocalConnector} {m : Machine} {e : AnyError}
    (hplace : m.place = .closing (.error e)) (hlive : m.cycles.result = none) :
    StoppedOk (m.classify c (.error e)) ↔ ∀ e', ¬ Fatal c m e' := by
  have hresult := afterFailure_result c m.cycles e
  by_cases hbad : isRetriable e = false ∨ m.cycles.attempt + 1 > c.maxRetries
  · rw [if_pos hbad] at hresult
    refine iff_of_false ?_ (fun h => h e ⟨hplace, hbad⟩)
    intro h
    have hok : (m.cycles.afterFailure c e false).result = some (.ok ()) := (h (by
      show (m.cycles.afterFailure c e false).result.isSome = true
      rw [hresult]
      rfl)).1
    rw [hresult] at hok
    cases hok
  · rw [if_neg hbad, hlive] at hresult
    refine iff_of_true (stoppedOk_of_live hresult) ?_
    rintro e' ⟨hplace', hbad'⟩
    rw [hplace] at hplace'
    cases hplace'
    exact hbad hbad'

/-- **One step after a request.** -/
theorem step_stoppedOk_iff {c : LocalConnector} {m m' : Machine} {act : Action}
    (hstop : m.stopRequested = true) (hm : StoppedOk m) (h : step c m act = some m') :
    StoppedOk m' ↔ NotFatal c m act := by
  cases step_moves h with
  | stop => exact iff_of_true hm (fun hact => by cases hact)
  | stopsAtTop => exact iff_of_true (stoppedOk_finish m) (fun hact => by cases hact)
  | starts _ hstart =>
    rw [hstop] at hstart
    cases hstart
  | fails a e _ _ hlive => exact iff_of_true (stoppedOk_of_live hlive) (fun hact => by cases hact)
  | establishes a est _ _ hlive => exact iff_of_true (stoppedOk_of_live hlive) (fun hact => by cases hact)
  | turn event _ _ hlive => exact iff_of_true hm (fun hact => by cases hact)
  | served event result _ _ _ hlive => exact iff_of_true (stoppedOk_of_live hlive) (fun hact => by cases hact)
  | closes result hplace hlive =>
    have hguard : NotFatal c m .close ↔ ∀ e, ¬ Fatal c m e := ⟨fun h => h rfl, fun h _ => h⟩
    rw [hguard]
    cases result with
    | ok =>
      refine iff_of_true (stoppedOk_finish m) ?_
      rintro e ⟨hplace', -⟩
      rw [hplace] at hplace'
      cases hplace'
    | error e => exact stoppedOk_afterFailure hplace hlive
  | sleeps _ hstart =>
    rw [hstop] at hstart
    cases hstart
  | wakes _ hact => exact iff_of_true (stoppedOk_finish m) (fun hclose => by subst hclose; simp at hact)

theorem stepsLeft_le (m : Machine) : m.stepsLeft ≤ m.place.stepsLeft := by
  unfold Machine.stepsLeft
  split
  · exact Nat.zero_le _
  · exact Nat.le_refl _

theorem stepsLeft_of_live {m : Machine} (h : m.cycles.result = none) :
    m.stepsLeft = m.place.stepsLeft := by
  unfold Machine.stepsLeft
  rw [h]
  rfl

/-- What a step leaves alone, and how far it gets. -/
theorem step_bounded {c : LocalConnector} {m m' : Machine} {act : Action}
    (hstop : m.stopRequested = true) (h : step c m act = some m') :
    m'.stopRequested = true ∧ m'.starts = m.starts ∧
      (if act.advances then 1 else 0) + m'.stepsLeft ≤ m.stepsLeft := by
  cases step_moves h with
  | stop => exact ⟨rfl, rfl, Nat.le_of_eq (Nat.zero_add _)⟩
  | stopsAtTop hplace _ hlive =>
    rw [stepsLeft_of_live hlive, hplace]
    exact ⟨hstop, rfl, Nat.le_refl _⟩
  | starts _ hstart =>
    rw [hstop] at hstart
    cases hstart
  | fails a e hplace _ hlive =>
    rw [stepsLeft_of_live hlive, hplace]
    exact ⟨hstop, rfl, Nat.le_trans (Nat.add_le_add_left (stepsLeft_le _) 1) (show 1 + 2 ≤ 4 by decide)⟩
  | establishes a est hplace _ hlive =>
    rw [stepsLeft_of_live hlive, hplace]
    exact ⟨hstop, rfl, Nat.add_le_add_left (stepsLeft_le _) 1⟩
  | turn event hplace houtcome hlive =>
    have hturn : (Action.serve event).advances = false := by rw [Action.advances, houtcome]; rfl
    refine ⟨hstop, rfl, ?_⟩
    rw [hturn]
    exact Nat.le_of_eq (Nat.zero_add _)
  | served event result hplace _ houtcome hlive =>
    have hturn : (Action.serve event).advances = true := by rw [Action.advances, houtcome]; rfl
    rw [stepsLeft_of_live hlive, hplace, hturn]
    exact ⟨hstop, rfl, Nat.add_le_add_left (stepsLeft_le _) 1⟩
  | closes result hplace hlive =>
    rw [stepsLeft_of_live hlive, hplace]
    cases result with
    | ok => exact ⟨hstop, rfl, Nat.le_succ 1⟩
    | error e => exact ⟨hstop, rfl, Nat.add_le_add_left (stepsLeft_le _) 1⟩
  | sleeps _ hstart =>
    rw [hstop] at hstart
    cases hstart
  | wakes _ hact hplace _ hlive =>
    rw [stepsLeft_of_live hlive, hplace]
    refine ⟨hstop, rfl, ?_⟩
    obtain rfl | rfl := hact <;> exact Nat.le_refl _

/-- **Any number of steps after a request.** -/
theorem run_bounded {c : LocalConnector} {m t : Machine} {acts : List Action}
    (hstop : m.stopRequested = true) (h : run (step c) m acts = some t) :
    t.stopRequested = true ∧ t.starts = m.starts ∧
      acts.countP Action.advances + t.stepsLeft ≤ m.stepsLeft := by
  induction acts generalizing m with
  | nil =>
    cases h
    exact ⟨hstop, rfl, Nat.le_of_eq (Nat.zero_add _)⟩
  | cons act acts ih =>
    obtain ⟨m', hstep, hrest⟩ := run_cons_eq_some.mp h
    obtain ⟨hstop', hstarts, hle⟩ := step_bounded hstop hstep
    obtain ⟨hstop'', hstarts', hle'⟩ := ih hstop' hrest
    refine ⟨hstop'', hstarts'.trans hstarts, ?_⟩
    rw [List.countP_cons]
    omega

/-- A connector that has not returned has a next step: every await of it ends. -/
theorem step_of_live (c : LocalConnector) {m : Machine} (hstop : m.stopRequested = true)
    (hlive : m.cycles.result = none) : ∃ act u, act.advances = true ∧ step c m act = some u := by
  have hstep : ∀ {act : Action} {u : Machine}, act ≠ .stop → m.advance c m.place act = some u →
      step c m act = some u := by
    intro act u hact hu
    unfold step
    split
    · exact absurd rfl hact
    · rw [hlive]
      exact hu
  cases hplace : m.place with
  | top => exact ⟨.check, _, rfl, hstep (by simp) (by rw [hplace]; exact if_pos hstop)⟩
  | establishing =>
    let a : Attempt := ⟨false, [], .timedOut, .ok (), [], [], false⟩
    exact ⟨.establish a, _, rfl, hstep (by simp) (by rw [hplace]; rfl)⟩
  | serving => exact ⟨.serve .stop, _, rfl, hstep (by simp) (by rw [hplace]; exact if_pos hstop)⟩
  | closing result => exact ⟨.close, _, rfl, hstep (by simp) (by rw [hplace]; rfl)⟩
  | backoff => exact ⟨.woken, _, rfl, hstep (by simp) (by rw [hplace]; exact if_pos hstop)⟩

/-- A connector that has returned an error stays so. -/
theorem step_keeps_error {c : LocalConnector} {m m' : Machine} {act : Action} (hm : ¬ StoppedOk m)
    (h : step c m act = some m') : ¬ StoppedOk m' := by
  have hnot : m.cycles.result ≠ none := fun hlive => hm (stoppedOk_of_live hlive)
  cases step_moves h with
  | stop => exact hm
  | stopsAtTop _ _ hlive => exact absurd hlive hnot
  | starts _ _ hlive => exact absurd hlive hnot
  | fails _ _ _ _ hlive => exact absurd hlive hnot
  | establishes _ _ _ _ hlive => exact absurd hlive hnot
  | turn _ _ _ hlive => exact absurd hlive hnot
  | served _ _ _ _ _ hlive => exact absurd hlive hnot
  | closes _ _ hlive => exact absurd hlive hnot
  | sleeps _ _ hlive => exact absurd hlive hnot
  | wakes _ _ _ _ hlive => exact absurd hlive hnot

/-- After a request, the connector ends well exactly when none of its steps is fatal. -/
theorem run_stoppedOk_iff {c : LocalConnector} {m t : Machine} {acts : List Action}
    (hstop : m.stopRequested = true) (hm : StoppedOk m) (h : run (step c) m acts = some t) :
    StoppedOk t ↔ Meets (step c) (NotFatal c) m acts := by
  rw [← states_iff_meets_of_inv (I := StoppedOk) (J := fun m => m.stopRequested = true)
    (fun m act m' hstop hm h => ⟨(step_bounded hstop h).1, step_stoppedOk_iff hstop hm h⟩) hstop hm h]
  constructor
  · rintro ht pre u ⟨rest, rfl⟩ hu
    obtain ⟨u', hu', hrest⟩ := run_append.mp h
    cases hu.symm.trans hu'
    by_contra hbad
    exact run_inv_all (I := fun m => ¬ StoppedOk m) (fun m act m' hm h => step_keeps_error hm h) hbad
      hrest ht
  · intro hall
    exact hall acts t (List.prefix_refl acts) h

/-- **A stop.** At whatever moment before its return a stop is requested of the connector: no attempt starts
afterwards, it returns after at most four steps beside the turns of the serve loop, and it returns without an
error and shows `Stopped`, if and only if the attempt in progress does not end with an error that is fatal. -/
theorem stop_honoured_iff (c : LocalConnector) (after : List Action) (s t : Machine)
    (hlive : s.cycles.result = none) (hafter : run (step c) s (.stop :: after) = some t) :
    Honoured c s after t ↔ Meets (step c) (NotFatal c) s (.stop :: after) := by
  obtain ⟨s', hs', hrest⟩ := run_cons_eq_some.mp hafter
  have hrequest : step c s .stop = some { s with stopRequested := true } := rfl
  cases hrequest.symm.trans hs'
  have hm : StoppedOk { s with stopRequested := true } := stoppedOk_of_live hlive
  obtain ⟨hstop, hstarts, hle⟩ := run_bounded rfl hrest
  have hmax : Machine.stepsLeft { s with stopRequested := true } ≤ 4 :=
    Nat.le_trans (stepsLeft_le _) (Place.stepsLeft_le _)
  have hguard : NotFatal c s .stop := fun hact => by cases hact
  rw [meets_cons hrequest, ← run_stoppedOk_iff rfl hm hrest]
  constructor
  · intro h
    exact ⟨hguard, h.stopped⟩
  · rintro ⟨-, hok⟩
    exact ⟨hstarts, by omega, step_of_live c hstop, hok⟩

/-- An attempt whose TCP connect returned `connect`. -/
def unconnected (connect : Connect) : Attempt := ⟨false, [], connect, .ok (), [], [], false⟩

/-- A stop during the backoff after a refused connect. -/
theorem stop_honoured_iff_backoff :
    ∃ s t, run (step (exampleConnector 10)) .new
        [.check, .establish (unconnected (.failed ⟨.connectionRefused, "refused"⟩)), .close] = some s ∧
      run (step (exampleConnector 10)) s [.stop, .woken] = some t ∧
      Honoured (exampleConnector 10) s [.woken] t := by
  refine ⟨_, _, rfl, rfl, (stop_honoured_iff (exampleConnector 10) [.woken] _ _ rfl rfl).mpr ?_⟩
  have hguard : ∀ m act, act ≠ .close → NotFatal (exampleConnector 10) m act :=
    fun m act hne hact => absurd hact hne
  exact ⟨hguard _ _ (by simp), fun _ _ => ⟨hguard _ _ (by simp), fun _ _ => trivial⟩⟩

/-- A stop while the TCP connect is pending, which then times out. -/
theorem stop_during_connect_fails :
    ∃ s t, run (step (exampleConnector 10)) .new [.check] = some s ∧ s.cycles.result = none ∧
      run (step (exampleConnector 10)) s [.stop, .establish (unconnected .timedOut), .close] = some t ∧
      t.cycles.state.phase = .failed ∧
      ¬ Honoured (exampleConnector 10) s [.establish (unconnected .timedOut), .close] t := by
  refine ⟨_, _, rfl, rfl, rfl, rfl, ?_⟩
  intro h
  cases (h.stopped rfl).1

/-! ## The attempts of a run -/

/-- What `serve` has made of these events, when none of them ended it. -/
theorem serve_append {events : List ServeEvent} {event : ServeEvent} {result : Except AnyError Unit}
    (hturns : ∀ e ∈ events, e.outcome = none) (houtcome : event.outcome = some result) :
    Connector.serve (events ++ [event]) = some result := by
  induction events with
  | nil =>
    rw [List.nil_append, Connector.serve]
    simp only [houtcome]
    rfl
  | cons e events ih =>
    rw [List.cons_append, Connector.serve]
    simp only [hturns e List.mem_cons_self]
    exact ih fun e' he' => hturns e' (List.mem_cons_of_mem e he')

/-- The attempts that a machine has behind it, and the part it has done of the one in progress. -/
def Behind (c : LocalConnector) (m : Machine) : Prop :=
  ∃ as s, run (Connector.step c) .new as = some s ∧
    (m.cycles.result.isSome → m.cycles = s) ∧
    (m.cycles.result = none → s.result = none ∧ match m.place with
      | .top => m.cycles = s
      | .establishing => m.cycles = s.connecting
      | .serving => ∃ a est, established c s.connecting a = some (.ok est) ∧
          m.cycles = serving s.connecting est ∧ ∀ e ∈ a.serve, e.outcome = none
      | .closing result => ∃ a, connectAndServeOnce c s.connecting a = some (result, m.cycles)
      | .backoff => ∃ a e s', connectAndServeOnce c s.connecting a = some (.error e, s') ∧
          m.cycles = s'.afterFailure c e false)

/-- What a turn of `run_cycles` makes of the result of its attempt. -/
def settled (c : LocalConnector) (s : Cycles) (stopInBackoff : Bool) : Except AnyError Unit → Cycles
  | .ok () => s.finish (.ok ())
  | .error e => s.afterFailure c e stopInBackoff

/-- One turn of `run_cycles`, for an attempt whose script has been played. -/
theorem turn_of_attempt {c : LocalConnector} {s s' : Cycles} {a : Attempt} {result : Except AnyError Unit}
    (hlive : s.result = none) (h : connectAndServeOnce c s.connecting a = some (result, s'))
    (stopInBackoff : Bool) :
    Connector.step c s { a with stopAtStart := false, stopInBackoff := stopInBackoff } =
      some (settled c s' stopInBackoff result) := by
  have hsame : connectAndServeOnce c s.connecting
      { a with stopAtStart := false, stopInBackoff := stopInBackoff } = some (result, s') := h
  unfold Connector.step
  rw [hlive, hsame]
  cases result <;> rfl

/-- A run goes on by a turn. -/
theorem run_turn {c : LocalConnector} {as : List Attempt} {s s' : Cycles} {a : Attempt}
    (hrun : run (Connector.step c) .new as = some s) (hturn : Connector.step c s a = some s') :
    run (Connector.step c) .new (as ++ [a]) = some s' :=
  run_append.mpr ⟨s, hrun, run_cons_eq_some.mpr ⟨s', hturn, rfl⟩⟩

/-- A stop during the backoff. -/
theorem afterFailure_stop {c : LocalConnector} {s : Cycles} {e : AnyError}
    (hlive : (s.afterFailure c e false).result = none) :
    s.afterFailure c e true = (s.afterFailure c e false).finish (.ok ()) := by
  unfold Cycles.afterFailure at hlive ⊢
  by_cases hretry : ¬ isRetriable e = true
  · rw [if_pos hretry] at hlive
    cases hlive
  · rw [if_neg hretry] at hlive
    rw [if_neg hretry, if_neg hretry]
    by_cases hbudget : s.attempt + 1 > c.maxRetries
    · simp only [if_pos hbudget] at hlive
      cases hlive
    · simp only [if_neg hbudget]
      rfl

/-- An attempt that establishes no session. -/
theorem connectAndServeOnce_fails {c : LocalConnector} {s : Cycles} {a : Attempt} {e : AnyError}
    (hest : established c s a = some (.error e)) :
    connectAndServeOnce c s { a with serve := [] } =
      some (.error e, { s with state := { s.state with phase := a.failedPhase } }) := by
  have hplayed : established c s { a with serve := [] } = some (.error e) := hest
  unfold connectAndServeOnce
  rw [hplayed]
  rfl

/-- An attempt whose session is served until `event`. -/
theorem connectAndServeOnce_served {c : LocalConnector} {s : Cycles} {a : Attempt} {est : Established}
    {event : ServeEvent} {result : Except AnyError Unit} (hest : established c s a = some (.ok est))
    (hturns : ∀ e ∈ a.serve, e.outcome = none) (houtcome : event.outcome = some result) :
    connectAndServeOnce c s { a with serve := a.serve ++ [event] } = some (result, serving s est) := by
  have hplayed : established c s { a with serve := a.serve ++ [event] } = some (.ok est) := hest
  unfold connectAndServeOnce
  rw [hplayed]
  simp only [serve_append hturns houtcome, Option.map_some]
  rfl

theorem absurd_of_live {s : Cycles} {p : Prop} (h : s.result = none) : s.result.isSome → p := by
  intro hsome
  rw [h] at hsome
  cases hsome

theorem step_behind {c : LocalConnector} {m m' : Machine} {act : Action} (hm : Behind c m)
    (h : step c m act = some m') : Behind c m' := by
  obtain ⟨as, s, hrun, hreturned, hbehind⟩ := hm
  cases step_moves h with
  | stop => exact ⟨as, s, hrun, hreturned, hbehind⟩
  | stopsAtTop hplace _ hlive =>
    obtain ⟨hs, hcycles⟩ := hbehind hlive
    rw [hplace] at hcycles
    have hturn : Connector.step c s { unconnected .timedOut with stopAtStart := true } =
        some (s.finish (.ok ())) := by
      unfold Connector.step
      rw [hs]
      rfl
    exact ⟨_, _, run_turn hrun hturn, fun _ => congrArg (Cycles.finish · (.ok ())) hcycles,
      fun hnone => by cases hnone⟩
  | starts hplace _ hlive =>
    obtain ⟨hs, hcycles⟩ := hbehind hlive
    rw [hplace] at hcycles
    exact ⟨as, s, hrun, absurd_of_live hlive, fun _ => ⟨hs, congrArg Cycles.connecting hcycles⟩⟩
  | fails a e hplace hest hlive =>
    obtain ⟨hs, hcycles⟩ := hbehind hlive
    rw [hplace] at hcycles
    rw [hcycles] at hest hlive ⊢
    exact ⟨as, s, hrun, absurd_of_live hlive, fun _ => ⟨hs, _, connectAndServeOnce_fails hest⟩⟩
  | establishes a est hplace hest hlive =>
    obtain ⟨hs, hcycles⟩ := hbehind hlive
    rw [hplace] at hcycles
    rw [hcycles] at hest hlive ⊢
    exact ⟨as, s, hrun, absurd_of_live hlive, fun _ => ⟨hs, { a with serve := [] }, est, hest, rfl,
      fun e he => by cases he⟩⟩
  | turn event hplace houtcome hlive =>
    exact ⟨as, s, hrun, hreturned, hbehind⟩
  | served event result hplace _ houtcome hlive =>
    obtain ⟨hs, hcycles⟩ := hbehind hlive
    rw [hplace] at hcycles
    obtain ⟨a, est, hest, hserving, hturns⟩ := hcycles
    rw [hserving] at hlive ⊢
    exact ⟨as, s, hrun, absurd_of_live hlive,
      fun _ => ⟨hs, _, connectAndServeOnce_served hest hturns houtcome⟩⟩
  | closes result hplace hlive =>
    obtain ⟨hs, hcycles⟩ := hbehind hlive
    rw [hplace] at hcycles
    obtain ⟨a, honce⟩ := hcycles
    have hturn := fun b => run_turn hrun (turn_of_attempt hs honce b)
    cases result with
    | ok => exact ⟨_, _, hturn false, fun _ => rfl, fun hnone => by cases hnone⟩
    | error e =>
      cases hresult : (m.cycles.afterFailure c e false).result with
      | none =>
        exact ⟨as, s, hrun, absurd_of_live hresult, fun _ => ⟨hs, a, e, m.cycles, honce, rfl⟩⟩
      | some returned =>
        refine ⟨_, _, hturn false, fun _ => rfl, ?_⟩
        intro hnone
        have hcycles : (m.cycles.afterFailure c e false).result = none := hnone
        rw [hresult] at hcycles
        cases hcycles
  | sleeps hplace _ hlive =>
    obtain ⟨hs, hcycles⟩ := hbehind hlive
    rw [hplace] at hcycles
    obtain ⟨a, e, s', honce, hafter⟩ := hcycles
    have hturn := run_turn hrun (turn_of_attempt hs honce false)
    have hnone : (settled c s' false (.error e)).result = none := by
      rw [settled, ← hafter, hlive]
    exact ⟨_, _, hturn, fun _ => hafter, fun _ => ⟨hnone, hafter⟩⟩
  | wakes _ hact hplace _ hlive =>
    obtain ⟨hs, hcycles⟩ := hbehind hlive
    rw [hplace] at hcycles
    obtain ⟨a, e, s', honce, hafter⟩ := hcycles
    have hturn := run_turn hrun (turn_of_attempt hs honce true)
    have hstop : m.cycles.finish (.ok ()) = settled c s' true (.error e) := by
      rw [settled, afterFailure_stop (hafter ▸ hlive), hafter]
    exact ⟨_, _, hturn, fun _ => hstop, fun hnone => by cases hnone⟩

/-- **The attempts of a run.** With the flag forgotten, what a run of the machine leaves when it has returned
or is at the top of the loop is what a run of `run_cycles` leaves, turn by turn. -/
theorem run_refines {c : LocalConnector} {m : Machine} {acts : List Action}
    (h : run (step c) .new acts = some m) (hend : m.cycles.result.isSome ∨ m.place = .top) :
    ∃ as, run (Connector.step c) .new as = some m.cycles := by
  have hnew : Behind c .new := ⟨[], .new, rfl, fun _ => rfl, fun _ => ⟨rfl, rfl⟩⟩
  obtain ⟨as, s, hrun, hreturned, hbehind⟩ :=
    run_inv_all (I := Behind c) (fun m act m' hm h => step_behind hm h) hnew h
  refine ⟨as, ?_⟩
  cases hresult : m.cycles.result with
  | some returned => rw [hreturned (by rw [hresult]; rfl), hrun]
  | none =>
    have hplace : m.place = .top := by
      rw [hresult] at hend
      simpa using hend
    have hcycles := (hbehind hresult).2
    rw [hplace] at hcycles
    rw [hcycles, hrun]

end RemoteX11.Client.Stop
