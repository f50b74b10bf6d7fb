/-
  The registry over whole runs of `register` and `unregister` (`session/application.rs`).

  What it stands for is the list `live` of the connections that are registered, in registration order, each
  with the root that was computed then. `Represents` says how the applications and the owner map follow from
  it, and `registry_represents` that they do after every run: an application that leaves the list moves the
  places of the others and nothing else.
-/
import RemoteX11.Audio.Applications
import RemoteX11.Lib.Run

namespace RemoteX11.Audio

open RemoteX11.Lib RemoteX11.Protocol

/-- Connections and the roots they were registered with, in registration order. -/
abbrev Live := List (ConnectionId × ApplicationId)

namespace Live

/-- The connections of one root. -/
def under (live : Live) (root : ApplicationId) : List ConnectionId :=
  (live.filter fun e => e.2 = root).map Prod.fst

def without (live : Live) (conn : ConnectionId) : Live := live.filter fun e => e.1 ≠ conn

variable {live : Live} {conn : ConnectionId} {root : ApplicationId}

theorem mem_under : conn ∈ live.under root ↔ (conn, root) ∈ live := by
  simp [under]

theorem under_append (new root : ApplicationId) :
    Live.under (live ++ [(conn, new)]) root = live.under root ++ if new = root then [conn] else [] := by
  unfold under
  rw [List.filter_append, List.map_append]
  by_cases h : new = root <;> simp [h]

theorem under_without : (live.without conn).under root = (live.under root).filter fun c => c ≠ conn := by
  unfold under without
  rw [List.filter_map, List.filter_filter, List.filter_filter]
  simp only [Function.comp_def, Bool.and_comm]

theorem nodup_without (h : (live.map Prod.fst).Nodup) : ((live.without conn).map Prod.fst).Nodup :=
  h.sublist (List.filter_sublist.map _)

/-- A connection has one root. -/
theorem root_unique (h : (live.map Prod.fst).Nodup) {a b : ApplicationId} (ha : (conn, a) ∈ live)
    (hb : (conn, b) ∈ live) : a = b :=
  (Prod.mk.inj (List.inj_on_of_nodup_map h ha hb rfl)).2

end Live

/-- The registry says what `live` says. -/
structure ApplicationRegistry.Represents (r : ApplicationRegistry) (live : Live) : Prop where
  owner : ∀ conn index, r.owner.get conn = some index ↔
    ∃ a, r.applications[index]? = some a ∧ conn ∈ a.connections
  once : (r.applications.flatMap Application.connections).Nodup
  roots : (r.applications.map Application.root).Nodup
  nonempty : ∀ a ∈ r.applications, a.connections ≠ []
  /-- the connections of an application stand in registration order, -/
  order : ∀ a ∈ r.applications, a.connections = live.under a.root
  /-- and the application of a connection has the root it was registered with -/
  root : ∀ conn ρ, (r.applicationOf conn).map Application.root = some ρ ↔ (conn, ρ) ∈ live

/-! ## Runs -/

inductive RegistryCall where
  /-- the process tree is read as it is now: `lookup` gives the root of a process, if there is one -/
  | register (conn : ConnectionId) (peerPid : Int) (lookup : Int → Option ApplicationId)
  | unregister (conn : ConnectionId)

structure Registering where
  registry : ApplicationRegistry
  live : Live

namespace Registering

def init : Registering := ⟨.new, []⟩

/-- A connection that is registered is not registered again. -/
def step (s : Registering) : RegistryCall → Option Registering
  | .register conn peerPid lookup =>
    if conn ∈ s.live.map Prod.fst then none
    else
      let root := lookup peerPid
      some ⟨(s.registry.register conn root).2, s.live ++ (root.map fun ρ => (conn, ρ)).toList⟩
  | .unregister conn => some ⟨(s.registry.unregister conn).2, s.live.without conn⟩

/-! ## The invariant -/

structure Inv (s : Registering) : Prop where
  linked : s.registry.Linked
  live : (s.live.map Prod.fst).Nodup
  roots : (s.registry.applications.map Application.root).Nodup
  order : ∀ a ∈ s.registry.applications, a.connections = s.live.under a.root
  root : ∀ conn ρ, s.registry.rootOf conn = some ρ ↔ (conn, ρ) ∈ s.live

/-- No application has lost its last connection. -/
def Nonempty (s : Registering) : Prop := ∀ a ∈ s.registry.applications, a.connections ≠ []

variable {s : Registering} {conn : ConnectionId} {ρ : ApplicationId}

theorem Inv.represents (h : s.Inv) (hne : s.Nonempty) : s.registry.Represents s.live where
  owner := h.linked
  once := by
    rw [List.nodup_flatMap]
    constructor
    · intro a ha
      rw [h.order a ha]
      exact h.live.sublist (List.filter_sublist.map _)
    · refine (List.pairwise_map.mp h.roots).imp_of_mem ?_
      intro a b ha hb hroots c hca hcb
      rw [h.order a ha, Live.mem_under] at hca
      rw [h.order b hb, Live.mem_under] at hcb
      exact hroots (Live.root_unique h.live hca hcb)
  roots := h.roots
  nonempty := hne
  order := h.order
  root := h.root

theorem inv_init : init.Inv where
  linked := ApplicationRegistry.linked_new
  live := List.nodup_nil
  roots := List.nodup_nil
  order := by simp [init, ApplicationRegistry.new]
  root := by
    intro conn ρ
    simp [init, ApplicationRegistry.new, ApplicationRegistry.rootOf, ApplicationRegistry.applicationOf]

/-- Who is not live has no owner. -/
theorem Inv.owner_none (h : s.Inv) (hnew : conn ∉ s.live.map Prod.fst) :
    s.registry.owner.get conn = none := by
  rw [← ApplicationRegistry.owner_none_iff h.linked]
  cases hroot : s.registry.rootOf conn with
  | none => rfl
  | some ρ => exact absurd (List.mem_map.mpr ⟨_, (h.root conn ρ).mp hroot, rfl⟩) hnew

/-- Every live root has an application. -/
theorem Inv.exists_application (h : s.Inv) (hlive : (conn, ρ) ∈ s.live) :
    ∃ a ∈ s.registry.applications, a.root = ρ := by
  have hroot := (h.root conn ρ).mpr hlive
  unfold ApplicationRegistry.rootOf ApplicationRegistry.applicationOf at hroot
  obtain ⟨a, ha, rfl⟩ := Option.map_eq_some_iff.mp hroot
  obtain ⟨index, -, ha⟩ := Option.bind_eq_some_iff.mp ha
  exact ⟨a, List.mem_of_getElem? ha, rfl⟩

/-- Two places with the same root are one. -/
theorem Inv.index_inj (h : s.Inv) {i j : Nat} {a b : Application}
    (ha : s.registry.applications[i]? = some a) (hb : s.registry.applications[j]? = some b)
    (hroot : a.root = b.root) : i = j := by
  have hi := (List.getElem?_eq_some_iff.mp ha).1
  refine (List.getElem?_inj (by simpa using hi) h.roots).mp ?_
  rw [List.getElem?_map, List.getElem?_map, ha, hb, Option.map_some, Option.map_some, hroot]

/-! ## Registering -/

/-- The application that a new root gets. -/
theorem Inv.add (h : s.Inv) (hfind : s.registry.findApplication ρ = none) :
    Inv (⟨s.registry.add ρ, s.live⟩ : Registering) := by
  have hnone : ∀ a ∈ s.registry.applications, a.root ≠ ρ := by
    intro a ha
    simpa using List.findIdx?_eq_none_iff.mp hfind a ha
  refine ⟨ApplicationRegistry.linked_add h.linked ρ, h.live, ?_, ?_, ?_⟩
  · show (List.map Application.root (s.registry.applications ++ [⟨ρ, []⟩])).Nodup
    rw [List.map_append]
    refine h.roots.append (List.nodup_singleton _) ?_
    simpa using fun a ha hroot => hnone a ha hroot
  · intro a ha
    rcases List.mem_append.mp ha with ha | ha
    · exact h.order a ha
    · obtain rfl := List.mem_singleton.mp ha
      refine (List.eq_nil_iff_forall_not_mem.mpr fun c hc => ?_).symm
      obtain ⟨a, ha, hroot⟩ := h.exists_application (Live.mem_under.mp hc)
      exact hnone a ha hroot
  · intro c ρ'
    rw [ApplicationRegistry.rootOf_add h.linked]
    exact h.root c ρ'

/-- The places of an application that a connection has entered. -/
theorem getElem?_enter {r : ApplicationRegistry} {index i : Nat} {b : Application}
    (hb : (r.enter conn index).applications[i]? = some b) :
    ∃ a, r.applications[i]? = some a ∧ b.root = a.root ∧
      b.connections = a.connections ++ if i = index then [conn] else [] := by
  unfold ApplicationRegistry.enter at hb
  rw [List.getElem?_modify] at hb
  obtain ⟨a, ha, rfl⟩ := Option.map_eq_some_iff.mp hb
  refine ⟨a, ha, ?_⟩
  by_cases hi : index = i
  · simp [hi]
  · simp [hi, Ne.symm hi]

theorem map_root_enter (r : ApplicationRegistry) (conn : ConnectionId) (index : Nat) :
    (r.enter conn index).applications.map Application.root = r.applications.map Application.root := by
  unfold ApplicationRegistry.enter
  refine List.ext_getElem? fun i => ?_
  simp only [List.getElem?_map, List.getElem?_modify]
  by_cases hi : index = i <;> cases r.applications[i]? <;> simp [hi]

/-- The connection enters the application of its root. -/
theorem Inv.enter (h : s.Inv) (hnew : conn ∉ s.live.map Prod.fst) {index : Nat}
    (hroot : (s.registry.applications[index]?).map Application.root = some ρ) :
    Inv (⟨s.registry.enter conn index, s.live ++ [(conn, ρ)]⟩ : Registering) := by
  obtain ⟨a, ha, rfl⟩ := Option.map_eq_some_iff.mp hroot
  have hfree := h.owner_none hnew
  refine ⟨ApplicationRegistry.linked_enter h.linked hfree (List.getElem?_eq_some_iff.mp ha).1, ?_, ?_, ?_, ?_⟩
  · rw [List.map_append]
    exact h.live.append (List.nodup_singleton _) (by simpa using hnew)
  · rw [map_root_enter]
    exact h.roots
  · intro b hb
    obtain ⟨i, hb⟩ := List.mem_iff_getElem?.mp hb
    obtain ⟨c, hc, hbroot, hbconns⟩ := getElem?_enter hb
    rw [hbconns, hbroot, Live.under_append, ← h.order c (List.mem_of_getElem? hc)]
    by_cases hi : i = index
    · subst hi
      obtain rfl := Option.some.inj (ha.symm.trans hc)
      simp
    · have hne : a.root ≠ c.root := fun heq => hi (h.index_inj hc ha heq.symm)
      simp [hi, hne]
  · intro c ρ'
    rw [ApplicationRegistry.rootOf_enter hroot, List.mem_append, List.mem_singleton, Prod.mk.injEq]
    by_cases hc : c = conn
    · subst hc
      have hnot : (c, ρ') ∉ s.live := fun hlive => hnew (List.mem_map.mpr ⟨_, hlive, rfl⟩)
      simp [hnot, eq_comm]
    · simp [hc, h.root]

theorem Nonempty.enter {r : ApplicationRegistry} {live : Live} {index : Nat}
    (h : ∀ i a, i ≠ index → r.applications[i]? = some a → a.connections ≠ []) :
    Nonempty (⟨r.enter conn index, live⟩ : Registering) := by
  intro b hb
  obtain ⟨i, hb⟩ := List.mem_iff_getElem?.mp hb
  obtain ⟨a, ha, -, hconns⟩ := getElem?_enter hb
  rw [hconns]
  by_cases hi : i = index
  · simp [hi]
  · simpa [hi] using h i a hi ha

/-- **Registering.** -/
theorem Inv.register (h : s.Inv) (hne : s.Nonempty) (hnew : conn ∉ s.live.map Prod.fst)
    (root : Option ApplicationId) {t : Registering}
    (ht : t = ⟨(s.registry.register conn root).2, s.live ++ (root.map fun ρ => (conn, ρ)).toList⟩) :
    t.Inv ∧ t.Nonempty := by
  subst ht
  cases root with
  | none =>
    simp only [ApplicationRegistry.register, Option.map_none, Option.toList_none, List.append_nil]
    exact ⟨h, hne⟩
  | some ρ =>
    simp only [ApplicationRegistry.register, Option.map_some, Option.toList_some]
    cases hfind : s.registry.findApplication ρ with
    | some index =>
      obtain ⟨hindex, hroot, -⟩ := List.findIdx?_eq_some_iff_getElem.mp hfind
      refine ⟨h.enter hnew ?_, Nonempty.enter fun i a _ ha => hne a (List.mem_of_getElem? ha)⟩
      rw [List.getElem?_eq_getElem hindex]
      simpa using hroot
    | none =>
      refine ⟨(h.add hfind).enter (s := ⟨s.registry.add ρ, s.live⟩) hnew ?_, Nonempty.enter ?_⟩
      · simp [ApplicationRegistry.add]
      · intro i a hi ha
        rcases List.mem_append.mp (List.mem_of_getElem? ha) with hmem | hmem
        · exact hne a hmem
        · -- the new application stands at the place that is entered
          have hlen := (List.getElem?_eq_some_iff.mp ha).1
          rw [show (s.registry.add ρ).applications = s.registry.applications ++ [⟨ρ, []⟩] from rfl] at ha hlen
          rw [List.length_append, List.length_singleton] at hlen
          rw [List.getElem?_append_left (by omega)] at ha
          exact hne a (List.mem_of_getElem? ha)

/-! ## Unregistering -/

theorem Inv.without_of_owner_none (h : s.Inv) (howner : s.registry.owner.get conn = none) :
    s.live.without conn = s.live := by
  refine List.filter_eq_self.mpr fun e he => ?_
  have hne : e.1 ≠ conn := by
    intro heq
    have hroot := (h.root e.1 e.2).mpr he
    rw [heq, (ApplicationRegistry.owner_none_iff h.linked).mpr howner] at hroot
    cases hroot
  simpa using hne

/-- The applications a connection is not in keep their connections. -/
theorem Inv.order_other (h : s.Inv) {index i : Nat} {b : Application}
    (howner : s.registry.owner.get conn = some index) (hi : i ≠ index)
    (hb : s.registry.applications[i]? = some b) : b.connections = (s.live.without conn).under b.root := by
  rw [Live.under_without, ← h.order b (List.mem_of_getElem? hb)]
  refine (List.filter_eq_self.mpr fun c hc => ?_).symm
  have hne : c ≠ conn := by
    rintro rfl
    have hi' := (h.linked c i).mpr ⟨b, hb, hc⟩
    exact hi (Option.some.inj (hi'.symm.trans howner))
  simpa using hne

/-- What an unregistered connection leaves behind: each application with the connections that stay, and none
    without a connection. -/
theorem Inv.applications_unregister (h : s.Inv) (hne : s.Nonempty) {index : Nat}
    (howner : s.registry.owner.get conn = some index) :
    ((s.registry.unregister conn).2.applications.map Application.root).Nodup ∧
      ∀ b ∈ (s.registry.unregister conn).2.applications,
        b.connections = (s.live.without conn).under b.root ∧ b.connections ≠ [] := by
  obtain ⟨a, ha, hmem, heq⟩ := ApplicationRegistry.unregister_eq h.linked howner
  have hindex := (List.getElem?_eq_some_iff.mp ha).1
  rw [heq]
  by_cases hempty : (a.connections.filter fun c => c ≠ conn).isEmpty
  · rw [if_pos hempty]
    refine ⟨h.roots.sublist ((List.eraseIdx_sublist ..).map _), ?_⟩
    intro b hb
    obtain ⟨i, hi, hb⟩ := List.mem_eraseIdx_iff_getElem?.mp hb
    exact ⟨h.order_other howner hi hb, hne b (List.mem_of_getElem? hb)⟩
  · rw [if_neg hempty]
    constructor
    · have hroots : (s.registry.applications.set index
          { a with connections := a.connections.filter fun c => c ≠ conn }).map Application.root =
            s.registry.applications.map Application.root := by
        refine List.ext_getElem? fun i => ?_
        rw [List.getElem?_map, List.getElem?_map, List.getElem?_set]
        by_cases hi : index = i
        · rw [if_pos hi, if_pos hindex, ← hi, ha]
          rfl
        · rw [if_neg hi]
      rw [hroots]
      exact h.roots
    · intro b hb
      obtain ⟨i, hb⟩ := List.mem_iff_getElem?.mp hb
      rw [List.getElem?_set] at hb
      by_cases hi : index = i
      · rw [if_pos hi, if_pos hindex] at hb
        obtain rfl := Option.some.inj hb
        constructor
        · rw [Live.under_without, ← h.order a (List.mem_of_getElem? ha)]
        · simpa using hempty
      · rw [if_neg hi] at hb
        exact ⟨h.order_other howner (Ne.symm hi) hb, hne b (List.mem_of_getElem? hb)⟩

/-- **Unregistering.** -/
theorem Inv.unregister (h : s.Inv) (hne : s.Nonempty) (conn : ConnectionId) {t : Registering}
    (ht : t = ⟨(s.registry.unregister conn).2, s.live.without conn⟩) : t.Inv ∧ t.Nonempty := by
  subst ht
  cases howner : s.registry.owner.get conn with
  | none =>
    rw [ApplicationRegistry.unregister_none howner, h.without_of_owner_none howner]
    exact ⟨h, hne⟩
  | some index =>
    obtain ⟨hroots, hleft⟩ := h.applications_unregister hne howner
    refine ⟨⟨ApplicationRegistry.linked_unregister h.linked conn, Live.nodup_without h.live, hroots,
      fun b hb => (hleft b hb).1, ?_⟩, fun b hb => (hleft b hb).2⟩
    intro c ρ
    rw [ApplicationRegistry.rootOf_unregister h.linked]
    by_cases hc : c = conn
    · simp [Live.without, hc]
    · simp [Live.without, hc, h.root]

/-! ## Every run -/

theorem step_inv {s t : Registering} {call : RegistryCall} (h : s.Inv ∧ s.Nonempty)
    (hstep : s.step call = some t) : t.Inv ∧ t.Nonempty := by
  cases call with
  | register conn peerPid lookup =>
    by_cases hnew : conn ∈ s.live.map Prod.fst
    · rw [step, if_pos hnew] at hstep
      cases hstep
    · rw [step, if_neg hnew] at hstep
      exact h.1.register h.2 hnew (lookup peerPid) (Option.some.inj hstep).symm
  | unregister conn => exact h.1.unregister h.2 conn (Option.some.inj hstep).symm

/-- **The registry says what is registered**, after every run of registrations and removals. -/
theorem registry_represents {calls : List RegistryCall} {s : Registering}
    (hrun : run step init calls = some s) : s.registry.Represents s.live := by
  have hinv : s.Inv ∧ s.Nonempty := by
    refine run_inv_all (I := fun s => s.Inv ∧ s.Nonempty) (fun s call t h hstep => step_inv h hstep) ?_ hrun
    exact ⟨inv_init, by simp [Nonempty, init, ApplicationRegistry.new]⟩
  exact hinv.1.represents hinv.2

/-- Two applications, of the processes 50 and 70; the first loses its only connection. -/
theorem registry_represents_moved :
    ApplicationRegistry.Represents
      ⟨[⟨⟨70⟩, [⟨2⟩, ⟨3⟩]⟩], (Table.empty.put ⟨2⟩ 0).put ⟨3⟩ 0⟩ [(⟨2⟩, ⟨70⟩), (⟨3⟩, ⟨70⟩)] := by
  have hrun : run step init
      [.register ⟨1⟩ 10 fun _ => some ⟨50⟩,
        .register ⟨2⟩ 11 fun pid => if pid = 11 then some ⟨70⟩ else none,
        .unregister ⟨1⟩, .register ⟨4⟩ 12 fun _ => none, .register ⟨3⟩ 13 fun _ => some ⟨70⟩] =
      some ⟨⟨[⟨⟨70⟩, [⟨2⟩, ⟨3⟩]⟩], (Table.empty.put ⟨2⟩ 0).put ⟨3⟩ 0⟩, [(⟨2⟩, ⟨70⟩), (⟨3⟩, ⟨70⟩)]⟩ := rfl
  exact registry_represents hrun

end Registering

end RemoteX11.Audio
