/-
  The registry of X11 connections and their applications (`session/application.rs`).

  The process tree is read outside: `root` is the application root of the peer process, or `none` where
  the peer is unknown or has no readable tree. An application that loses its last connection leaves the
  list, and every later one moves down by one place, so the owner map follows. `rootOf_register` and
  `rootOf_unregister` say what that comes to: a connection keeps the root it was registered with until it
  is unregistered itself.
-/
import RemoteX11.Audio.Hub

namespace RemoteX11.Audio

open RemoteX11.Lib RemoteX11.Protocol

structure Application where
  root : ApplicationId
  connections : List ConnectionId
  deriving DecidableEq, Repr

structure ApplicationRegistry where
  applications : List Application
  /-- the place of each connection's application -/
  owner : Table ConnectionId Nat
  deriving DecidableEq, Repr

namespace ApplicationRegistry

/-- `new`. -/
def new : ApplicationRegistry := ⟨[], .empty⟩

/-- `find_application`. -/
def findApplication (r : ApplicationRegistry) (root : ApplicationId) : Option Nat :=
  r.applications.findIdx? fun a => a.root == root

/-- The connection goes into the application at `index`. -/
def enter (r : ApplicationRegistry) (conn : ConnectionId) (index : Nat) : ApplicationRegistry where
  applications := r.applications.modify index fun a => { a with connections := a.connections ++ [conn] }
  owner := r.owner.put conn index

/-- A new application, at the end of the list. -/
def add (r : ApplicationRegistry) (root : ApplicationId) : ApplicationRegistry :=
  { r with applications := r.applications ++ [⟨root, []⟩] }

/-- `register`. -/
def register (r : ApplicationRegistry) (conn : ConnectionId) (root : Option ApplicationId) :
    Option Nat × ApplicationRegistry :=
  match root with
  | none => (none, r)
  | some root =>
    match r.findApplication root with
    | some index => (some index, r.enter conn index)
    | none => (some r.applications.length, (r.add root).enter conn r.applications.length)

/-- `application_of`. -/
def applicationOf (r : ApplicationRegistry) (conn : ConnectionId) : Option Application :=
  (r.owner.get conn).bind fun index => r.applications[index]?

/-- The root of the application, as `application_of_connection` returns it. -/
def rootOf (r : ApplicationRegistry) (conn : ConnectionId) : Option ApplicationId :=
  (r.applicationOf conn).map Application.root

/-- The place of another application after the one at `index` has left the list. -/
def moved (index owned : Nat) : Nat := if index < owned then owned - 1 else owned

/-- `unregister`. -/
def unregister (r : ApplicationRegistry) (conn : ConnectionId) : Option Nat × ApplicationRegistry :=
  match r.owner.get conn with
  | none => (none, r)
  | some index =>
    let owner := r.owner.remove conn
    match r.applications[index]? with
    | none => (none, { r with owner := owner })
    | some application =>
      let connections := application.connections.filter fun c => c ≠ conn
      if connections.isEmpty then
        (some index,
          { applications := r.applications.eraseIdx index
            owner := owner.mapValues fun _ => moved index })
      else
        (some index,
          { applications := r.applications.set index { application with connections := connections }
            owner := owner })

/-- A connection is owned by the application that lists it, and by no other. -/
def Linked (r : ApplicationRegistry) : Prop :=
  ∀ conn index, r.owner.get conn = some index ↔
    ∃ a, r.applications[index]? = some a ∧ conn ∈ a.connections

variable {r : ApplicationRegistry} {conn : ConnectionId}

theorem linked_new : new.Linked := by
  intro conn index
  simp [new]

theorem rootOf_eq {c : ConnectionId} {index : Nat} (h : r.owner.get c = some index) :
    r.rootOf c = (r.applications[index]?).map Application.root := by
  unfold rootOf applicationOf
  rw [h]
  rfl

theorem rootOf_of_owner_none {c : ConnectionId} (h : r.owner.get c = none) : r.rootOf c = none := by
  unfold rootOf applicationOf
  rw [h]
  rfl

/-- Only a connection with an owner has a root. -/
theorem owner_none_iff (h : r.Linked) {c : ConnectionId} : r.rootOf c = none ↔ r.owner.get c = none := by
  refine ⟨fun hroot => ?_, rootOf_of_owner_none⟩
  cases howner : r.owner.get c with
  | none => rfl
  | some index =>
    obtain ⟨a, ha, -⟩ := (h c index).mp howner
    rw [rootOf_eq howner, ha] at hroot
    cases hroot

/-! ## Registering -/

theorem linked_enter (h : r.Linked) (hfree : r.owner.get conn = none) {index : Nat}
    (hindex : index < r.applications.length) : (r.enter conn index).Linked := by
  intro c i
  unfold enter
  rw [Table.get_put, List.getElem?_modify]
  by_cases hi : index = i
  · subst hi
    rw [List.getElem?_eq_getElem hindex]
    by_cases hc : c = conn
    · simp [hc]
    · rw [if_neg hc, h c index, List.getElem?_eq_getElem hindex]
      simp [hc]
  · by_cases hc : c = conn
    · subst hc
      have hnot : ¬ ∃ a, r.applications[i]? = some a ∧ c ∈ a.connections := by
        rw [← h c i, hfree]
        nofun
      simpa [hi] using hnot
    · simpa [hi, hc] using h c i

theorem rootOf_enter {index : Nat} {root : ApplicationId}
    (hroot : (r.applications[index]?).map Application.root = some root) (c : ConnectionId) :
    (r.enter conn index).rootOf c = if c = conn then some root else r.rootOf c := by
  have hkeep : ∀ i : Nat, ((r.enter conn index).applications[i]?).map Application.root =
      (r.applications[i]?).map Application.root := by
    intro i
    unfold enter
    rw [List.getElem?_modify]
    by_cases hi : index = i <;> cases r.applications[i]? <;> simp [hi]
  have howner : (r.enter conn index).owner.get c = if c = conn then some index else r.owner.get c :=
    Table.get_put _ _ _ _
  by_cases hc : c = conn
  · rw [if_pos hc] at howner ⊢
    rw [rootOf_eq howner, hkeep, hroot]
  · rw [if_neg hc] at howner ⊢
    cases hget : r.owner.get c with
    | none => rw [rootOf_of_owner_none hget, rootOf_of_owner_none (howner.trans hget)]
    | some i => rw [rootOf_eq hget, rootOf_eq (howner.trans hget), hkeep]

theorem linked_add (h : r.Linked) (root : ApplicationId) : (r.add root).Linked := by
  intro c i
  have howner : (r.add root).owner.get c = some i ↔ _ := h c i
  rw [howner]
  unfold add
  by_cases hi : i < r.applications.length
  · rw [List.getElem?_append_left hi]
  · rw [List.getElem?_append_right (by omega), List.getElem?_eq_none (l := r.applications) (by omega)]
    cases hlast : ([⟨root, []⟩] : List Application)[i - r.applications.length]? with
    | none => rfl
    | some a =>
      obtain rfl : a = ⟨root, []⟩ := by simpa using List.mem_of_getElem? hlast
      simp

theorem rootOf_add (h : r.Linked) (root : ApplicationId) (c : ConnectionId) :
    (r.add root).rootOf c = r.rootOf c := by
  cases hget : r.owner.get c with
  | none => rw [rootOf_of_owner_none hget, rootOf_of_owner_none (r := r.add root) hget]
  | some i =>
    obtain ⟨a, ha, -⟩ := (h c i).mp hget
    have hi := (List.getElem?_eq_some_iff.mp ha).1
    rw [rootOf_eq hget, rootOf_eq (r := r.add root) hget]
    unfold add
    rw [List.getElem?_append_left hi]

theorem linked_register (h : r.Linked) (hfree : r.owner.get conn = none) (root : Option ApplicationId) :
    (r.register conn root).2.Linked := by
  cases root with
  | none => exact h
  | some root =>
    cases hfind : r.findApplication root with
    | some index =>
      obtain ⟨hindex, -⟩ := List.findIdx?_eq_some_iff_getElem.mp hfind
      simp only [register, hfind]
      exact linked_enter h hfree hindex
    | none =>
      simp only [register, hfind]
      exact linked_enter (linked_add h root) hfree (by simp [add])

/-- **Registering** adds the root of the new connection and changes no other. -/
theorem rootOf_register (h : r.Linked) (hfree : r.owner.get conn = none) (root : Option ApplicationId)
    (c : ConnectionId) : (r.register conn root).2.rootOf c = if c = conn then root else r.rootOf c := by
  cases root with
  | none =>
    by_cases hc : c = conn
    · rw [if_pos hc, hc]
      exact rootOf_of_owner_none hfree
    · rw [if_neg hc]
      rfl
  | some root =>
    cases hfind : r.findApplication root with
    | some index =>
      obtain ⟨hindex, hroot, -⟩ := List.findIdx?_eq_some_iff_getElem.mp hfind
      simp only [register, hfind]
      apply rootOf_enter
      rw [List.getElem?_eq_getElem hindex]
      simpa using hroot
    | none =>
      simp only [register, hfind]
      rw [← rootOf_add h root c]
      apply rootOf_enter
      simp [add]

/-! ## Unregistering -/

/-- What `unregister` does to a registry that is linked. -/
theorem unregister_eq (h : r.Linked) {index : Nat} (howner : r.owner.get conn = some index) :
    ∃ a, r.applications[index]? = some a ∧ conn ∈ a.connections ∧
      (r.unregister conn).2 =
        if (a.connections.filter fun c => c ≠ conn).isEmpty then
          { applications := r.applications.eraseIdx index
            owner := (r.owner.remove conn).mapValues fun _ => moved index }
        else
          { applications := r.applications.set index
              { a with connections := a.connections.filter fun c => c ≠ conn }
            owner := r.owner.remove conn } := by
  obtain ⟨a, ha, hmem⟩ := (h conn index).mp howner
  refine ⟨a, ha, hmem, ?_⟩
  unfold unregister
  simp only [howner, ha]
  split <;> rfl

/-- The application stays, without the connection. -/
theorem linked_keep (h : r.Linked) {index : Nat} {a : Application} (ha : r.applications[index]? = some a)
    (hmem : conn ∈ a.connections) :
    ApplicationRegistry.Linked
      { applications := r.applications.set index
          { a with connections := a.connections.filter fun c => c ≠ conn }
        owner := r.owner.remove conn } := by
  intro c i
  have hindex := (List.getElem?_eq_some_iff.mp ha).1
  simp only [Table.get_remove, List.getElem?_set]
  by_cases hi : index = i
  · subst hi
    rw [if_pos rfl, if_pos hindex]
    by_cases hc : c = conn
    · simp [hc]
    · rw [if_neg hc, h c index, ha]
      simp [hc]
  · rw [if_neg hi]
    by_cases hc : c = conn
    · subst hc
      have howner := (h c index).mpr ⟨a, ha, hmem⟩
      have hnot : ¬ ∃ b, r.applications[i]? = some b ∧ c ∈ b.connections := by
        rw [← h c i, howner]
        exact fun heq => hi (Option.some.inj heq)
      simpa using hnot
    · rw [if_neg hc, h c i]

theorem getElem?_moved {l : List Application} {index i : Nat} (hi : i ≠ index) :
    (l.eraseIdx index)[moved index i]? = l[i]? := by
  unfold moved
  rw [List.getElem?_eraseIdx]
  by_cases hlt : index < i
  · rw [if_pos hlt, if_neg (by omega), show i - 1 + 1 = i by omega]
  · rw [if_neg hlt, if_pos (by omega)]

theorem moved_inj {index i j : Nat} (hi : i ≠ index) (hj : j ≠ index)
    (h : moved index i = moved index j) : i = j := by
  unfold moved at h
  split at h <;> split at h <;> omega

/-- Every place that is left is the new place of another. -/
theorem exists_moved (index j : Nat) : ∃ i, i ≠ index ∧ moved index i = j := by
  by_cases hj : j < index
  · exact ⟨j, by omega, if_neg (by omega)⟩
  · exact ⟨j + 1, by omega, if_pos (by omega)⟩

/-- Where only one connection is left in an application, no other is owned by it. -/
theorem owner_ne_of_last (h : r.Linked) {index k : Nat} {a : Application}
    (ha : r.applications[index]? = some a) (hlast : ∀ c ∈ a.connections, c = conn) {c : ConnectionId}
    (hc : c ≠ conn) (hget : r.owner.get c = some k) : k ≠ index := by
  rintro rfl
  obtain ⟨b, hb, hcb⟩ := (h c k).mp hget
  obtain rfl := Option.some.inj (ha.symm.trans hb)
  exact hc (hlast c hcb)

/-- The application leaves, and the places behind it move down by one. -/
theorem linked_leave (h : r.Linked) {index : Nat} {a : Application} (ha : r.applications[index]? = some a)
    (hlast : ∀ c ∈ a.connections, c = conn) (hmem : conn ∈ a.connections) :
    ApplicationRegistry.Linked
      { applications := r.applications.eraseIdx index
        owner := (r.owner.remove conn).mapValues fun _ => moved index } := by
  intro c j
  obtain ⟨i, hi, rfl⟩ := exists_moved index j
  simp only [Table.get_mapValues, Table.get_remove, getElem?_moved hi]
  rw [← h c i]
  by_cases hc : c = conn
  · subst hc
    rw [if_pos rfl, (h c index).mpr ⟨a, ha, hmem⟩]
    simpa using fun heq => hi heq.symm
  · rw [if_neg hc]
    cases hget : r.owner.get c with
    | none => simp
    | some k =>
      have hk := owner_ne_of_last h ha hlast hc hget
      simp only [Option.map_some, Option.some.injEq]
      exact ⟨moved_inj hk hi, congrArg _⟩

theorem unregister_none (howner : r.owner.get conn = none) : r.unregister conn = (none, r) := by
  unfold unregister
  rw [howner]

theorem linked_unregister (h : r.Linked) (conn : ConnectionId) : (r.unregister conn).2.Linked := by
  cases howner : r.owner.get conn with
  | none => rwa [unregister_none howner]
  | some index =>
    obtain ⟨a, ha, hmem, heq⟩ := unregister_eq h howner
    rw [heq]
    split
    · rename_i hempty
      exact linked_leave h ha (by simpa using hempty) hmem
    · exact linked_keep h ha hmem

/-- **Unregistering** takes the root of the connection away and changes no other. -/
theorem rootOf_unregister (h : r.Linked) (conn c : ConnectionId) :
    (r.unregister conn).2.rootOf c = if c = conn then none else r.rootOf c := by
  cases howner : r.owner.get conn with
  | none =>
    rw [unregister_none howner]
    by_cases hc : c = conn
    · rw [if_pos hc, hc, rootOf_of_owner_none howner]
    · rw [if_neg hc]
  | some index =>
    obtain ⟨a, ha, hmem, heq⟩ := unregister_eq h howner
    have hindex := (List.getElem?_eq_some_iff.mp ha).1
    rw [heq]
    split
    · rename_i hempty
      have hlast : ∀ c ∈ a.connections, c = conn := by simpa using hempty
      unfold rootOf applicationOf
      simp only [Table.get_mapValues, Table.get_remove]
      by_cases hc : c = conn
      · rw [if_pos hc, if_pos hc]
        rfl
      · rw [if_neg hc, if_neg hc]
        cases hget : r.owner.get c with
        | none => rfl
        | some k => exact congrArg _ (getElem?_moved (owner_ne_of_last h ha hlast hc hget))
    · unfold rootOf applicationOf
      simp only [Table.get_remove]
      by_cases hc : c = conn
      · rw [if_pos hc, if_pos hc]
        rfl
      · rw [if_neg hc, if_neg hc]
        cases hget : r.owner.get c with
        | none => rfl
        | some k =>
          simp only [Option.bind_some, List.getElem?_set]
          by_cases hk : index = k
          · rw [if_pos hk, if_pos hindex, ← hk, ha]
            rfl
          · rw [if_neg hk]

end ApplicationRegistry

end RemoteX11.Audio
