/-
  The process behind a connection and the application it belongs to (`audio/ownership.rs`).

  `ProcFs` is what `/proc` answers at one moment: a process may be gone, and each of its files may be
  unreadable. `ProcessTree.of` walks up the parents, and `applicationRoot` picks the process just below the
  nearest session leader, or the leader where both run the same program. `rootAlong` says the same by
  recursion along the chain; `applicationRoot_eq` is the connection, and shows that `child_below`, which
  walks up a second time, always arrives. `same_application_iff` then says which descendants of a process
  sound as its application, and `groups_exact` what grouping makes of a list of processes.
-/
import RemoteX11.Audio.Registry
import RemoteX11.Lib.Ancestry
import Mathlib.Data.Finset.Basic
import Mathlib.Data.List.Chain
import Mathlib.Data.Finset.Dedup

namespace RemoteX11.Audio

open RemoteX11.Lib RemoteX11.Protocol

abbrev Pid := Int

/-- `Process`: what the files of a process say. `ε` stands for the path of an executable. -/
structure Process (ε : Type) where
  /-- of `status` -/
  ppid : Option Pid
  /-- of `stat`, whose `pid` is the process it was read for -/
  session : Option Pid
  exe : Option ε
  deriving DecidableEq, Repr

/-- `Process::new`, at one moment. -/
abbrev ProcFs (ε : Type) := Pid → Option (Process ε)

section Definitions

variable {ε : Type} [DecidableEq ε] (proc : ProcFs ε)

/-- The bound of the loop in `ProcessTree::of`. -/
def maxDepth : Nat := 64

/-- The loop of `ProcessTree::of`: the turns that are left, the current process and the chain so far. -/
def ancestors : Nat → Pid → List Pid → List Pid
  | 0, _, chain => chain
  | turns + 1, current, chain =>
    if current ≤ 0 ∨ current ∈ chain then chain
    else
      match (proc current).bind Process.ppid with
      | none => chain ++ [current]
      | some ppid => if 0 < ppid then ancestors turns ppid (chain ++ [current]) else chain ++ [current]

structure ProcessTree where
  /-- the process, then its ancestors, nearest first -/
  chain : List Pid
  pids : Finset Pid
  deriving DecidableEq

namespace ProcessTree

/-- `of`. -/
def of (pid : Pid) : Option ProcessTree :=
  let chain := ancestors proc maxDepth pid []
  if chain = [] then none else some ⟨chain, chain.toFinset⟩

/-- The process leads its own session. -/
def leads (pid : Pid) : Prop := (proc pid).bind Process.session = some pid

instance (pid : Pid) : Decidable (leads proc pid) := by
  unfold leads
  infer_instance

/-- `session_leader`: the nearest one. -/
def sessionLeader (t : ProcessTree) : Option Pid := t.chain.find? fun pid => leads proc pid

/-- The loop of `child_below`; the number bounds its turns. -/
def childBelowFrom (pids : Finset Pid) (leader : Pid) : Nat → Pid → Option Pid
  | 0, _ => none
  | turns + 1, current =>
    match proc current with
    | none => none
    | some process =>
      match process.ppid with
      | none => none
      | some ppid =>
        if ppid = leader then some current
        else if ppid ≤ 0 ∨ ppid ∉ pids then none
        else childBelowFrom pids leader turns ppid

/-- `child_below`. -/
def childBelow (t : ProcessTree) (leader : Pid) : Option Pid :=
  t.chain.head?.bind fun nearest => childBelowFrom proc t.pids leader t.chain.length nearest

/-- `same_program`. -/
def sameProgram (a b : Pid) : Bool :=
  match (proc a).bind Process.exe, (proc b).bind Process.exe with
  | some a, some b => a = b
  | _, _ => false

/-- `application_root`. -/
def applicationRoot (t : ProcessTree) : Option ApplicationId :=
  match t.chain.head? with
  | none => none
  | some nearest =>
    match t.sessionLeader proc with
    | none => none
    | some leader =>
      if leader = nearest then some ⟨leader⟩
      else
        match t.childBelow proc leader with
        | none => some ⟨leader⟩
        | some below => if sameProgram proc leader below then some ⟨leader⟩ else some ⟨below⟩

/-- `same_application`. -/
def sameApplication (t other : ProcessTree) : Bool :=
  match t.applicationRoot proc, other.applicationRoot proc with
  | some a, some b => a = b
  | _, _ => false

end ProcessTree

/-- The root of a process, as it is looked up for a connection and for a sound. -/
def processRoot (pid : Pid) : Option ApplicationId :=
  (ProcessTree.of proc pid).bind (ProcessTree.applicationRoot proc)

/-- One turn of `group_by_application`. -/
def groupTurn (groups : List (ApplicationId × ProcessTree)) (pid : Pid) : List (ApplicationId × ProcessTree) :=
  match ProcessTree.of proc pid with
  | none => groups
  | some tree =>
    match tree.applicationRoot proc with
    | none => groups
    | some root =>
      match groups.findIdx? fun g => g.1 = root with
      | some i => groups.modify i fun g => (g.1, { g.2 with pids := g.2.pids ∪ tree.pids })
      | none => groups ++ [(root, tree)]

/-- `group_by_application`. -/
def groupByApplication (pids : List Pid) : List ProcessTree :=
  (pids.foldl (groupTurn proc) []).map Prod.snd

end Definitions

namespace ProcessTree

variable {ε : Type} {proc : ProcFs ε}

/-! ## The chain -/

/-- The parent that the walk goes on to. -/
def parentOf (proc : ProcFs ε) (pid : Pid) : Option Pid :=
  ((proc pid).bind Process.ppid).filter fun ppid => 0 < ppid

theorem parentOf_eq_some {pid ppid : Pid} :
    parentOf proc pid = some ppid ↔ (proc pid).bind Process.ppid = some ppid ∧ 0 < ppid := by
  simp [parentOf, Option.filter_eq_some_iff]

theorem ancestors_eq_climb {pid : Pid} (hpos : 0 < pid) (n : Nat) (chain : List Pid) :
    ancestors proc n pid chain = climb (parentOf proc) n pid chain := by
  induction n generalizing pid chain with
  | zero => rfl
  | succ n ih =>
    rw [ancestors, climb]
    by_cases hmem : pid ∈ chain
    · simp [hmem]
    · rw [if_neg (by simp [hmem]; omega), if_neg hmem]
      cases hppid : (proc pid).bind Process.ppid with
      | none => simp [parentOf, hppid]
      | some ppid =>
        by_cases h : 0 < ppid
        · simp [parentOf, hppid, Option.filter, h, ih h]
        · simp [parentOf, hppid, Option.filter, h]

/-- Above a process there are processes only. -/
theorem pos_of_isChain {l : List Pid} (hl : l.IsChain fun x y => parentOf proc x = some y)
    (hhead : ∀ x ∈ l.head?, 0 < x) : ∀ x ∈ l, 0 < x := by
  induction l with
  | nil => exact fun x hx => absurd hx List.not_mem_nil
  | cons p l ih =>
    obtain ⟨hnext, hl⟩ := List.isChain_cons.mp hl
    intro x hx
    rcases List.mem_cons.mp hx with rfl | hx
    · exact hhead x rfl
    · exact ih hl (fun y hy => (parentOf_eq_some.mp (hnext y hy)).2) x hx

theorem pos_of_mem {pid x : Pid} {l : List Pid} (h : Ancestry (parentOf proc) pid l) (hpos : 0 < pid)
    (hx : x ∈ l) : 0 < x := by
  refine pos_of_isChain h.isChain (fun y hy => ?_) x hx
  rw [h.head] at hy
  exact Option.some.inj hy ▸ hpos

theorem of_nonpos {pid : Pid} (h : pid ≤ 0) : of proc pid = none := by
  have hchain : ancestors proc maxDepth pid [] = [] := by
    rw [maxDepth, ancestors, if_pos (Or.inl h)]
  rw [of, hchain, if_pos rfl]

/-- The tree of a process is the walk up from it. -/
theorem of_eq_some {pid : Pid} {t : ProcessTree} : of proc pid = some t ↔
    0 < pid ∧ t.chain = climb (parentOf proc) maxDepth pid [] ∧ t.pids = t.chain.toFinset := by
  by_cases hpos : 0 < pid
  · have hne : climb (parentOf proc) maxDepth pid [] ≠ [] := by
      intro hnil
      have hhead : (climb (parentOf proc) maxDepth pid []).head? = some pid := head_climb 63 pid
      rw [hnil] at hhead
      contradiction
    rw [of, ancestors_eq_climb hpos, if_neg hne, Option.some.injEq]
    constructor
    · rintro rfl
      exact ⟨hpos, rfl, rfl⟩
    · rintro ⟨-, hchain, hpids⟩
      obtain ⟨chain, pids⟩ := t
      simp_all
  · rw [of_nonpos (Int.not_lt.mp hpos)]
    simp [hpos]

theorem of_pos {pid : Pid} (hpos : 0 < pid) : of proc pid = some
    ⟨climb (parentOf proc) maxDepth pid [], (climb (parentOf proc) maxDepth pid []).toFinset⟩ :=
  of_eq_some.mpr ⟨hpos, rfl, rfl⟩

/-- A tree is a chain of parents. -/
theorem isChain_of {pid : Pid} {t : ProcessTree} (h : of proc pid = some t) :
    t.chain.IsChain fun x y => parentOf proc x = some y := by
  rw [(of_eq_some.mp h).2.1]
  exact isChain_climb .nil nofun maxDepth

theorem pos_of_chain {pid x : Pid} {t : ProcessTree} (h : of proc pid = some t) (hx : x ∈ t.chain) : 0 < x := by
  obtain ⟨hpos, hchain, -⟩ := of_eq_some.mp h
  refine pos_of_isChain (isChain_of h) (fun y hy => ?_) x hx
  rw [hchain, maxDepth, head_climb] at hy
  exact Option.some.inj hy ▸ hpos

/-- Where the parents end, the tree of a process is its ancestry, as far as the bound goes. -/
theorem of_eq {pid : Pid} {l : List Pid} (h : Ancestry (parentOf proc) pid l) (hpos : 0 < pid) :
    of proc pid = some ⟨l.take maxDepth, (l.take maxDepth).toFinset⟩ :=
  of_eq_some.mpr ⟨hpos, (climb_eq_take h maxDepth).symm, rfl⟩

/-! ## The second walk -/

theorem childBelowFrom_here {pids : Finset Pid} {leader x : Pid} (h : parentOf proc x = some leader)
    (turns : Nat) : childBelowFrom proc pids leader (turns + 1) x = some x := by
  obtain ⟨process, hproc, hppid⟩ := Option.bind_eq_some_iff.mp (parentOf_eq_some.mp h).1
  simp [childBelowFrom, hproc, hppid]

theorem childBelowFrom_up {pids : Finset Pid} {leader x y : Pid} (h : parentOf proc x = some y)
    (hleader : y ≠ leader) (hmem : y ∈ pids) (turns : Nat) :
    childBelowFrom proc pids leader (turns + 1) x = childBelowFrom proc pids leader turns y := by
  obtain ⟨hppid, hpos⟩ := parentOf_eq_some.mp h
  obtain ⟨process, hproc, hppid⟩ := Option.bind_eq_some_iff.mp hppid
  have hstays : ¬ (y ≤ 0 ∨ y ∉ pids) := by
    simpa [hmem] using hpos
  simp [childBelowFrom, hproc, hppid, hleader, if_neg hstays]

/-- A walk along a chain arrives at the member below the leader. -/
theorem childBelowFrom_eq {pids : Finset Pid} {leader below first : Pid} {pre rest : List Pid} {turns : Nat}
    (hchain : (pre ++ below :: leader :: rest).IsChain fun x y => parentOf proc x = some y)
    (hpids : ∀ x ∈ pre ++ [below], x ∈ pids) (hleader : leader ∉ pre ++ [below])
    (hfirst : (pre ++ [below]).head? = some first) (hturns : pre.length < turns) :
    childBelowFrom proc pids leader turns first = some below := by
  induction pre generalizing first turns with
  | nil =>
    obtain ⟨turns, rfl⟩ := Nat.exists_eq_succ_of_ne_zero (by omega : turns ≠ 0)
    obtain rfl : below = first := by simpa using hfirst
    exact childBelowFrom_here (List.isChain_cons_cons.mp hchain).1 turns
  | cons p pre ih =>
    obtain ⟨turns, rfl⟩ := Nat.exists_eq_succ_of_ne_zero (by omega : turns ≠ 0)
    obtain rfl : p = first := by simpa using hfirst
    obtain ⟨next, hnext⟩ : ∃ next, (pre ++ [below]).head? = some next := by
      cases pre <;> simp
    have hmem : next ∈ pre ++ [below] := List.mem_of_mem_head? hnext
    have hmem' : next ∈ p :: pre ++ [below] := List.mem_cons_of_mem _ hmem
    rw [List.cons_append, List.isChain_cons] at hchain
    have hparent : parentOf proc p = some next := by
      refine hchain.1 next ?_
      cases pre <;> simpa using hnext
    have hne : next ≠ leader := by
      intro heq
      exact hleader (heq ▸ hmem')
    rw [childBelowFrom_up hparent hne (hpids _ hmem')]
    refine ih hchain.2 (fun x hx => hpids x (List.mem_cons_of_mem _ hx)) ?_ hnext ?_
    · exact fun hx => hleader (List.mem_cons_of_mem _ hx)
    · rw [List.length_cons] at hturns
      omega

/-! ## The application root -/

variable [DecidableEq ε]

/-- The root of an application along a chain, nearest first: the process below the first leader, or the
    leader where that one runs the same program or stands first. -/
def rootAlong (proc : ProcFs ε) : List Pid → Option Pid
  | [] => none
  | [p] => if leads proc p then some p else none
  | p :: q :: l =>
    if leads proc p then some p
    else if leads proc q then some (if sameProgram proc q p then q else p)
    else rootAlong proc (q :: l)

theorem rootAlong_leader {p : Pid} (h : leads proc p) (l : List Pid) :
    rootAlong proc (p :: l) = some p := by
  cases l <;> simp [rootAlong, h]

/-- Below the first leader. -/
theorem rootAlong_below {pre : List Pid} {below leader : Pid} (hpre : ∀ x ∈ pre, ¬ leads proc x)
    (hbelow : ¬ leads proc below) (hleader : leads proc leader) (l : List Pid) :
    rootAlong proc (pre ++ below :: leader :: l) =
      some (if sameProgram proc leader below then leader else below) := by
  induction pre with
  | nil => simp [rootAlong, hbelow, hleader]
  | cons p pre ih =>
    have hp := hpre p (by simp)
    have hrest := ih fun x hx => hpre x (List.mem_cons_of_mem _ hx)
    cases pre with
    | nil =>
      rw [List.nil_append] at hrest
      simp [rootAlong, hp, hbelow, hleader]
    | cons q pre =>
      have hq := hpre q (by simp)
      rw [List.cons_append, List.cons_append, rootAlong, if_neg hp, if_neg hq]
      exact hrest

/-- No root without a leader. -/
theorem rootAlong_none {l : List Pid} (h : ∀ x ∈ l, ¬ leads proc x) : rootAlong proc l = none := by
  induction l with
  | nil => rfl
  | cons p l ih =>
    have hp := h p (by simp)
    have hrest := ih fun x hx => h x (List.mem_cons_of_mem _ hx)
    cases l with
    | nil => simp [rootAlong, hp]
    | cons q l => rw [rootAlong, if_neg hp, if_neg (h q (by simp)), hrest]

/-- **The application root** is the root along the chain. -/
theorem applicationRoot_eq {chain : List Pid} {pids : Finset Pid}
    (hchain : chain.IsChain fun x y => parentOf proc x = some y) (hpids : ∀ x ∈ chain, x ∈ pids) :
    applicationRoot proc ⟨chain, pids⟩ = (rootAlong proc chain).map ApplicationId.mk := by
  cases hfind : chain.find? fun pid => leads proc pid with
  | none =>
    have hnone : ∀ x ∈ chain, ¬ leads proc x := by simpa using hfind
    rw [rootAlong_none hnone]
    cases hhead : chain.head? with
    | none => simp [applicationRoot, hhead]
    | some nearest => simp [applicationRoot, hhead, sessionLeader, hfind]
  | some leader =>
    obtain ⟨hleads, pre, rest, rfl, hpre⟩ := List.find?_eq_some_iff_append.mp hfind
    have hpre : ∀ x ∈ pre, ¬ leads proc x := by simpa using hpre
    have hleads : leads proc leader := by simpa using hleads
    cases pre using List.reverseRecOn with
    | nil =>
      rw [List.nil_append] at hfind ⊢
      rw [rootAlong_leader hleads]
      simp [applicationRoot, sessionLeader, hfind]
    | append_singleton pre below =>
      obtain ⟨first, hfirst⟩ : ∃ first, (pre ++ [below]).head? = some first := by
        cases pre <;> simp
      have hmem : first ∈ pre ++ [below] := List.mem_of_mem_head? hfirst
      have hout : leader ∉ pre ++ [below] := fun hx => hpre leader hx hleads
      have hne : leader ≠ first := fun heq => hout (heq ▸ hmem)
      have hhead : (pre ++ [below] ++ leader :: rest).head? = some first := by
        rw [List.head?_append, hfirst]
        rfl
      have hbelow : childBelow proc ⟨pre ++ [below] ++ leader :: rest, pids⟩ leader = some below := by
        rw [childBelow, hhead, Option.bind_some]
        rw [List.append_assoc, List.singleton_append] at hchain
        refine childBelowFrom_eq hchain ?_ hout hfirst ?_
        · exact fun x hx => hpids x (List.mem_append_left _ hx)
        · simp only [List.length_append, List.length_cons, List.length_nil]
          omega
      rw [List.append_assoc, List.singleton_append,
        rootAlong_below (fun x hx => hpre x (List.mem_append_left _ hx)) (hpre below (by simp)) hleads]
      simp only [List.append_assoc, List.singleton_append] at hfind hhead hbelow
      simp only [applicationRoot, hhead, sessionLeader, hfind, if_neg hne, hbelow]
      by_cases hsame : sameProgram proc leader below <;> simp [hsame]

/-! ## Descendants -/

theorem rootAlong_append_none {a : List Pid} (h : ∀ x ∈ a, ¬ leads proc x) {p : Pid} (hp : ¬ leads proc p)
    (l : List Pid) : rootAlong proc (a ++ p :: l) = rootAlong proc (p :: l) := by
  induction a with
  | nil => rfl
  | cons q a ih =>
    have hq := h q (by simp)
    have hrest := ih fun x hx => h x (List.mem_cons_of_mem _ hx)
    cases a with
    | nil => rw [List.singleton_append, rootAlong, if_neg hq, if_neg hp]
    | cons q' a =>
      rw [List.cons_append, List.cons_append, rootAlong, if_neg hq, if_neg (h q' (by simp))]
      exact hrest

/-- Only the members up to the first leader count. -/
theorem rootAlong_append_some {a : List Pid} (h : ∃ x ∈ a, leads proc x) (b : List Pid) :
    rootAlong proc (a ++ b) = rootAlong proc a := by
  induction a with
  | nil => simp at h
  | cons p a ih =>
    by_cases hp : leads proc p
    · rw [List.cons_append, rootAlong_leader hp, rootAlong_leader hp]
    · have hrest : ∃ x ∈ a, leads proc x := by simpa [hp] using h
      cases a with
      | nil => simp at hrest
      | cons q a =>
        rw [List.cons_append, List.cons_append, rootAlong, rootAlong, if_neg hp, if_neg hp,
          ← List.cons_append, ih hrest]

theorem rootAlong_isSome {l : List Pid} (h : ∃ x ∈ l, leads proc x) : (rootAlong proc l).isSome := by
  induction l with
  | nil => simp at h
  | cons p l ih =>
    by_cases hp : leads proc p
    · simp [rootAlong_leader hp]
    · have hrest : ∃ x ∈ l, leads proc x := by simpa [hp] using h
      cases l with
      | nil => simp at hrest
      | cons q l =>
        rw [rootAlong, if_neg hp]
        by_cases hq : leads proc q
        · simp [hq]
        · simpa [hq] using ih hrest

/-- The root of a process is the root along its chain. -/
theorem processRoot_of {pid : Pid} {t : ProcessTree} (h : of proc pid = some t) :
    processRoot proc pid = (rootAlong proc t.chain).map ApplicationId.mk := by
  rw [processRoot, h, Option.bind_some]
  refine applicationRoot_eq (isChain_of h) fun x hx => ?_
  rw [(of_eq_some.mp h).2.2]
  exact List.mem_toFinset.mpr hx

/-- The root of a process is the root along its ancestry, as far as the bound goes. -/
theorem processRoot_eq {pid : Pid} {l : List Pid} (h : Ancestry (parentOf proc) pid l) (hpos : 0 < pid) :
    processRoot proc pid = (rootAlong proc (l.take maxDepth)).map ApplicationId.mk :=
  processRoot_of (of_eq h hpos)

/-- `same_application` for two processes. -/
theorem same_iff {q p : Pid} :
    (∃ t u, of proc q = some t ∧ of proc p = some u ∧ sameApplication proc t u) ↔
      ∃ root, processRoot proc q = some root ∧ processRoot proc p = some root := by
  constructor
  · intro ⟨t, u, ht, hu, hsame⟩
    unfold sameApplication at hsame
    cases hroot : applicationRoot proc t with
    | none => simp [hroot] at hsame
    | some root =>
      cases hroot' : applicationRoot proc u with
      | none => simp [hroot, hroot'] at hsame
      | some root' =>
        obtain rfl : root = root' := by simpa [hroot, hroot'] using hsame
        exact ⟨root, by simp [processRoot, ht, hroot], by simp [processRoot, hu, hroot']⟩
  · intro ⟨root, hq, hp⟩
    obtain ⟨t, ht, hroot⟩ := Option.bind_eq_some_iff.mp hq
    obtain ⟨u, hu, hroot'⟩ := Option.bind_eq_some_iff.mp hp
    exact ⟨t, u, ht, hu, by simp [sameApplication, hroot, hroot']⟩

/-- The root of a process whose first leader stands within a smaller bound. -/
theorem rootAlong_take {l : List Pid} {k n : Nat} (hk : k ≤ n) (h : ∃ x ∈ l.take k, leads proc x) :
    rootAlong proc (l.take n) = rootAlong proc (l.take k) := by
  have hsplit : l.take n = l.take k ++ (l.drop k).take (n - k) := by
    rw [← List.take_add]
    congr 1
    omega
  rw [hsplit, rootAlong_append_some h]

/-- **A descendant sounds as its application**, if no process on the way up to `p` leads a session, exactly
    when the session leader above is within reach of the walk and `p` is not itself one that runs another
    program than its child. -/
theorem same_application_iff {q p : Pid} {path l : List Pid}
    (h : Ancestry (parentOf proc) q (path ++ p :: l)) (hpos : 0 < q)
    (hpath : ∀ x ∈ path, ¬ leads proc x) :
    (∃ t u, of proc q = some t ∧ of proc p = some u ∧ sameApplication proc t u) ↔
      (∃ x ∈ (p :: l).take (maxDepth - path.length), leads proc x) ∧
        ∀ c ∈ path.getLast?, leads proc p → sameProgram proc p c := by
  have hp : 0 < p := pos_of_mem h hpos (by simp)
  have htake : (path ++ p :: l).take maxDepth =
      path.take maxDepth ++ (p :: l).take (maxDepth - path.length) := List.take_append
  rw [same_iff, processRoot_eq h hpos, processRoot_eq h.suffix hp, htake]
  by_cases hleader : ∃ x ∈ (p :: l).take (maxDepth - path.length), leads proc x
  · obtain ⟨k, hk⟩ : ∃ k, maxDepth - path.length = k + 1 := by
      refine Nat.exists_eq_succ_of_ne_zero fun h0 => ?_
      simp [h0] at hleader
    have hall : path.take maxDepth = path := List.take_of_length_le (by omega)
    rw [rootAlong_take (by omega) hleader, hall]
    simp only [hleader, true_and]
    rw [hk, List.take_succ_cons] at hleader ⊢
    by_cases hpl : leads proc p
    · rw [rootAlong_leader hpl]
      cases path using List.reverseRecOn with
      | nil => simp [rootAlong_leader hpl]
      | append_singleton path c =>
        have hcp : c ≠ p := by
          have hnodup := h.nodup
          rw [List.append_assoc, List.singleton_append] at hnodup
          have hc := (List.nodup_cons.mp (List.nodup_append.mp hnodup).2.1).1
          exact fun heq => hc (by simp [heq])
        rw [List.append_assoc, List.singleton_append,
          rootAlong_below (fun x hx => hpath x (List.mem_append_left _ hx)) (hpath c (by simp)) hpl]
        by_cases hsame : sameProgram proc p c <;> simp [hsame, hpl, hcp.symm]
    · obtain ⟨root, hroot⟩ := Option.isSome_iff_exists.mp (rootAlong_isSome hleader)
      simp [rootAlong_append_none hpath hpl, hroot, hpl]
  · have hnone : ∀ x ∈ path.take maxDepth ++ (p :: l).take (maxDepth - path.length), ¬ leads proc x := by
      intro x hx
      rcases List.mem_append.mp hx with hx | hx
      · exact hpath x (List.mem_of_mem_take hx)
      · exact fun hx' => hleader ⟨x, hx, hx'⟩
    simp [rootAlong_none hnone, hleader]

/-- A browser and its audio service, started from a shell. -/
def desktop : ProcFs Nat := fun pid =>
  if pid = 1 then some ⟨some 0, some 1, some 0⟩
  else if pid = 10 then some ⟨some 1, some 10, some 1⟩
  else if pid = 20 then some ⟨some 10, some 10, some 2⟩
  else if pid = 30 then some ⟨some 20, some 10, some 2⟩
  else none

theorem ancestry_desktop : Ancestry (parentOf desktop) 30 ([30] ++ 20 :: [10, 1]) :=
  .step rfl (.step rfl (.step rfl (.top rfl)))

theorem same_application_iff_desktop :
    ∃ t u, of desktop 30 = some t ∧ of desktop 20 = some u ∧ sameApplication desktop t u := by
  refine (same_application_iff ancestry_desktop (by decide) (by decide)).mpr ⟨⟨10, ?_, by decide⟩, by decide⟩
  simp [maxDepth]

/-- The members of a chain up to its first leader. -/
theorem exists_first_leader {l : List Pid} {root : Pid} (h : rootAlong proc l = some root) :
    ∃ pre leader rest, l = pre ++ leader :: rest ∧ (∀ x ∈ pre, ¬ leads proc x) ∧ leads proc leader := by
  cases hfind : l.find? fun pid => leads proc pid with
  | none =>
    have hnone : ∀ x ∈ l, ¬ leads proc x := by simpa using hfind
    rw [rootAlong_none hnone] at h
    cases h
  | some leader =>
    obtain ⟨hleads, pre, rest, hl, hpre⟩ := List.find?_eq_some_iff_append.mp hfind
    exact ⟨pre, leader, rest, hl, by simpa using hpre, by simpa using hleads⟩

/-- A session leader is its own application. -/
theorem processRoot_leader {p : Pid} (hpos : 0 < p) (h : leads proc p) : processRoot proc p = some ⟨p⟩ := by
  obtain ⟨l, hl⟩ : ∃ l, climb (parentOf proc) maxDepth p [] = p :: l := by
    have hhead : (climb (parentOf proc) maxDepth p []).head? = some p := head_climb 63 p
    exact List.head?_eq_some_iff.mp hhead
  rw [processRoot_of (of_pos hpos), hl, rootAlong_leader h]
  rfl

/-- So is a process below a session leader that runs another program. -/
theorem processRoot_below {p leader : Pid} (hpos : 0 < p) (hparent : parentOf proc p = some leader)
    (hp : ¬ leads proc p) (hleader : leads proc leader) (hsame : ¬ sameProgram proc leader p) :
    processRoot proc p = some ⟨p⟩ := by
  have hne : leader ≠ p := fun heq => hp (heq ▸ hleader)
  obtain ⟨l, hl⟩ : [p, leader] <+: climb (parentOf proc) maxDepth p [] := climb_two hparent hne 62
  rw [processRoot_of (of_pos hpos), ← hl, List.cons_append, List.singleton_append,
    rootAlong, if_neg hp, if_pos hleader, if_neg hsame]
  rfl

/-- **An application is rooted in itself**: the root of the root process is that process. -/
theorem processRoot_root {pid : Pid} {root : ApplicationId} (h : processRoot proc pid = some root) :
    processRoot proc root.root = some root := by
  obtain ⟨t, ht, -⟩ := Option.bind_eq_some_iff.mp h
  rw [processRoot_of ht] at h
  obtain ⟨r, hr, rfl⟩ := Option.map_eq_some_iff.mp h
  obtain ⟨pre, leader, rest, hchain, hpre, hleads⟩ := exists_first_leader hr
  have hleader : 0 < leader := pos_of_chain ht (by simp [hchain])
  rw [hchain] at hr
  cases pre using List.reverseRecOn with
  | nil =>
    rw [List.nil_append, rootAlong_leader hleads] at hr
    exact Option.some.inj hr ▸ processRoot_leader hleader hleads
  | append_singleton pre below =>
    have hbelow := hpre below (by simp)
    rw [List.append_assoc, List.singleton_append] at hchain hr
    rw [rootAlong_below (fun x hx => hpre x (List.mem_append_left _ hx)) hbelow hleads] at hr
    by_cases hsame : sameProgram proc leader below
    · rw [if_pos hsame] at hr
      exact Option.some.inj hr ▸ processRoot_leader hleader hleads
    · rw [if_neg hsame] at hr
      obtain rfl := Option.some.inj hr
      have hparent : parentOf proc below = some leader := by
        have hchains := (List.isChain_append.mp (hchain ▸ isChain_of ht)).2.1
        exact (List.isChain_cons_cons.mp hchains).1
      exact processRoot_below (pos_of_chain ht (by simp [hchain])) hparent hbelow hleads hsame

theorem processRoot_root_desktop : processRoot desktop 20 = some ⟨20⟩ := by
  have hroot : processRoot desktop 30 = some ⟨20⟩ := by
    rw [processRoot_eq ancestry_desktop (by decide)]
    decide
  exact processRoot_root hroot

/-! ## Grouping -/

/-- The applications of some processes, in the order of their first process. -/
def rootsOf (proc : ProcFs ε) (pids : List Pid) : List ApplicationId :=
  (pids.filterMap (processRoot proc)).reverse.dedup.reverse

theorem mem_rootsOf {pids : List Pid} {root : ApplicationId} :
    root ∈ rootsOf proc pids ↔ ∃ pid ∈ pids, processRoot proc pid = some root := by
  simp [rootsOf]

theorem rootsOf_append_none {pids : List Pid} {pid : Pid} (h : processRoot proc pid = none) :
    rootsOf proc (pids ++ [pid]) = rootsOf proc pids := by
  simp [rootsOf, List.filterMap_append, h]

theorem rootsOf_append_old {pids : List Pid} {pid : Pid} {root : ApplicationId}
    (h : processRoot proc pid = some root) (hmem : root ∈ rootsOf proc pids) :
    rootsOf proc (pids ++ [pid]) = rootsOf proc pids := by
  have hmem : root ∈ (pids.filterMap (processRoot proc)).reverse := by simpa [rootsOf] using hmem
  unfold rootsOf
  rw [List.filterMap_append, List.reverse_append, List.filterMap_cons_some h, List.filterMap_nil,
    List.reverse_singleton, List.singleton_append, List.dedup_cons_of_mem hmem]

theorem rootsOf_append_new {pids : List Pid} {pid : Pid} {root : ApplicationId}
    (h : processRoot proc pid = some root) (hmem : root ∉ rootsOf proc pids) :
    rootsOf proc (pids ++ [pid]) = rootsOf proc pids ++ [root] := by
  have hmem : root ∉ (pids.filterMap (processRoot proc)).reverse := by simpa [rootsOf] using hmem
  unfold rootsOf
  rw [List.filterMap_append, List.reverse_append, List.filterMap_cons_some h, List.filterMap_nil,
    List.reverse_singleton, List.singleton_append, List.dedup_cons_of_notMem hmem, List.reverse_cons]

/-- A group is what the processes of its root come to: the chain of the first, and the members of the
    chains of all. -/
structure GroupOf (proc : ProcFs ε) (pids : List Pid) (root : ApplicationId) (g : ProcessTree) : Prop where
  chain : ∃ pid t, pids.find? (fun p => processRoot proc p = some root) = some pid ∧ of proc pid = some t ∧
    g.chain = t.chain
  pids : ∀ x, x ∈ g.pids ↔
    ∃ pid ∈ pids, processRoot proc pid = some root ∧ ∃ t, of proc pid = some t ∧ x ∈ t.pids

/-- The groups after `pids`. -/
structure Grouped (proc : ProcFs ε) (pids : List Pid) (groups : List (ApplicationId × ProcessTree)) : Prop where
  keys : groups.map Prod.fst = rootsOf proc pids
  groups : ∀ g ∈ groups, GroupOf proc pids g.1 g.2

variable {pids : List Pid} {pid : Pid} {root : ApplicationId} {groups : List (ApplicationId × ProcessTree)}

/-- A process of another root changes nothing about a group. -/
theorem GroupOf.append {g : ProcessTree} (h : GroupOf proc pids root g) (hpid : processRoot proc pid ≠ some root) :
    GroupOf proc (pids ++ [pid]) root g where
  chain := by
    obtain ⟨first, t, hfirst, hrest⟩ := h.chain
    exact ⟨first, t, by rw [List.find?_append, hfirst, Option.some_or], hrest⟩
  pids x := by
    rw [h.pids x]
    simp [or_and_right, exists_or, hpid]

theorem GroupOf.merge {g t : ProcessTree} (h : GroupOf proc pids root g) (ht : of proc pid = some t)
    (hroot : processRoot proc pid = some root) :
    GroupOf proc (pids ++ [pid]) root { g with pids := g.pids ∪ t.pids } where
  chain := by
    obtain ⟨first, t, hfirst, hrest⟩ := h.chain
    exact ⟨first, t, by rw [List.find?_append, hfirst, Option.some_or], hrest⟩
  pids x := by
    rw [Finset.mem_union, h.pids x]
    simp [or_and_right, exists_or, hroot, ht]

/-- The first process of a root. -/
theorem GroupOf.new {t : ProcessTree} (ht : of proc pid = some t) (hroot : processRoot proc pid = some root)
    (hnew : ∀ p ∈ pids, processRoot proc p ≠ some root) : GroupOf proc (pids ++ [pid]) root t where
  chain := by
    have hnone : pids.find? (fun p => processRoot proc p = some root) = none := by
      simpa using hnew
    exact ⟨pid, t, by simp [List.find?_append, hnone, hroot], ht, rfl⟩
  pids x := by
    constructor
    · exact fun hx => ⟨pid, by simp, hroot, t, ht, hx⟩
    · intro ⟨p, hp, hproot, u, hu, hx⟩
      rcases List.mem_append.mp hp with hp | hp
      · exact absurd hproot (hnew p hp)
      · obtain rfl := List.mem_singleton.mp hp
        obtain rfl := Option.some.inj (ht.symm.trans hu)
        exact hx

/-- The groups of other roots are as they were. -/
theorem Grouped.other (h : Grouped proc pids groups) (hroot : processRoot proc pid = some root)
    {g : ApplicationId × ProcessTree} (hg : g ∈ groups) (hne : g.1 ≠ root) :
    GroupOf proc (pids ++ [pid]) g.1 g.2 := by
  refine (h.groups g hg).append fun heq => hne ?_
  exact (Option.some.inj (hroot.symm.trans heq)).symm

/-- A process without a root. -/
theorem Grouped.skip (h : Grouped proc pids groups) (hroot : processRoot proc pid = none) :
    Grouped proc (pids ++ [pid]) groups where
  keys := h.keys.trans (rootsOf_append_none hroot).symm
  groups g hg := (h.groups g hg).append (by simp [hroot])

/-- The first process of a root opens its group. -/
theorem Grouped.opened (h : Grouped proc pids groups) {t : ProcessTree} (ht : of proc pid = some t)
    (hroot : processRoot proc pid = some root) (hnew : ∀ g ∈ groups, g.1 ≠ root) :
    Grouped proc (pids ++ [pid]) (groups ++ [(root, t)]) := by
  have hmem : root ∉ rootsOf proc pids := by
    rw [← h.keys]
    simpa using fun t hg => hnew _ hg rfl
  refine ⟨by rw [List.map_append, h.keys, rootsOf_append_new hroot hmem]; rfl, fun g hg => ?_⟩
  rcases List.mem_append.mp hg with hg | hg
  · exact h.other hroot hg (hnew g hg)
  · obtain rfl := List.mem_singleton.mp hg
    exact .new ht hroot fun p hp hproot => hmem (mem_rootsOf.mpr ⟨p, hp, hproot⟩)

/-- A later one joins it. -/
theorem Grouped.joined (h : Grouped proc pids groups) {t : ProcessTree} (ht : of proc pid = some t)
    (hroot : processRoot proc pid = some root) {i : Nat} (hi : i < groups.length) (hkey : groups[i].1 = root) :
    Grouped proc (pids ++ [pid])
      (groups.modify i fun g => (g.1, { g.2 with pids := g.2.pids ∪ t.pids })) := by
  have hmem : root ∈ rootsOf proc pids := by
    rw [← h.keys, ← hkey]
    exact List.mem_map_of_mem (List.getElem_mem hi)
  have hkeys : (groups.map Prod.fst).Nodup := by
    rw [h.keys]
    exact List.nodup_reverse.mpr (List.nodup_dedup _)
  constructor
  · rw [rootsOf_append_old hroot hmem, ← h.keys]
    refine List.ext_getElem? fun j => ?_
    simp only [List.getElem?_map, List.getElem?_modify]
    by_cases hj : i = j <;> cases groups[j]? <;> simp [hj]
  · intro g hg
    obtain ⟨j, hg⟩ := List.mem_iff_getElem?.mp hg
    rw [List.getElem?_modify] at hg
    obtain ⟨g', hg', rfl⟩ := Option.map_eq_some_iff.mp hg
    have hmem' : g' ∈ groups := List.mem_of_getElem? hg'
    by_cases hj : i = j
    · subst hj
      obtain rfl : groups[i] = g' := by simpa [hi] using hg'
      simp only [if_true]
      rw [hkey]
      exact (hkey ▸ h.groups _ hmem').merge ht hroot
    · rw [if_neg hj]
      refine h.other hroot hmem' fun heq => hj ?_
      refine (List.getElem?_inj (by simpa using hi) hkeys).mp ?_
      rw [List.getElem?_map, List.getElem?_map, hg', List.getElem?_eq_getElem hi, Option.map_some,
        Option.map_some, hkey, heq]

/-- **One process** is grouped. -/
theorem Grouped.turn (h : Grouped proc pids groups) (pid : Pid) :
    Grouped proc (pids ++ [pid]) (groupTurn proc groups pid) := by
  cases hroot : processRoot proc pid with
  | none =>
    have hsame : groupTurn proc groups pid = groups := by
      unfold groupTurn
      cases ht : of proc pid with
      | none => rfl
      | some t =>
        have hnone : t.applicationRoot proc = none := by simpa [processRoot, ht] using hroot
        simp only [hnone]
    rw [hsame]
    exact h.skip hroot
  | some root =>
    obtain ⟨t, ht, htroot⟩ := Option.bind_eq_some_iff.mp hroot
    cases hfind : groups.findIdx? fun g => g.1 = root with
    | none =>
      simp only [groupTurn, ht, htroot, hfind]
      exact h.opened ht hroot (by simpa using List.findIdx?_eq_none_iff.mp hfind)
    | some i =>
      obtain ⟨hi, hkey, -⟩ := List.findIdx?_eq_some_iff_getElem.mp hfind
      simp only [groupTurn, ht, htroot, hfind]
      exact h.joined ht hroot hi (by simpa using hkey)

theorem grouped_foldl (pids : List Pid) : Grouped proc pids (pids.foldl (groupTurn proc) []) := by
  induction pids using List.reverseRecOn with
  | nil => exact ⟨rfl, by simp⟩
  | append_singleton pids pid ih =>
    rw [List.foldl_append]
    exact ih.turn pid

/-- A group has the root of its processes: the walk for it meets no more processes than theirs. -/
theorem GroupOf.applicationRoot_eq {g : ProcessTree} (h : GroupOf proc pids root g) :
    applicationRoot proc g = some root := by
  obtain ⟨pid, t, hfind, ht, hchain⟩ := h.chain
  have hroot : processRoot proc pid = some root := by simpa using List.find?_some hfind
  have hmem : ∀ x ∈ g.chain, x ∈ g.pids := by
    intro x hx
    refine (h.pids x).mpr ⟨pid, List.mem_of_find?_eq_some hfind, hroot, t, ht, ?_⟩
    rw [(of_eq_some.mp ht).2.2, List.mem_toFinset]
    exact hchain ▸ hx
  rw [show g = ⟨g.chain, g.pids⟩ from rfl, ProcessTree.applicationRoot_eq (hchain ▸ isChain_of ht) hmem,
    hchain, ← processRoot_of ht, hroot]

/-- **Grouping is exact**: one group for each application, in the order of the first process, whose root is
    the application's, with the chain of the first of its processes and the members of all their chains. -/
theorem groups_exact (proc : ProcFs ε) (pids : List Pid) :
    List.Forall₂ (fun root g => applicationRoot proc g = some root ∧ GroupOf proc pids root g)
      (rootsOf proc pids) (groupByApplication proc pids) := by
  obtain ⟨hkeys, hgroups⟩ : Grouped proc pids _ := grouped_foldl pids
  rw [← hkeys, groupByApplication, List.forall₂_map_left_iff, List.forall₂_map_right_iff,
    List.forall₂_same]
  exact fun g hg => ⟨(hgroups g hg).applicationRoot_eq, hgroups g hg⟩

end ProcessTree

/-! ## The sound of a connection -/

namespace ApplicationRegistry

/-- `application_of_sound`. -/
def applicationOfSound (r : ApplicationRegistry) (root : Int → Option ApplicationId) (soundPid : Int) :
    Option Nat :=
  (root soundPid).bind r.findApplication

/-- `connection_owns_process`. -/
def connectionOwnsProcess (r : ApplicationRegistry) (root : Int → Option ApplicationId) (conn : ConnectionId)
    (pid : Int) : Bool :=
  match r.applicationOf conn with
  | none => false
  | some application => root pid = some application.root

end ApplicationRegistry

open ApplicationRegistry in
/-- **A sound reaches the connections of its application**, in every registry that a run leads to: those that
    own the process are the ones the application lists, which are those registered with the same root. -/
theorem sound_connections {calls : List RegistryCall} {s : Registering}
    (hrun : run Registering.step Registering.init calls = some s) (root : Int → Option ApplicationId)
    (pid : Int) (conn : ConnectionId) :
    (s.registry.connectionOwnsProcess root conn pid ↔ ∃ ρ, root pid = some ρ ∧ (conn, ρ) ∈ s.live) ∧
      (s.registry.connectionOwnsProcess root conn pid ↔
        ∃ i a, s.registry.applicationOfSound root pid = some i ∧ s.registry.applications[i]? = some a ∧
          conn ∈ a.connections) := by
  have hinv : s.Inv := (run_inv_all (I := fun s => s.Inv ∧ s.Nonempty)
    (fun s call t h hstep => Registering.step_inv h hstep)
    ⟨Registering.inv_init, by simp [Registering.Nonempty, Registering.init, ApplicationRegistry.new]⟩ hrun).1
  have howns : s.registry.connectionOwnsProcess root conn pid ↔ ∃ ρ, root pid = some ρ ∧ (conn, ρ) ∈ s.live := by
    simp only [← hinv.root, rootOf]
    unfold connectionOwnsProcess
    cases s.registry.applicationOf conn with
    | none => simp
    | some a => simp [eq_comm]
  refine ⟨howns, howns.trans ⟨?_, ?_⟩⟩
  · rintro ⟨ρ, hroot, hlive⟩
    obtain ⟨a, ha, haroot⟩ := hinv.exists_application hlive
    obtain ⟨i, hi⟩ := List.mem_iff_getElem?.mp ha
    have hlt := (List.getElem?_eq_some_iff.mp hi).1
    have hfind : s.registry.findApplication ρ = some i := by
      refine List.findIdx?_eq_some_iff_getElem.mpr ⟨hlt, ?_, fun j hj => ?_⟩
      · obtain rfl : s.registry.applications[i] = a := by simpa [hlt] using hi
        simpa using haroot
      · have hjlt : j < s.registry.applications.length := by omega
        suffices hne : s.registry.applications[j].root ≠ ρ by simpa using hne
        intro heq
        have := hinv.index_inj (List.getElem?_eq_getElem hjlt) hi (heq.trans haroot.symm)
        omega
    refine ⟨i, a, by rw [applicationOfSound, hroot, Option.bind_some, hfind], hi, ?_⟩
    rw [hinv.order a ha, Live.mem_under, haroot]
    exact hlive
  · rintro ⟨i, a, hsound, hi, hconn⟩
    obtain ⟨ρ, hroot, hfind⟩ := Option.bind_eq_some_iff.mp hsound
    obtain ⟨hlt, haroot, -⟩ := List.findIdx?_eq_some_iff_getElem.mp hfind
    obtain rfl : s.registry.applications[i] = a := by simpa [hlt] using hi
    have haroot : (s.registry.applications[i]).root = ρ := by simpa using haroot
    refine ⟨ρ, hroot, ?_⟩
    rw [hinv.order _ (List.getElem_mem hlt), Live.mem_under, haroot] at hconn
    exact hconn

/-- Two connections of the browser and one of the shell; the audio service makes a sound. -/
theorem sound_connections_browser :
    ((⟨[⟨⟨20⟩, [⟨1⟩, ⟨3⟩]⟩, ⟨⟨10⟩, [⟨2⟩]⟩],
        ((Table.empty.put ⟨1⟩ 0).put ⟨2⟩ 1).put ⟨3⟩ 0⟩ : ApplicationRegistry).connectionOwnsProcess
      (fun pid => if pid = 30 then some ⟨20⟩ else none) ⟨3⟩ 30) := by
  have hrun : run Registering.step Registering.init
      [.register ⟨1⟩ 20 fun _ => some ⟨20⟩, .register ⟨2⟩ 10 fun _ => some ⟨10⟩,
        .register ⟨3⟩ 20 fun _ => some ⟨20⟩] =
      some ⟨⟨[⟨⟨20⟩, [⟨1⟩, ⟨3⟩]⟩, ⟨⟨10⟩, [⟨2⟩]⟩], ((Table.empty.put ⟨1⟩ 0).put ⟨2⟩ 1).put ⟨3⟩ 0⟩,
        [(⟨1⟩, ⟨20⟩), (⟨2⟩, ⟨10⟩), (⟨3⟩, ⟨20⟩)]⟩ := rfl
  exact (sound_connections hrun _ 30 ⟨3⟩).1.mpr ⟨⟨20⟩, by decide, by simp⟩

end RemoteX11.Audio
