/-
  The settings pages of the GUI and what their buttons do (`app/actions.rs`, `ui/pages/form`, `ui/pages/config.rs`).

  Every field of a page has a widget with a text of its own (`shown`) next to the form's `values` (`stored`).
  The three saves send the texts of one page over the values that are known of the file, and clear the flags of
  some pages (`commit`); they differ in the page and in the flags.
-/
import RemoteX11.Gui.Backend
import RemoteX11.Lib.Run

namespace RemoteX11.Gui

open RemoteX11.Lib RemoteX11.Lib.Toml

/-! ## Pages -/

inductive Page where
  | server
  | client
  | ssh
  | runtime
  deriving DecidableEq, Repr

/-- `keys_for`. The GUI has no widget for `ssh.x11`. -/
def Page.fields : Page → List Key
  | server => Section.server.fields
  | client => Section.client.fields
  | ssh => [.sshHost, .sshPort, .sshUser, .sshIdentity, .sshRelayPort, .sshToken, .sshReconnect, .sshDisplay]
  | runtime => Section.runtime.fields

def Page.all : List Page := [server, client, ssh, runtime]

/-- The page that shows a field. -/
def Key.page (k : Key) : Option Page := Page.all.find? fun p => p.fields.contains k

inductive Widget where
  | text
  | toggle
  | select (items : List String)
  deriving DecidableEq, Repr

/-- The widget of a field. -/
def Key.widget : Key → Widget
  | .sshReconnect | .incrementalUplink | .imageRecode | .audioForward | .audioPerApp | .flowControl => .toggle
  | .imageRecodeCodec => .select ["png", "jpeg"]
  | _ => .text

/-- What a new widget holds. -/
def Widget.initial : Widget → String
  | text => ""
  | toggle => "false"
  | select items => items.headD ""

/-- What a widget holds once `set_values` gave it `value`. -/
def Widget.setValue (w : Widget) (value old : String) : String :=
  match w with
  | text => value
  | toggle => if value = "true" then "true" else "false"
  | select items => if value ∈ items then value else old

inductive FormRole where
  | server
  | client
  | ssh
  deriving DecidableEq, Repr

/-- `page_for_role`. -/
def FormRole.page : FormRole → Page
  | server => .server
  | client => .client
  | ssh => .ssh

/-! ## The application -/

structure App where
  file : File
  /-- the configuration that the backend holds -/
  loaded : GuiConfig
  fileValues : List (String × String)
  /-- the `values` of the form that shows the field -/
  stored : Key → String
  /-- what the widget of the field holds -/
  shown : Key → String
  dirty : Page → Bool

/-- `write` is the error of the file system, if it has one. -/
inductive GuiAct where
  /-- the user types into a text widget -/
  | type (k : Key) (text : String)
  /-- FLTK calls the callback of a text widget -/
  | sync (k : Key)
  | toggle (k : Key)
  | choose (k : Key) (item : String)
  | load
  | savePage (role : FormRole) (write : Option String)
  | saveRuntime (write : Option String)
  | saveAll (write : Option String)
  | resetDefaults
  | start (role : FormRole) (ok : Bool)
  | pickFile (path : String)

namespace App

/-- The application before it loads its file. -/
def blank (lib : Library) (file : File) : App where
  file := file
  loaded := loadOrDefault lib file
  fileValues := []
  stored _ := ""
  shown k := k.widget.initial
  dirty _ := false

/-- `set_values` of a page: the values are stored, and every widget is given what is stored for it. -/
def setValues (s : App) (values : List (String × String)) (p : Page) : App :=
  let stored k := if k.page = some p then (Assoc.get values k.path).getD (s.stored k) else s.stored k
  { s with
    stored := stored
    shown := fun k => if k.page = some p then k.widget.setValue (stored k) (s.shown k) else s.shown k }

/-- `load_config`. -/
def loadConfig (lib : Library) (s : App) : App :=
  match load lib s.file with
  | .ok cfg =>
    let values := flatValues lib cfg
    Page.all.foldl (fun s p => s.setValues values p) { s with loaded := cfg, fileValues := values }
  | .error _ => Page.all.foldl (fun s p => s.setValues [] p) { s with fileValues := [] }

/-- `values` of a page. -/
def live (s : App) (p : Page) : List (String × String) := p.fields.map fun k => (k.path, s.shown k)

/-- `merged_values`. -/
def mergedValues (s : App) (p : Page) : List (String × String) :=
  s.fileValues.filter (fun e => !(p.fields.map Key.path).contains e.1) ++ s.live p

/-- What `save_runtime` and `save_all` send: each value of the page in place of those with its key. -/
def runtimeValues (s : App) : List (String × String) :=
  (s.live .runtime).foldl (fun all v => all.filter (fun e => e.1 ≠ v.1) ++ [v]) s.fileValues

/-- The rest of a save: the values are checked and saved, and if that went well they are known of the file and
    the flags of these pages are cleared. -/
def commit (lib : Library) (s : App) (values : List (String × String)) (write : Option String)
    (clears : Page → Bool) : App :=
  if (validateValues lib s.loaded values).isEmpty then
    match saveValues lib s.file values write with
    | (.ok cfg, file) =>
      { s with
        file := file
        loaded := cfg
        fileValues := values
        dirty := fun p => s.dirty p && !clears p }
    | (.error _, file) => { s with file := file }
  else s

def savePage (lib : Library) (s : App) (role : FormRole) (write : Option String) : App :=
  s.commit lib (s.mergedValues role.page) write fun p => p = role.page

def saveRuntime (lib : Library) (s : App) (write : Option String) : App :=
  s.commit lib s.runtimeValues write fun p => p = .runtime

/-- The values are those of `save_runtime`, and all flags are cleared. -/
def saveAll (lib : Library) (s : App) (write : Option String) : App :=
  s.commit lib s.runtimeValues write fun _ => true

/-- `reset_page`: the file is loaded for the backend, and that is all. -/
def resetPage (lib : Library) (s : App) : App :=
  match load lib s.file with
  | .ok cfg => { s with loaded := cfg }
  | .error _ => s

def markDirty (s : App) (p : Option Page) : App :=
  { s with dirty := fun q => s.dirty q || p = some q }

/-- `pick_file`. -/
def pickFile (s : App) (path : String) : App :=
  if path = "" then s else (s.setValues [(Key.sshIdentity.path, path)] .ssh).markDirty (some .ssh)

def step (lib : Library) (s : App) : GuiAct → Option App
  | .type k text =>
    if k.page.isSome ∧ k.widget = .text then some { s with shown := Function.update s.shown k text } else none
  | .sync k =>
    if k.page.isSome ∧ k.widget = .text then
      some { s with stored := Function.update s.stored k (s.shown k) }
    else none
  | .toggle k =>
    if k.widget = .toggle then
      let value := if s.shown k = "true" then "false" else "true"
      some ({ s with
        shown := Function.update s.shown k value
        stored := Function.update s.stored k value }.markDirty k.page)
    else none
  | .choose k item =>
    match k.widget with
    | .select items =>
      if item ∈ items then some ({ s with shown := Function.update s.shown k item }.markDirty k.page) else none
    | _ => none
  | .load => some (s.loadConfig lib)
  | .savePage role write => some (s.savePage lib role write)
  | .saveRuntime write => some (s.saveRuntime lib write)
  | .saveAll write => some (s.saveAll lib write)
  | .resetDefaults => some (s.resetPage lib)
  | .start role ok => some (if ok then s.markDirty (some role.page) else s)
  | .pickFile path => some (s.pickFile path)

/-- The application once it runs. -/
def start (lib : Library) (file : File) : App := (blank lib file).loadConfig lib

end App

/-! ## The pages and their fields -/

theorem Key.page_eq_some {k : Key} {p : Page} : k.page = some p ↔ k ∈ p.fields := by
  cases p <;> cases k <;> decide

theorem Page.fields_nodup (p : Page) : p.fields.Nodup := by
  cases p <;> decide

theorem Page.paths_nodup (p : Page) : (p.fields.map Key.path).Nodup := p.fields_nodup.map path_injective

/-- A widget other than a text has a text that is not blank. -/
theorem Widget.isBlank_setValue {w : Widget} {value old : String}
    (htext : w = .text → Text.isBlank value = false) (hitems : ∀ items, w = .select items → old ∈ items)
    (hblank : ∀ items, w = .select items → ∀ item ∈ items, Text.isBlank item = false) :
    Text.isBlank (w.setValue value old) = false := by
  cases w with
  | text => exact htext rfl
  | toggle =>
    by_cases h : value = "true"
    · rw [setValue, if_pos h]
      decide
    · rw [setValue, if_neg h]
      decide
  | select items =>
    by_cases h : value ∈ items
    · rw [setValue, if_pos h]
      exact hblank items rfl _ h
    · rw [setValue, if_neg h]
      exact hblank items rfl _ (hitems items rfl)

theorem items_setValue {w : Widget} {value old : String} (h : ∀ items, w = .select items → old ∈ items) :
    ∀ items, w = .select items → w.setValue value old ∈ items := by
  rintro items rfl
  by_cases hvalue : value ∈ items
  · rw [Widget.setValue, if_pos hvalue]
    exact hvalue
  · rw [Widget.setValue, if_neg hvalue]
    exact h items rfl

/-- The field behind the one menu. -/
theorem eq_of_select {k : Key} {items : List String} (hk : k.widget = .select items) :
    k = .imageRecodeCodec ∧ items = ["png", "jpeg"] := by
  cases k with
  | imageRecodeCodec => exact ⟨rfl, (Widget.select.inj hk).symm⟩
  | _ => cases hk

theorem isBlank_item {k : Key} {items : List String} (hk : k.widget = .select items) :
    ∀ item ∈ items, Text.isBlank item = false := by
  obtain ⟨_, rfl⟩ := eq_of_select hk
  decide

theorem page_isSome_of_select {k : Key} {items : List String} (hk : k.widget = .select items) :
    k.page.isSome := by
  rw [(eq_of_select hk).1]
  decide

/-- A menu shows one of its items, also after a widget changed. -/
theorem items_update {shown : Key → String} (h : ∀ k items, k.widget = .select items → shown k ∈ items)
    {k : Key} {text : String} (htext : ∀ items, k.widget = .select items → text ∈ items) :
    ∀ k' items, k'.widget = .select items → Function.update shown k text k' ∈ items := by
  intro k' items hk'
  by_cases heq : k' = k
  · subst heq
    rw [Function.update_self]
    exact htext items hk'
  · rw [Function.update_of_ne heq]
    exact h k' items hk'

namespace App

section Forms

variable {lib : Library} {s : App} {values : List (String × String)}

theorem setValues_items {k : Key} (h : ∀ items, k.widget = .select items → s.shown k ∈ items)
    (values : List (String × String)) (p : Page) {items : List String} (hk : k.widget = .select items) :
    (s.setValues values p).shown k ∈ items := by
  unfold setValues
  by_cases hp : k.page = some p
  · simp only [hp, if_true]
    exact items_setValue h items hk
  · simp only [hp, if_false]
    exact h items hk

/-- A field of the forms once all of them were given these values. -/
theorem setAll_stored (k : Key) (hk : k.page.isSome) :
    (Page.all.foldl (fun s p => s.setValues values p) s).stored k =
      (Assoc.get values k.path).getD (s.stored k) := by
  obtain ⟨p, hp⟩ := Option.isSome_iff_exists.mp hk
  cases p <;> simp [Page.all, setValues, hp]

theorem setAll_shown (k : Key) (hk : k.page.isSome) :
    (Page.all.foldl (fun s p => s.setValues values p) s).shown k =
      k.widget.setValue ((Assoc.get values k.path).getD (s.stored k)) (s.shown k) := by
  obtain ⟨p, hp⟩ := Option.isSome_iff_exists.mp hk
  cases p <;> simp [Page.all, setValues, hp]

/-- A menu shows one of its items after a load. -/
theorem setAll_items (h : ∀ k items, k.widget = .select items → s.shown k ∈ items)
    (values : List (String × String)) :
    ∀ k items, k.widget = .select items →
      (Page.all.foldl (fun s p => s.setValues values p) s).shown k ∈ items := by
  intro k items hk
  rw [setAll_shown k (page_isSome_of_select hk)]
  exact items_setValue (h k) items hk

theorem loadConfig_ok {cfg : GuiConfig} (hload : load lib s.file = .ok cfg) :
    s.loadConfig lib = Page.all.foldl (fun s p => s.setValues (flatValues lib cfg) p)
      { s with loaded := cfg, fileValues := flatValues lib cfg } := by
  unfold loadConfig
  rw [hload]

theorem loadConfig_error {e : ConfigError} (hload : load lib s.file = .error e) :
    s.loadConfig lib = Page.all.foldl (fun s p => s.setValues [] p) { s with fileValues := [] } := by
  unfold loadConfig
  rw [hload]

end Forms

/-! ## What a save sends and does -/

section Commit

variable {lib : Library} {s : App} {p : Page} {write : Option String} {clears : Page → Bool}

theorem map_fst_live : (s.live p).map Prod.fst = p.fields.map Key.path := by
  unfold live
  rw [List.map_map]
  rfl

theorem get_live (k : Key) :
    Assoc.get (s.live p) k.path = if k ∈ p.fields then some (s.shown k) else none := by
  unfold live
  induction p.fields with
  | nil => rfl
  | cons k' ks ih =>
    rw [List.map_cons, get_cons, ih]
    by_cases h : k' = k
    · subst h
      rw [if_pos rfl, if_pos List.mem_cons_self]
    · rw [if_neg fun heq => h (path_injective heq)]
      simp [Ne.symm h]

theorem contains_paths (k : Key) : (p.fields.map Key.path).contains k.path = decide (k ∈ p.fields) := by
  rw [Bool.eq_iff_iff, List.contains_iff_mem, decide_eq_true_eq, List.mem_map]
  constructor
  · rintro ⟨k', hk', heq⟩
    exact path_injective heq ▸ hk'
  · intro hk
    exact ⟨k, hk, rfl⟩

/-- A field of the page is sent as it is shown, and any other as it is known of the file. -/
theorem get_mergedValues (k : Key) :
    Assoc.get (s.mergedValues p) k.path =
      if k ∈ p.fields then some (s.shown k) else Assoc.get s.fileValues k.path := by
  unfold mergedValues
  rw [get_append, get_filter (fun path => !(p.fields.map Key.path).contains path), get_live,
    contains_paths]
  by_cases hk : k ∈ p.fields <;> simp [hk]

theorem mergedValues_nodup (h : (s.fileValues.map Prod.fst).Nodup) :
    ((s.mergedValues p).map Prod.fst).Nodup := by
  unfold mergedValues
  rw [List.map_append, map_fst_live]
  refine List.Nodup.append (h.sublist (List.filter_sublist.map _)) p.paths_nodup ?_
  intro path hfile hpage
  obtain ⟨e, he, rfl⟩ := List.mem_map.mp hfile
  have hnot := (List.mem_filter.mp he).2
  rw [Bool.not_eq_true', List.contains_eq_mem, decide_eq_false_iff_not] at hnot
  exact hnot hpage

/-- Values that take the place of those with their keys. -/
theorem foldl_replace {live : List (String × String)} (h : (live.map Prod.fst).Nodup)
    (values : List (String × String)) :
    live.foldl (fun all v => all.filter (fun e => e.1 ≠ v.1) ++ [v]) values =
      values.filter (fun e => !(live.map Prod.fst).contains e.1) ++ live := by
  induction live generalizing values with
  | nil => simp
  | cons v live ih =>
    obtain ⟨hnotMem, hrest⟩ := List.nodup_cons.mp h
    rw [List.foldl_cons, ih hrest, List.filter_append, List.filter_filter]
    have hself : [v].filter (fun e => !(live.map Prod.fst).contains e.1) = [v] := by
      rw [List.filter_cons_of_pos (by simpa using hnotMem), List.filter_nil]
    rw [hself, List.append_assoc, List.singleton_append]
    congr 1
    refine List.filter_congr fun e _ => ?_
    by_cases he : e.1 = v.1 <;> simp [he, Bool.and_comm]

theorem runtimeValues_eq : s.runtimeValues = s.mergedValues .runtime := by
  unfold runtimeValues mergedValues
  rw [foldl_replace (by rw [map_fst_live]; exact Page.paths_nodup _), map_fst_live]

/-- The save goes through. -/
def Commits (lib : Library) (s : App) (values : List (String × String)) (write : Option String) : Prop :=
  (validateValues lib s.loaded values).isEmpty ∧
    ∃ cfg file, saveValues lib s.file values write = (.ok cfg, file)

/-- A field of the file once the values that are known of it are saved. -/
def written (lib : Library) (s : App) : GuiConfig := fun k =>
  ((Assoc.get s.fileValues k.path).bind (readField lib k)).getD (loadOrDefault lib s.file k)

theorem commit_of_not_commits {values : List (String × String)} (h : ¬ Commits lib s values write) :
    s.commit lib values write clears = s := by
  unfold commit
  split
  · rename_i hvalid
    cases hsave : saveValues lib s.file values write with
    | mk result file =>
      cases result with
      | ok cfg => exact absurd ⟨hvalid, cfg, file, hsave⟩ h
      | error e => simp only [saveValues_error hsave]
  · rfl

/-- The state after a save that went through, and what is in the file then. -/
structure Committed (lib : Library) (s : App) (p : Page) (clears : Page → Bool) (cfg : GuiConfig) (t : App) :
    Prop where
  loads : load lib t.file = .ok (clamp cfg)
  fileValues : t.fileValues = s.mergedValues p
  stored : t.stored = s.stored
  shown : t.shown = s.shown
  dirty : ∀ q, t.dirty q = (s.dirty q && !clears q)
  allRead : AllRead lib (s.mergedValues p)
  page : ∀ k ∈ p.fields, readField lib k (s.shown k) = some (cfg k)
  others : ∀ k, k ∉ p.fields → cfg k = s.written lib k
  saved : ∃ write, save cfg s.file write = (.ok (), t.file)

/-- What was known of the file for a field that the page does not show, and was sent, could be read. -/
theorem Committed.isSome_known {cfg : GuiConfig} {t : App} (h : Committed lib s p clears cfg t) {k : Key}
    (hk : k ∉ p.fields) {raw : String} (hraw : Assoc.get s.fileValues k.path = some raw) :
    (readField lib k raw).isSome := by
  have hsent : Assoc.get (s.mergedValues p) k.path = some raw := by
    rw [get_mergedValues, if_neg hk, hraw]
  exact h.allRead _ (Assoc.mem_of_get hsent) k (keyOf_path k)

/-- **What a save does**: nothing, or the page is in the file as it is shown, and the rest as it is known. -/
theorem committed_of_commits (clears : Page → Bool) (hdistinct : (s.fileValues.map Prod.fst).Nodup)
    (h : Commits lib s (s.mergedValues p) write) :
    ∃ cfg, Committed lib s p clears cfg (s.commit lib (s.mergedValues p) write clears) := by
  obtain ⟨hvalid, cfg, file, hsave⟩ := h
  obtain ⟨hread, _, hfile⟩ := saveValues_ok hsave
  have hfield := saveValues_field (mergedValues_nodup hdistinct) hsave
  have hcommit : s.commit lib (s.mergedValues p) write clears =
      { s with
        file := file
        loaded := cfg
        fileValues := s.mergedValues p
        dirty := fun q => s.dirty q && !clears q } := by
    unfold commit
    rw [if_pos hvalid, hsave]
  rw [hcommit]
  refine ⟨cfg, load_of_save hfile, rfl, rfl, rfl, fun q => rfl, hread, ?_, ?_, write, hfile⟩
  · intro k hk
    have hget : Assoc.get (s.mergedValues p) k.path = some (s.shown k) := by
      rw [get_mergedValues, if_pos hk]
    obtain ⟨v, hv⟩ := Option.isSome_iff_exists.mp
      (hread (k.path, s.shown k) (Assoc.mem_of_get hget) k (keyOf_path k))
    rw [hfield k, hget, Option.bind_some, hv, Option.getD_some]
  · intro k hk
    rw [hfield k, get_mergedValues, if_neg hk]
    rfl

end Commit

/-! ## The actions on widgets -/

section Widgets

variable {lib : Library} {s t : App} {k : Key}

theorem step_type {text : String} (h : s.step lib (.type k text) = some t) :
    (k.page.isSome ∧ k.widget = .text) ∧ t = { s with shown := Function.update s.shown k text } := by
  rw [step, Option.ite_none_right_eq_some] at h
  exact ⟨h.1, (Option.some.inj h.2).symm⟩

theorem step_sync (h : s.step lib (.sync k) = some t) :
    (k.page.isSome ∧ k.widget = .text) ∧ t = { s with stored := Function.update s.stored k (s.shown k) } := by
  rw [step, Option.ite_none_right_eq_some] at h
  exact ⟨h.1, (Option.some.inj h.2).symm⟩

theorem step_toggle (h : s.step lib (.toggle k) = some t) :
    k.widget = .toggle ∧ ∃ value, (value = "true" ∨ value = "false") ∧
      t = { s with
        shown := Function.update s.shown k value
        stored := Function.update s.stored k value }.markDirty k.page := by
  rw [step, Option.ite_none_right_eq_some] at h
  refine ⟨h.1, _, ?_, (Option.some.inj h.2).symm⟩
  by_cases hon : s.shown k = "true"
  · rw [if_pos hon]
    exact .inr rfl
  · rw [if_neg hon]
    exact .inl rfl

theorem step_choose {item : String} (h : s.step lib (.choose k item) = some t) :
    ∃ items, k.widget = .select items ∧ item ∈ items ∧
      t = { s with shown := Function.update s.shown k item }.markDirty k.page := by
  rw [step] at h
  cases hk : k.widget with
  | select items =>
    rw [hk] at h
    simp only [Option.ite_none_right_eq_some] at h
    exact ⟨items, rfl, h.1, (Option.some.inj h.2).symm⟩
  | text =>
    rw [hk] at h
    cases h
  | toggle =>
    rw [hk] at h
    cases h

end Widgets

end App

end RemoteX11.Gui
