/-
  What the GUI keeps of the file of an operator (`backend.rs`, `app/actions.rs`).

  A save that goes through keeps what it does not name, unless the document is not `Tidy` (`saveKeeps_iff`): if it
  does not load, the defaults take the place of what is there, and an inline table loses its unknown keys.
  Over a tidy document no session deletes a setting that it does not clear, but for blank strings.
-/
import RemoteX11.Gui.Pages

namespace RemoteX11.Gui

open RemoteX11.Lib RemoteX11.Lib.Toml

/-! ## One save -/

/-- What is expected of a save over a document: a load or a save that fails leaves it, and else all that is not
    named is kept. -/
def SaveKeeps (lib : Library) (doc : Table) (values : List (String × String))
    (result : Except String GuiConfig × File) : Prop :=
  match result.1 with
  | .error _ => result.2 = .toml doc
  | .ok _ => ∃ doc', result.2 = .toml doc' ∧
      ((fromDoc lib doc).isSome ∨ doc' = doc) ∧ KeepsOthers lib (NamedIn values) doc doc'

section Saves

variable {lib : Library} {doc : Table} {values : List (String × String)}

/-- A save of texts that are all read goes through when it can be written. -/
theorem saveValues_of_allRead (doc : Table) (hread : AllRead lib values) :
    ∃ stored file', saveValues lib (.toml doc) values none = (.ok stored, file') := by
  have hissues := (applyFlatChecked_issues (loadOrDefault lib (.toml doc)) values).mpr hread
  unfold saveValues
  simp only [hissues]
  exact ⟨_, _, rfl⟩

/-- A save that goes through was written. -/
theorem write_of_save {cfg : GuiConfig} {file' : File} {write : Option String}
    (h : save cfg (.toml doc) write = (.ok (), file')) : write = none := by
  cases write with
  | none => rfl
  | some message => cases (Prod.mk.inj h).1

/-- **A save does what is expected of it exactly when it does not go through or the document is tidy.** -/
theorem saveKeeps_iff {write : Option String} :
    SaveKeeps lib doc values (saveValues lib (.toml doc) values write) ↔
      (AllRead lib values → write = none → Tidy lib doc) := by
  cases hsave : saveValues lib (.toml doc) values write with
  | mk result file' =>
    cases result with
    | error e =>
      refine iff_of_true (saveValues_error hsave) ?_
      rintro hread rfl
      obtain ⟨stored, file'', hok⟩ := saveValues_of_allRead doc hread
      cases (Prod.mk.inj (hsave.symm.trans hok)).1
    | ok stored =>
      obtain ⟨doc', rfl, hiff⟩ := keepsOthers_iff hsave
      obtain ⟨hread, _, hwritten⟩ := saveValues_ok hsave
      constructor
      · rintro ⟨doc'', hfile, hkeeps⟩ _ _
        obtain rfl := File.toml.inj hfile
        exact hiff.mp hkeeps
      · intro htidy
        exact ⟨doc', rfl, hiff.mpr (htidy hread (write_of_save hwritten))⟩

end Saves

/-! ## Sessions -/

/-- The action gives the field a blank text. -/
def Clears (k : Key) : GuiAct → Prop
  | .type k' text => k' = k ∧ Text.isBlank text = true
  | .pickFile path => k = .sshIdentity ∧ Text.isBlank path = true
  | .sync _ | .toggle _ | .choose _ _ | .load | .savePage _ _ | .saveRuntime _ | .saveAll _ | .resetDefaults
  | .start _ _ => False

/-- A string of blanks, which the forms take for none. -/
def IsBlankEntry (entry : Option Item) : Prop :=
  ∃ s decor, entry = some (.value (.string s) decor) ∧ Text.isBlank s = true

/-- What the GUI has no field for is as it was. -/
structure KeepsUnknown (doc doc' : Table) : Prop where
  top : ∀ name, (∀ s : Section, name ≠ s.name) → Assoc.get doc' name = Assoc.get doc name
  unknown : ∀ s name, IsUnknown s name → entryOf doc' s name = entryOf doc s name

/-- What holds all along a session that began with this document. -/
structure Session (lib : Library) (doc : Table) (s : App) : Prop where
  distinct : (s.fileValues.map Prod.fst).Nodup
  items : ∀ k items, k.widget = .select items → s.shown k ∈ items
  file : ∃ doc', s.file = .toml doc' ∧ Tidy lib doc' ∧ KeepsUnknown doc doc'

/-- The field is set in the file, and in all that the GUI has of it. -/
structure Retains (lib : Library) (k : Key) (s : App) : Prop where
  file : ∃ cfg v, load lib s.file = .ok cfg ∧ cfg k = some v ∧ Text.isBlank (k.kind.format lib v) = false
  known : ∃ raw, Assoc.get s.fileValues k.path = some raw ∧ Text.isBlank raw = false
  stored : k.page.isSome → Text.isBlank (s.stored k) = false
  shown : k.page.isSome → Text.isBlank (s.shown k) = false

section Sessions

variable {lib : Library} {doc doc' : Table} {k : Key} {s t : App}

theorem KeepsUnknown.trans {doc'' : Table} (h : KeepsUnknown doc doc') (h' : KeepsUnknown doc' doc'') :
    KeepsUnknown doc doc'' where
  top name hname := (h'.top name hname).trans (h.top name hname)
  unknown s name hname := (h'.unknown s name hname).trans (h.unknown s name hname)

/-- A document that was edited is tidy. -/
theorem tidy_applyTo (lib : Library) (cfg : GuiConfig) (doc : Table) : Tidy lib (applyTo cfg doc) where
  loads := by
    rw [fromDoc_applyTo]
    rfl
  sections s item hitem := by
    rw [get_applyTo] at hitem
    rcases sectionAfter_cases cfg s (Assoc.get doc s.name) with ⟨hafter, _⟩ | hafter
    · rw [hafter] at hitem
      cases hitem
    · rw [hafter, Option.some.injEq] at hitem
      exact .inl ⟨_, hitem.symm⟩

theorem Tidy.keepsUnknown (h : Tidy lib doc) (cfg : GuiConfig) : KeepsUnknown doc (applyTo cfg doc) := by
  obtain ⟨old, hloads⟩ := Option.isSome_iff_exists.mp h.loads
  have hkeeps : KeepsOthers lib (fun _ => True) doc (applyTo cfg doc) :=
    h.keepsOthers hloads fun _ hnot => absurd trivial hnot
  exact ⟨hkeeps.top, hkeeps.unknown⟩

/-! ### Saves and loads in a session -/

theorem Session.of_frame (h : Session lib doc s) (hfile : t.file = s.file) (hvalues : t.fileValues = s.fileValues)
    (hitems : ∀ k items, k.widget = .select items → t.shown k ∈ items) : Session lib doc t where
  distinct := by
    rw [hvalues]
    exact h.distinct
  items := hitems
  file := by
    rw [hfile]
    exact h.file

theorem Session.commit (h : Session lib doc s) (p : Page) (write : Option String) (clears : Page → Bool) :
    Session lib doc (s.commit lib (s.mergedValues p) write clears) := by
  by_cases hcommits : s.Commits lib (s.mergedValues p) write
  · obtain ⟨cfg, hdone⟩ := App.committed_of_commits clears h.distinct hcommits
    generalize s.commit lib (s.mergedValues p) write clears = t at hdone
    obtain ⟨doc', hfile, htidy, hkeeps⟩ := h.file
    obtain ⟨_, hsaved⟩ := hdone.saved
    obtain ⟨doc'', hold, hnew⟩ := save_ok hsaved
    obtain rfl : doc' = doc'' := by
      rw [hfile] at hold
      rcases hold with hold | ⟨hold, _⟩
      · exact File.toml.inj hold
      · cases hold
    refine ⟨?_, ?_, _, hnew, tidy_applyTo lib cfg doc', hkeeps.trans (htidy.keepsUnknown cfg)⟩
    · rw [hdone.fileValues]
      exact App.mergedValues_nodup h.distinct
    · rw [hdone.shown]
      exact h.items
  · rw [App.commit_of_not_commits hcommits]
    exact h

/-- The file of a session loads. -/
theorem Session.loads (h : Session lib doc s) : ∃ cfg, load lib s.file = .ok cfg := by
  obtain ⟨doc', hfile, htidy, _⟩ := h.file
  obtain ⟨cfg, hloads⟩ := Option.isSome_iff_exists.mp htidy.loads
  exact ⟨cfg, by rw [hfile, load_toml.mpr hloads]⟩

theorem Session.load (h : Session lib doc s) : Session lib doc (s.loadConfig lib) := by
  obtain ⟨cfg, hload⟩ := h.loads
  rw [App.loadConfig_ok hload]
  exact ⟨flatValues_nodup, App.setAll_items h.items _, h.file⟩

/-! ### A field that is not cleared -/

/-- The text of a value as the file holds it. -/
theorem isBlank_format_clamp (lib : Library) (kind : Kind) (v : kind.type) :
    Text.isBlank (kind.format lib (kind.clamp v)) = Text.isBlank (kind.format lib v) := by
  cases kind with
  | uint bits => exact (Text.isBlank_toString _).trans (Text.isBlank_toString _).symm
  | string | boolean | float | argv => rfl

/-- What a widget shows that is given a text which is not blank. -/
theorem isBlank_setValue {value old : String} (hvalue : Text.isBlank value = false)
    (hitems : ∀ items, k.widget = .select items → old ∈ items) :
    Text.isBlank (k.widget.setValue value old) = false :=
  Widget.isBlank_setValue (fun _ => hvalue) hitems fun _ hk => isBlank_item hk

theorem isBlank_update {texts : Key → String} {k' : Key} {text : String} (h : Text.isBlank (texts k) = false)
    (htext : k = k' → Text.isBlank text = false) : Text.isBlank (Function.update texts k' text k) = false := by
  by_cases heq : k = k'
  · have hblank := htext heq
    subst heq
    rw [Function.update_self]
    exact hblank
  · rw [Function.update_of_ne heq]
    exact h

theorem Retains.of_frame (h : Retains lib k s) (hfile : t.file = s.file) (hvalues : t.fileValues = s.fileValues)
    (hstored : k.page.isSome → Text.isBlank (t.stored k) = false)
    (hshown : k.page.isSome → Text.isBlank (t.shown k) = false) : Retains lib k t where
  file := by
    rw [hfile]
    exact h.file
  known := by
    rw [hvalues]
    exact h.known
  stored := hstored
  shown := hshown

/-- A load brings a field into the GUI that is set in the file. -/
theorem retains_load {cfg : GuiConfig} {v : k.type} (hload : load lib s.file = .ok cfg) (hset : cfg k = some v)
    (hblank : Text.isBlank (k.kind.format lib v) = false)
    (hitems : ∀ items, k.widget = .select items → s.shown k ∈ items) : Retains lib k (s.loadConfig lib) := by
  have hget : Assoc.get (flatValues lib cfg) k.path = some (k.kind.format lib v) := by
    rw [get_flatValues, hset, Option.map_some]
  rw [App.loadConfig_ok hload]
  refine ⟨⟨cfg, v, hload, hset, hblank⟩, ⟨_, hget, hblank⟩, ?_, ?_⟩
  · intro hk
    rw [App.setAll_stored k hk, hget]
    exact hblank
  · intro hk
    rw [App.setAll_shown k hk, hget]
    exact isBlank_setValue hblank hitems

/-- A save writes the field again: as it is shown, or as it is known of the file. -/
theorem Retains.commit (hlib : lib.Faithful) (hsession : Session lib doc s) (h : Retains lib k s) (p : Page)
    (write : Option String) (clears : Page → Bool) :
    Retains lib k (s.commit lib (s.mergedValues p) write clears) := by
  by_cases hcommits : s.Commits lib (s.mergedValues p) write
  · obtain ⟨cfg, hdone⟩ := App.committed_of_commits clears hsession.distinct hcommits
    generalize s.commit lib (s.mergedValues p) write clears = t at hdone
    -- the text that is sent for the field is not blank, so the field is set again
    obtain ⟨raw, hsent, hblank, hcfg⟩ : ∃ raw, Assoc.get (s.mergedValues p) k.path = some raw ∧
        Text.isBlank raw = false ∧ readField lib k raw = some (cfg k) := by
      by_cases hk : k ∈ p.fields
      · have hpage : k.page.isSome := by
          rw [Key.page_eq_some.mpr hk]
          rfl
        exact ⟨_, by rw [App.get_mergedValues, if_pos hk], h.shown hpage, hdone.page k hk⟩
      · obtain ⟨raw, hknown, hblank⟩ := h.known
        have hsent : Assoc.get (s.mergedValues p) k.path = some raw := by
          rw [App.get_mergedValues, if_neg hk, hknown]
        obtain ⟨value, hvalue⟩ := Option.isSome_iff_exists.mp (hdone.isSome_known hk hknown)
        refine ⟨raw, hsent, hblank, ?_⟩
        rw [hdone.others k hk, App.written, hknown, Option.bind_some, hvalue, Option.getD_some]
    cases hset : cfg k with
    | none =>
      rw [hset, readField_eq_none_iff, hblank] at hcfg
      cases hcfg
    | some v =>
      rw [hset] at hcfg
      refine ⟨⟨clamp cfg, k.kind.clamp v, hdone.loads, by rw [clamp, hset, Option.map_some], ?_⟩, ?_, ?_, ?_⟩
      · rw [isBlank_format_clamp]
        exact isBlank_format_of_readField hlib hcfg
      · exact ⟨raw, by rw [hdone.fileValues, hsent], hblank⟩
      · rw [hdone.stored]
        exact h.stored
      · rw [hdone.shown]
        exact h.shown
  · rw [App.commit_of_not_commits hcommits]
    exact h

/-- A file that is picked is stored for its field, and every text of the page is shown as it is stored. -/
theorem Retains.pickFile (hsession : Session lib doc s) (h : Retains lib k s) {path : String}
    (hclears : ¬ Clears k (.pickFile path)) : Retains lib k (s.pickFile path) := by
  have hstored : k.page.isSome →
      Text.isBlank ((Assoc.get [(Key.sshIdentity.path, path)] k.path).getD (s.stored k)) = false := by
    intro hk
    rw [get_cons]
    by_cases heq : Key.sshIdentity = k
    · subst heq
      rw [if_pos rfl]
      exact Bool.eq_false_of_not_eq_true fun hblank => hclears ⟨rfl, hblank⟩
    · rw [if_neg fun hpath => heq (path_injective hpath)]
      exact h.stored hk
  unfold App.pickFile
  split
  · exact h
  · refine h.of_frame rfl rfl ?_ ?_
    · intro hk
      simp only [App.markDirty, App.setValues]
      split
      · exact hstored hk
      · exact h.stored hk
    · intro hk
      simp only [App.markDirty, App.setValues]
      split
      · exact isBlank_setValue (hstored hk) (hsession.items k)
      · exact h.shown hk

/-! ### Actions -/

theorem Session.step {a : GuiAct} (h : Session lib doc s) (hstep : s.step lib a = some t) : Session lib doc t := by
  cases a with
  | type k text =>
    obtain ⟨hk, rfl⟩ := App.step_type hstep
    refine h.of_frame rfl rfl (items_update h.items ?_)
    intro items hitems
    cases hk.2.symm.trans hitems
  | sync k =>
    obtain ⟨_, rfl⟩ := App.step_sync hstep
    exact h.of_frame rfl rfl h.items
  | toggle k =>
    obtain ⟨hk, value, _, rfl⟩ := App.step_toggle hstep
    refine h.of_frame rfl rfl (items_update h.items ?_)
    intro items hitems
    cases hk.symm.trans hitems
  | choose k item =>
    obtain ⟨items, hk, hitem, rfl⟩ := App.step_choose hstep
    refine h.of_frame rfl rfl (items_update h.items ?_)
    intro items' hitems'
    exact Widget.select.inj (hk.symm.trans hitems') ▸ hitem
  | load =>
    rw [← Option.some.inj hstep]
    exact h.load
  | savePage role write =>
    rw [← Option.some.inj hstep]
    exact h.commit role.page write _
  | saveRuntime write =>
    rw [← Option.some.inj hstep, App.saveRuntime, App.runtimeValues_eq]
    exact h.commit .runtime write _
  | saveAll write =>
    rw [← Option.some.inj hstep, App.saveAll, App.runtimeValues_eq]
    exact h.commit .runtime write _
  | resetDefaults =>
    obtain ⟨cfg, hload⟩ := h.loads
    rw [← Option.some.inj hstep, App.resetPage, hload]
    exact h.of_frame rfl rfl h.items
  | start role ok =>
    rw [← Option.some.inj hstep]
    cases ok with
    | true => exact h.of_frame rfl rfl h.items
    | false => exact h
  | pickFile path =>
    rw [← Option.some.inj hstep, App.pickFile]
    split
    · exact h
    · exact h.of_frame rfl rfl fun k items hk => App.setValues_items (h.items k) _ _ hk

/-- **No action deletes a field that it does not clear.** -/
theorem Retains.step (hlib : lib.Faithful) (hsession : Session lib doc s) (h : Retains lib k s) {a : GuiAct}
    (hclears : ¬ Clears k a) (hstep : s.step lib a = some t) : Retains lib k t := by
  cases a with
  | type k' text =>
    obtain ⟨_, rfl⟩ := App.step_type hstep
    refine h.of_frame rfl rfl h.stored fun hk => isBlank_update (h.shown hk) ?_
    intro heq
    exact Bool.eq_false_of_not_eq_true fun hblank => hclears ⟨heq.symm, hblank⟩
  | sync k' =>
    obtain ⟨_, rfl⟩ := App.step_sync hstep
    refine h.of_frame rfl rfl (fun hk => isBlank_update (h.stored hk) ?_) h.shown
    rintro rfl
    exact h.shown hk
  | toggle k' =>
    obtain ⟨_, value, hvalue, rfl⟩ := App.step_toggle hstep
    have hblank : Text.isBlank value = false := by
      rcases hvalue with rfl | rfl
      · decide
      · decide
    exact h.of_frame rfl rfl (fun hk => isBlank_update (h.stored hk) fun _ => hblank)
      fun hk => isBlank_update (h.shown hk) fun _ => hblank
  | choose k' item =>
    obtain ⟨items, hk', hitem, rfl⟩ := App.step_choose hstep
    exact h.of_frame rfl rfl h.stored fun hk => isBlank_update (h.shown hk) fun _ => isBlank_item hk' item hitem
  | load =>
    rw [← Option.some.inj hstep]
    obtain ⟨cfg, v, hload, hset, hblank⟩ := h.file
    exact retains_load hload hset hblank (hsession.items k)
  | savePage role write =>
    rw [← Option.some.inj hstep]
    exact h.commit hlib hsession role.page write _
  | saveRuntime write =>
    rw [← Option.some.inj hstep, App.saveRuntime, App.runtimeValues_eq]
    exact h.commit hlib hsession .runtime write _
  | saveAll write =>
    rw [← Option.some.inj hstep, App.saveAll, App.runtimeValues_eq]
    exact h.commit hlib hsession .runtime write _
  | resetDefaults =>
    obtain ⟨cfg, hload⟩ := hsession.loads
    rw [← Option.some.inj hstep, App.resetPage, hload]
    exact h.of_frame rfl rfl h.stored h.shown
  | start role ok =>
    rw [← Option.some.inj hstep]
    cases ok with
    | true => exact h.of_frame rfl rfl h.stored h.shown
    | false => exact h
  | pickFile path =>
    rw [← Option.some.inj hstep]
    exact h.pickFile hsession hclears

/-! ### Whole sessions -/

theorem session_start (htidy : Tidy lib doc) : Session lib doc (App.start lib (.toml doc)) := by
  have hblank : Session lib doc (App.blank lib (.toml doc)) := by
    refine ⟨List.nodup_nil, ?_, doc, rfl, htidy, fun _ _ => rfl, fun _ _ _ => rfl⟩
    intro k items hk
    obtain ⟨rfl, rfl⟩ := eq_of_select hk
    exact (by decide : "png" ∈ ["png", "jpeg"])
  exact hblank.load

/-- An entry that is read, and is no blank string, has a text that is not blank. -/
theorem isBlank_format_of_decode (hlib : lib.Faithful) {kind : Kind} {item : Item} {v : kind.type}
    (hread : kind.decode lib item = some v) (hentry : ¬ IsBlankEntry (some item)) :
    Text.isBlank (kind.format lib v) = false := by
  by_cases hkind : kind = .string
  · subst hkind
    rcases item with ⟨value, decor⟩ | _ | _
    · cases value with
      | string text =>
        obtain rfl : text = v := Option.some.inj hread
        exact Bool.eq_false_of_not_eq_true fun hblank => hentry ⟨text, decor, rfl, hblank⟩
      | _ => cases hread
    · cases hread
    · cases hread
  · exact Kind.isBlank_format hlib hkind v

theorem retains_start (hlib : lib.Faithful) (htidy : Tidy lib doc)
    (hset : (entryOf doc k.sectionOf k.name).isSome) (hentry : ¬ IsBlankEntry (entryOf doc k.sectionOf k.name)) :
    Retains lib k (App.start lib (.toml doc)) := by
  obtain ⟨cfg, hloads⟩ := Option.isSome_iff_exists.mp htidy.loads
  have hread := readItem_of_fromDoc (k := k) hloads fun item hitem => htidy.entriesOf hitem
  obtain ⟨item, hitem⟩ := Option.isSome_iff_exists.mp hset
  rw [hitem] at hread hentry
  obtain ⟨v, hv, hcfg⟩ := Option.map_eq_some_iff.mp hread
  refine retains_load (load_toml.mpr hloads) hcfg.symm (isBlank_format_of_decode hlib hv hentry) ?_
  intro items hk
  obtain ⟨rfl, rfl⟩ := eq_of_select hk
  exact (by decide : "png" ∈ ["png", "jpeg"])

/-- A field that is set when the file is loaded has an entry in it. -/
theorem Retains.isSome_entry (h : Retains lib k s) (hfile : s.file = .toml doc) (htidy : Tidy lib doc) :
    (entryOf doc k.sectionOf k.name).isSome := by
  obtain ⟨cfg, v, hload, hset, _⟩ := h.file
  rw [hfile] at hload
  have hread := readItem_of_fromDoc (k := k) (load_toml.mp hload) fun item hitem => htidy.entriesOf hitem
  cases hentry : entryOf doc k.sectionOf k.name with
  | some item => rfl
  | none =>
    rw [hentry, hset] at hread
    cases hread

/-- **What saves and sessions keep of a document.** A save does what is expected of it exactly when it does not go
    through or the document is tidy. Over a tidy document a session keeps what the GUI does not know, and every
    setting that it does not clear, blank strings apart. -/
theorem keeps_written (lib : Library) (hlib : lib.Faithful) (doc : Table) :
    (∀ values write, SaveKeeps lib doc values (saveValues lib (.toml doc) values write) ↔
      (AllRead lib values → write = none → Tidy lib doc)) ∧
    (Tidy lib doc → ∀ as s, run (App.step lib) (App.start lib (.toml doc)) as = some s →
      ∃ doc', s.file = .toml doc' ∧ KeepsUnknown doc doc' ∧
        ∀ k : Key, (entryOf doc k.sectionOf k.name).isSome →
          ¬ IsBlankEntry (entryOf doc k.sectionOf k.name) → (∀ a ∈ as, ¬ Clears k a) →
            (entryOf doc' k.sectionOf k.name).isSome) := by
  refine ⟨fun values write => saveKeeps_iff, ?_⟩
  intro htidy as s hrun
  have hstart := session_start htidy
  obtain ⟨doc', hfile, htidy', hkeeps⟩ := (run_inv_all (fun _ _ _ h hstep => h.step hstep) hstart hrun).file
  refine ⟨doc', hfile, hkeeps, ?_⟩
  intro k hset hentry hclears
  have hretains : Session lib doc s ∧ Retains lib k s :=
    run_inv (I := fun s => Session lib doc s ∧ Retains lib k s)
      (fun _ _ _ h hnot hstep => ⟨h.1.step hstep, h.2.step hlib h.1 hnot hstep⟩)
      ⟨hstart, retains_start hlib htidy hset hentry⟩ (meets_of_forall (fun _ a ha => hclears a ha) _) hrun
  exact hretains.2.isSome_entry hfile htidy'

end Sessions

/-- A document with an inline section, and with keys that the GUI does not know. -/
def operatorDoc : Table :=
  [("client", .table [("relay", .value (.string "host:7000") ""), ("theme", .value (.string "dark") "")]),
    ("server", .value (.inlineTable [("token", .string "old")]) ""), ("notes", .value (.integer 1) "")]

theorem operatorDoc_tidy : Tidy Library.coded operatorDoc where
  loads := rfl
  sections s item hitem := by
    cases s with
    | client => exact .inl ⟨_, (Option.some.inj hitem).symm⟩
    | server =>
      refine .inr ⟨_, _, (Option.some.inj hitem).symm, ?_⟩
      intro name hname
      have hne : "token" ≠ name := (hname .serverToken rfl).symm
      change Assoc.get [("token", Item.value (.string "old") "")] name = none
      rw [get_cons, if_neg hne]
      rfl
    | ssh => cases hitem
    | runtime => cases hitem

/-- The token is changed. -/
def tokenChanged : List GuiAct := [.type .serverToken "new", .savePage .server none]

theorem keeps_written_operatorDoc : ∃ s doc',
    run (App.step Library.coded) (App.start Library.coded (.toml operatorDoc)) tokenChanged = some s ∧
      s.file = .toml doc' ∧ KeepsUnknown operatorDoc doc' ∧ (entryOf doc' .client "relay").isSome := by
  obtain ⟨s, hrun⟩ : ∃ s,
      run (App.step Library.coded) (App.start Library.coded (.toml operatorDoc)) tokenChanged = some s :=
    ⟨_, rfl⟩
  obtain ⟨doc', hfile, hkeeps, hknown⟩ :=
    (keeps_written Library.coded Library.coded_faithful operatorDoc).2 operatorDoc_tidy tokenChanged s hrun
  refine ⟨s, doc', hrun, hfile, hkeeps, hknown .clientRelay rfl ?_ ?_⟩
  · rintro ⟨text, decor, hentry, hblank⟩
    cases hentry
    exact absurd hblank (by decide)
  · intro a ha
    rw [tokenChanged, List.mem_pair] at ha
    rcases ha with rfl | rfl
    · rintro ⟨hk, _⟩
      cases hk
    · exact id

/-- A display that is no number, next to a relay. -/
def mistypedDoc : Table :=
  [("client", .table [("relay", .value (.string "host:7000") ""), ("display", .value (.string "x") "")])]

/-- An inline section with a key that the GUI does not know. -/
def inlineDoc : Table :=
  [("client", .value (.inlineTable [("relay", .string "host:7000"), ("theme", .string "dark")]) "")]

/-- A token of one blank. -/
def blankDoc : Table := [("server", .table [("token", .value (.string " ") "")])]

/-- A save of another key deletes the relay of a document that does not load, and the unknown key of an inline
    section; a session that clears nothing deletes a blank token. -/
theorem relay_deleted :
    (∃ stored doc', saveValues Library.coded (.toml mistypedDoc) [("server.token", "secret")] none =
        (.ok stored, .toml doc') ∧
      (entryOf mistypedDoc .client "relay").isSome ∧ entryOf doc' .client "relay" = none) ∧
    (∃ stored doc', saveValues Library.coded (.toml inlineDoc) [("server.token", "secret")] none =
        (.ok stored, .toml doc') ∧
      (entryOf inlineDoc .client "theme").isSome ∧ entryOf doc' .client "theme" = none) ∧
    ∃ s doc', run (App.step Library.coded) (App.start Library.coded (.toml blankDoc)) [.savePage .client none] =
        some s ∧ s.file = .toml doc' ∧
      (entryOf blankDoc .server "token").isSome ∧ entryOf doc' .server "token" = none :=
  ⟨⟨_, _, rfl, rfl, rfl⟩, ⟨_, _, rfl, rfl, rfl⟩, ⟨_, _, rfl, rfl, rfl, rfl⟩⟩

end RemoteX11.Gui
