/-
  The flags of the settings pages (`app/actions.rs`, `state.rs`).

  `Honest` says that every page without a flag shows what the file holds. A run of actions keeps it in all its
  states if and only if every action is `Truthful` in its state (`honest_iff`): the flags are set by toggles and
  menus and not by typing, and `save_all` clears those of pages that it does not write.
-/
import RemoteX11.Gui.Pages

namespace RemoteX11.Gui

open RemoteX11.Lib RemoteX11.Lib.Toml

/-- The page shows what the file holds: every text is read as the field. -/
def Shows (lib : Library) (s : App) (p : Page) : Prop :=
  ∃ cfg, load lib s.file = .ok cfg ∧ ∀ k ∈ p.fields, readField lib k (s.shown k) = some (cfg k)

/-- Every page without a flag shows what the file holds. -/
def Honest (lib : Library) (s : App) : Prop := ∀ p, s.dirty p = false → Shows lib s p

/-! ## Actions that are true to the flags -/

/-- The widget of the field can show the value: its text is not blank, TOML, and on the menu. -/
structure Showable (lib : Library) (k : Key) (v : k.type) : Prop where
  not_blank : Text.isBlank (k.kind.format lib v) = false
  clean : k.kind.Clean v
  listed : ∀ items, k.widget = .select items → k.kind.format lib v ∈ items

/-- A load makes the field show this: a value that can be shown, or none in a text that was blank. -/
def Displays (lib : Library) (s : App) (k : Key) : Option k.type → Prop
  | some v => Showable lib k v
  | none => k.widget = .text ∧ Text.isBlank (s.stored k) = true

/-- The text stands for nothing that the file cannot hold. -/
def StorableText (lib : Library) (k : Key) (text : String) : Prop :=
  ∀ v, readField lib k text = some (some v) → k.kind.Storable v

/-- When an action leaves every page without a flag as the file has it. -/
def Truthful (lib : Library) (s : App) : GuiAct → Prop
  | .type k text =>
    ∀ p cfg, k.page = some p → s.dirty p = false → load lib s.file = .ok cfg →
      readField lib k text = some (cfg k)
  | .load =>
    (∀ p, s.dirty p = true) ∨ ∃ cfg, load lib s.file = .ok cfg ∧
      ∀ p, s.dirty p = false → ∀ k ∈ p.fields, Displays lib s k (cfg k)
  | .savePage role write =>
    s.Commits lib (s.mergedValues role.page) write →
      ∀ k ∈ role.page.fields, StorableText lib k (s.shown k)
  | .saveRuntime write =>
    s.Commits lib s.runtimeValues write → ∀ k ∈ Page.runtime.fields, StorableText lib k (s.shown k)
  | .saveAll write =>
    s.Commits lib s.runtimeValues write →
      (∀ k ∈ Page.runtime.fields, StorableText lib k (s.shown k)) ∧
        ∀ p, p ≠ .runtime → s.dirty p = true →
          ∀ k ∈ p.fields, readField lib k (s.shown k) = some (s.written lib k)
  | .sync _ | .toggle _ | .choose _ _ | .resetDefaults | .start _ _ | .pickFile _ => True

/-! ## What is known of the file -/

/-- The values that are known of the file are its values, or their texts. -/
structure FileInv (lib : Library) (s : App) : Prop where
  distinct : (s.fileValues.map Prod.fst).Nodup
  known : ∀ cfg, load lib s.file = .ok cfg → ∀ k raw, Assoc.get s.fileValues k.path = some raw →
    readField lib k raw = some (cfg k) ∨ ∃ v, cfg k = some v ∧ raw = k.kind.format lib v
  unread : (∀ cfg, load lib s.file ≠ .ok cfg) → s.fileValues = []
  items : ∀ k items, k.widget = .select items → s.shown k ∈ items

/-! ## Actions that write nothing -/

section Quiet

variable {lib : Library} {s t : App}

/-- A page that keeps its flag and its texts, over the same file. -/
theorem Honest.of_frame (hs : Honest lib s) (hfile : t.file = s.file)
    (hpages : ∀ p, t.dirty p = false → s.dirty p = false ∧ ∀ k ∈ p.fields, t.shown k = s.shown k) :
    Honest lib t := by
  intro p hp
  obtain ⟨hclean, hshown⟩ := hpages p hp
  obtain ⟨cfg, hload, hfields⟩ := hs p hclean
  refine ⟨cfg, by rw [hfile, hload], ?_⟩
  intro k hk
  rw [hshown k hk]
  exact hfields k hk

theorem FileInv.of_frame (hs : FileInv lib s) (hfile : t.file = s.file) (hvalues : t.fileValues = s.fileValues)
    (hitems : ∀ k items, k.widget = .select items → t.shown k ∈ items) : FileInv lib t where
  distinct := by
    rw [hvalues]
    exact hs.distinct
  known := by
    rw [hvalues, hfile]
    exact hs.known
  unread := by
    rw [hvalues, hfile]
    exact hs.unread
  items := hitems

/-- A text is typed into a field of a page: the page must have a flag, or the text be that of the file. -/
theorem honest_type_iff (hs : Honest lib s) (k : Key) (text : String) :
    Honest lib { s with shown := Function.update s.shown k text } ↔ Truthful lib s (.type k text) := by
  constructor
  · intro h p cfg hp hclean hload
    obtain ⟨cfg', hload', hfields⟩ := h p hclean
    obtain rfl := Except.ok.inj (hload.symm.trans hload')
    have hfield := hfields k (Key.page_eq_some.mp hp)
    change readField lib k (Function.update s.shown k text k) = some (cfg k) at hfield
    rwa [Function.update_self] at hfield
  · intro h p hclean
    obtain ⟨cfg, hload, hfields⟩ := hs p hclean
    refine ⟨cfg, hload, ?_⟩
    intro k' hk'
    change readField lib k' (Function.update s.shown k text k') = some (cfg k')
    by_cases heq : k' = k
    · subst heq
      rw [Function.update_self]
      exact h p cfg (Key.page_eq_some.mpr hk') hclean hload
    · rw [Function.update_of_ne heq]
      exact hfields k' hk'

theorem fileInv_type (hs : FileInv lib s) {k : Key} {text : String} (hk : k.widget = .text) :
    FileInv lib { s with shown := Function.update s.shown k text } := by
  refine hs.of_frame rfl rfl (items_update hs.items ?_)
  intro items hitems
  cases hk.symm.trans hitems

/-- A widget that sets the flag of its page when it changes. -/
theorem honest_update (hs : Honest lib s) (k : Key) (text : String) (stored : Key → String) :
    Honest lib
      ({ s with shown := Function.update s.shown k text, stored := stored }.markDirty k.page) := by
  refine hs.of_frame rfl ?_
  intro p hp
  obtain ⟨hclean, hother⟩ := Bool.or_eq_false_iff.mp hp
  refine ⟨hclean, ?_⟩
  intro k' hk'
  have hne : k' ≠ k := by
    rintro rfl
    exact absurd (Key.page_eq_some.mpr hk') (of_decide_eq_false hother)
  exact Function.update_of_ne hne _ _

theorem fileInv_update (hs : FileInv lib s) {k : Key} {text : String}
    (hitems : ∀ items, k.widget = .select items → text ∈ items) (stored : Key → String) :
    FileInv lib ({ s with shown := Function.update s.shown k text, stored := stored }.markDirty k.page) :=
  hs.of_frame rfl rfl (items_update hs.items hitems)

theorem honest_markDirty (hs : Honest lib s) (p : Option Page) : Honest lib (s.markDirty p) :=
  hs.of_frame rfl fun _ hq => ⟨(Bool.or_eq_false_iff.mp hq).1, fun _ _ => rfl⟩

theorem honest_pickFile (hs : Honest lib s) (path : String) : Honest lib (s.pickFile path) := by
  unfold App.pickFile
  split
  · exact hs
  · refine hs.of_frame rfl ?_
    intro p hp
    obtain ⟨hclean, hother⟩ := Bool.or_eq_false_iff.mp hp
    refine ⟨hclean, ?_⟩
    intro k hk
    have hne : k.page ≠ some .ssh := by
      rw [Key.page_eq_some.mpr hk]
      exact Ne.symm (of_decide_eq_false hother)
    simp only [App.markDirty, App.setValues, hne, if_false]

theorem fileInv_pickFile (hs : FileInv lib s) (path : String) : FileInv lib (s.pickFile path) := by
  unfold App.pickFile
  split
  · exact hs
  · exact hs.of_frame rfl rfl fun k items hk => App.setValues_items (hs.items k) _ _ hk

end Quiet

/-! ## Loads -/

section Loads

variable {lib : Library} {s : App}

/-- The text of a toggle. -/
theorem format_toggle (lib : Library) {k : Key} (hk : k.widget = .toggle) (v : k.type) :
    (k.kind.format lib v = "true" ∨ k.kind.format lib v = "false") ∧ k.kind.Clean v := by
  cases k with
  | sshReconnect | incrementalUplink | imageRecode | audioForward | audioPerApp | flowControl =>
    cases v with
    | false => exact ⟨.inr rfl, trivial⟩
    | true => exact ⟨.inl rfl, trivial⟩
  | _ => cases hk

/-- What the text of a menu is read as. -/
theorem readField_select {k : Key} {items : List String} (hk : k.widget = .select items) {item : String}
    (hitem : item ∈ items) {v : k.type} (h : readField lib k item = some (some v)) :
    k.kind.format lib v = item := by
  have hblank := isBlank_item hk item hitem
  obtain ⟨rfl, _⟩ := eq_of_select hk
  rw [readField, hblank, if_neg (by decide)] at h
  exact (Option.some.inj (Option.some.inj h)).symm

/-- **A load makes a field show its value exactly when it can be shown.** -/
theorem displays_iff (hlib : lib.Faithful) (hs : FileInv lib s) (k : Key) (value : Option k.type) :
    readField lib k (k.widget.setValue ((value.map (k.kind.format lib)).getD (s.stored k)) (s.shown k)) =
      some value ↔ Displays lib s k value := by
  cases value with
  | none =>
    rw [Option.map_none, Option.getD_none]
    cases hwidget : k.widget with
    | text =>
      rw [readField_eq_none_iff]
      exact ⟨fun h => ⟨hwidget, h⟩, fun h => h.2⟩
    | toggle | select items =>
      have hblank : Text.isBlank (k.widget.setValue (s.stored k) (s.shown k)) = false := by
        refine Widget.isBlank_setValue ?_ (fun items hk => hs.items k items hk) fun items hk => isBlank_item hk
        intro htext
        rw [hwidget] at htext
        cases htext
      rw [hwidget] at hblank
      rw [readField_eq_none_iff, hblank]
      refine iff_of_false (by decide) ?_
      rintro ⟨htext, _⟩
      rw [hwidget] at htext
      cases htext
  | some v =>
    rw [Option.map_some, Option.getD_some]
    have hshown : k.widget.setValue (k.kind.format lib v) (s.shown k) = k.kind.format lib v →
        (∀ items, k.widget = .select items → k.kind.format lib v ∈ items) →
        (readField lib k (k.widget.setValue (k.kind.format lib v) (s.shown k)) = some (some v) ↔
          Displays lib s k (some v)) := by
      intro hset hlisted
      rw [hset, readField_format_iff hlib]
      exact ⟨fun h => ⟨h.1, h.2, hlisted⟩, fun h => ⟨h.not_blank, h.clean⟩⟩
    cases hwidget : k.widget with
    | text =>
      rw [← hwidget]
      refine hshown (by rw [hwidget]; rfl) ?_
      intro items hitems
      rw [hwidget] at hitems
      cases hitems
    | toggle =>
      rw [← hwidget]
      refine hshown ?_ ?_
      · rw [hwidget, Widget.setValue]
        rcases (format_toggle lib hwidget v).1 with h | h
        · rw [if_pos h, h]
        · rw [h]
          decide
      · intro items hitems
        rw [hwidget] at hitems
        cases hitems
    | select items =>
      by_cases hmem : k.kind.format lib v ∈ items
      · rw [← hwidget]
        refine hshown (by rw [hwidget, Widget.setValue, if_pos hmem]) ?_
        intro items' hitems'
        rw [hwidget] at hitems'
        cases hitems'
        exact hmem
      · rw [Widget.setValue, if_neg hmem]
        refine iff_of_false ?_ ?_
        · intro h
          have hold := hs.items k items hwidget
          rw [readField_select hwidget hold h] at hmem
          exact hmem hold
        · intro h
          exact hmem (h.listed items hwidget)

theorem honest_load_iff (hlib : lib.Faithful) (hJ : FileInv lib s) :
    Honest lib (s.loadConfig lib) ↔ Truthful lib s .load := by
  cases hload : load lib s.file with
  | error e =>
    rw [App.loadConfig_error hload]
    constructor
    · intro h
      refine .inl fun p => ?_
      by_contra hclean
      obtain ⟨cfg, hloaded, _⟩ := h p (Bool.eq_false_of_not_eq_true hclean)
      cases hload.symm.trans hloaded
    · rintro (hdirty | ⟨cfg, hloaded, _⟩) p hclean
      · exact absurd ((hdirty p).symm.trans hclean) (by decide)
      · cases hload.symm.trans hloaded
  | ok cfg =>
    rw [App.loadConfig_ok hload]
    have hfield : ∀ (p : Page), ∀ k ∈ p.fields, (readField lib k
        ((Page.all.foldl (fun (s : App) p => s.setValues (flatValues lib cfg) p)
          { s with loaded := cfg, fileValues := flatValues lib cfg }).shown k) = some (cfg k) ↔
            Displays lib s k (cfg k)) := by
      intro p k hk
      rw [App.setAll_shown k (by rw [Key.page_eq_some.mpr hk]; rfl), get_flatValues]
      exact displays_iff hlib hJ k (cfg k)
    constructor
    · intro h
      refine .inr ⟨cfg, hload, ?_⟩
      intro p hclean k hk
      obtain ⟨cfg', hload', hfields⟩ := h p hclean
      obtain rfl := Except.ok.inj (hload.symm.trans hload')
      exact (hfield p k hk).mp (hfields k hk)
    · rintro (hdirty | ⟨cfg', hload', hdisplays⟩) p hclean
      · exact absurd ((hdirty p).symm.trans hclean) (by decide)
      · obtain rfl := Except.ok.inj (hload.symm.trans hload')
        exact ⟨cfg, hload, fun k hk => (hfield p k hk).mpr (hdisplays p hclean k hk)⟩

theorem fileInv_load (hJ : FileInv lib s) : FileInv lib (s.loadConfig lib) := by
  cases hload : load lib s.file with
  | error e =>
    rw [App.loadConfig_error hload]
    refine ⟨List.nodup_nil, ?_, fun _ => rfl, App.setAll_items hJ.items []⟩
    intro cfg hloaded
    cases hload.symm.trans hloaded
  | ok cfg =>
    rw [App.loadConfig_ok hload]
    refine ⟨flatValues_nodup, ?_, fun h => absurd hload (h cfg), App.setAll_items hJ.items _⟩
    intro cfg' hload' k raw hraw
    obtain rfl := Except.ok.inj (hload.symm.trans hload')
    obtain ⟨v, hv, rfl⟩ := Option.map_eq_some_iff.mp ((get_flatValues k).symm.trans hraw)
    exact .inr ⟨v, hv, rfl⟩

end Loads

/-! ## Saves -/

section Saves

variable {lib : Library} {s t : App} {p : Page} {cfg : GuiConfig} {clears : Page → Bool}

/-- Two pages have no field in common. -/
theorem not_mem_fields {q : Page} {k : Key} (hne : q ≠ p) (hk : k ∈ q.fields) : k ∉ p.fields := by
  intro hp
  exact hne (Option.some.inj ((Key.page_eq_some.mpr hk).symm.trans (Key.page_eq_some.mpr hp)))

/-- What is written for a field that the page does not show: its value, or none for a value that is blank. -/
theorem written_cases (hlib : lib.Faithful) (hJ : FileInv lib s) {cfg : GuiConfig}
    (hload : load lib s.file = .ok cfg) {k : Key}
    (hread : ∀ raw, Assoc.get s.fileValues k.path = some raw → (readField lib k raw).isSome) :
    s.written lib k = cfg k ∨
      ∃ v, cfg k = some v ∧ Text.isBlank (k.kind.format lib v) = true ∧ s.written lib k = none := by
  unfold App.written
  cases hget : Assoc.get s.fileValues k.path with
  | none =>
    rw [Option.bind_none, Option.getD_none, loadOrDefault, hload]
    exact .inl rfl
  | some raw =>
    rw [Option.bind_some]
    rcases hJ.known cfg hload k raw hget with hvalue | ⟨v, hv, rfl⟩
    · rw [hvalue]
      exact .inl rfl
    · cases hblank : Text.isBlank (k.kind.format lib v) with
      | true =>
        rw [readField_of_blank hblank]
        exact .inr ⟨v, hv, hblank, rfl⟩
      | false =>
        have hsome := hread _ hget
        rw [readField_format_of_not_blank hlib hblank] at hsome ⊢
        by_cases hclean : k.kind.Clean v
        · rw [if_pos hclean, hv]
          exact .inl rfl
        · rw [if_neg hclean] at hsome
          cases hsome

/-- The file can hold what is written for such a field. -/
theorem clamp_written (hlib : lib.Faithful) (hJ : FileInv lib s) {k : Key}
    (hread : ∀ raw, Assoc.get s.fileValues k.path = some raw → (readField lib k raw).isSome) :
    (s.written lib k).map k.kind.clamp = s.written lib k := by
  cases hload : load lib s.file with
  | error e =>
    have hnone : s.written lib k = none := by
      unfold App.written
      rw [hJ.unread (by intro cfg h; cases hload.symm.trans h), loadOrDefault, hload]
      rfl
    rw [hnone, Option.map_none]
  | ok cfg =>
    rcases written_cases hlib hJ hload hread with heq | ⟨_, _, _, hnone⟩
    · rw [heq]
      cases hset : cfg k with
      | none => rfl
      | some v =>
        rw [Option.map_some, clamp_eq_self_iff.mpr (storable_of_load hlib hload k v hset)]
    · rw [hnone, Option.map_none]

/-- A field that the page does not show is loaded as it is written. -/
theorem clamp_others (hlib : lib.Faithful) (hJ : FileInv lib s) (h : App.Committed lib s p clears cfg t) {k : Key}
    (hk : k ∉ p.fields) : clamp cfg k = s.written lib k := by
  rw [clamp, h.others k hk]
  exact clamp_written hlib hJ fun _ hraw => h.isSome_known hk hraw

/-- A field of a page without a flag is loaded as it was sent. -/
theorem clamp_page (h : App.Committed lib s p clears cfg t) (hclears : clears p = true) (ht : Honest lib t) {k : Key}
    (hk : k ∈ p.fields) : clamp cfg k = cfg k := by
  obtain ⟨cfg', hload, hfields⟩ := ht p (by rw [h.dirty, hclears, Bool.not_true, Bool.and_false])
  obtain rfl := Except.ok.inj (h.loads.symm.trans hload)
  have hfield := hfields k hk
  rw [h.shown, h.page k hk, Option.some.injEq] at hfield
  exact hfield.symm

/-- After a save that went through: its page holds nothing that the file cannot hold, and the other pages whose
    flags it clears show what is written for them. -/
theorem honest_committed_iff (hlib : lib.Faithful) (hJ : FileInv lib s) (hI : Honest lib s)
    (h : App.Committed lib s p clears cfg t) (hclears : clears p = true) :
    Honest lib t ↔ (∀ k ∈ p.fields, StorableText lib k (s.shown k)) ∧
      ∀ q, q ≠ p → clears q = true → s.dirty q = true →
        ∀ k ∈ q.fields, readField lib k (s.shown k) = some (s.written lib k) := by
  constructor
  · intro ht
    constructor
    · intro k hk v hv
      have hset : cfg k = some v := Option.some.inj ((h.page k hk).symm.trans hv)
      have hkept := clamp_page h hclears ht hk
      rw [clamp, hset, Option.map_some, Option.some.injEq] at hkept
      exact clamp_eq_self_iff.mp hkept
    · intro q hne hcleared _ k hk
      obtain ⟨cfg', hload, hfields⟩ := ht q (by rw [h.dirty, hcleared, Bool.not_true, Bool.and_false])
      obtain rfl := Except.ok.inj (h.loads.symm.trans hload)
      have hfield := hfields k hk
      rwa [h.shown, clamp_others hlib hJ h (not_mem_fields hne hk)] at hfield
  · rintro ⟨hstorable, hothers⟩ q hq
    refine ⟨clamp cfg, h.loads, ?_⟩
    intro k hk
    rw [h.shown]
    by_cases heq : q = p
    · subst heq
      rw [h.page k hk, clamp]
      cases hset : cfg k with
      | none => rfl
      | some v =>
        rw [Option.map_some, clamp_eq_self_iff.mpr (hstorable k hk v (by rw [h.page k hk, hset]))]
    · have hk' := not_mem_fields heq hk
      rw [clamp_others hlib hJ h hk']
      rw [h.dirty, Bool.and_eq_false_iff, Bool.not_eq_false'] at hq
      cases hdirty : s.dirty q with
      | true =>
        rcases hq with hq | hq
        · cases hdirty.symm.trans hq
        · exact hothers q heq hq hdirty k hk
      | false =>
        -- the page had no flag, so its value has a text and is written as it is
        obtain ⟨old, hload, hfields⟩ := hI q hdirty
        have hfield := hfields k hk
        rcases written_cases hlib hJ hload fun _ hraw => h.isSome_known hk' hraw with hsame | ⟨v, hv, hblank, _⟩
        · rw [hsame]
          exact hfield
        · rw [hv] at hfield
          rw [isBlank_format_of_readField hlib hfield] at hblank
          cases hblank

theorem fileInv_committed (hlib : lib.Faithful) (hJ : FileInv lib s) (h : App.Committed lib s p clears cfg t)
    (hclears : clears p = true) (ht : Honest lib t) : FileInv lib t where
  distinct := by
    rw [h.fileValues]
    exact App.mergedValues_nodup hJ.distinct
  known := by
    intro cfg' hload k raw hraw
    obtain rfl := Except.ok.inj (h.loads.symm.trans hload)
    rw [h.fileValues, App.get_mergedValues] at hraw
    left
    by_cases hk : k ∈ p.fields
    · rw [if_pos hk, Option.some.injEq] at hraw
      rw [← hraw, h.page k hk, clamp_page h hclears ht hk]
    · rw [if_neg hk] at hraw
      obtain ⟨v, hv⟩ := Option.isSome_iff_exists.mp (h.isSome_known hk hraw)
      rw [clamp_others hlib hJ h hk, App.written, hraw, Option.bind_some, hv, Option.getD_some]
  unread hnot := absurd h.loads (hnot _)
  items := by
    rw [h.shown]
    exact hJ.items

/-- **A save that clears the flag of its page, and of others.** -/
theorem honest_commit_iff (p : Page) (write : Option String) (clears : Page → Bool) (hlib : lib.Faithful)
    (hJ : FileInv lib s) (hI : Honest lib s) (hclears : clears p = true) :
    (Honest lib (s.commit lib (s.mergedValues p) write clears) ↔
      (s.Commits lib (s.mergedValues p) write → (∀ k ∈ p.fields, StorableText lib k (s.shown k)) ∧
        ∀ q, q ≠ p → clears q = true → s.dirty q = true →
          ∀ k ∈ q.fields, readField lib k (s.shown k) = some (s.written lib k))) ∧
    (Honest lib (s.commit lib (s.mergedValues p) write clears) →
      FileInv lib (s.commit lib (s.mergedValues p) write clears)) := by
  by_cases hcommits : s.Commits lib (s.mergedValues p) write
  · obtain ⟨cfg, h⟩ := App.committed_of_commits clears hJ.distinct hcommits
    exact ⟨(honest_committed_iff hlib hJ hI h hclears).trans ⟨fun hcond _ => hcond, fun hcond => hcond hcommits⟩,
      fileInv_committed hlib hJ h hclears⟩
  · rw [App.commit_of_not_commits hcommits]
    exact ⟨iff_of_true hI fun h => absurd h hcommits, fun _ => hJ⟩

end Saves

/-! ## Runs -/

section Runs

variable {lib : Library} {s t : App}

theorem fileInv_blank (lib : Library) (file : File) : FileInv lib (App.blank lib file) where
  distinct := List.nodup_nil
  known _ _ _ _ h := by cases h
  unread _ := rfl
  items k items hk := by
    obtain ⟨rfl, rfl⟩ := eq_of_select hk
    exact (by decide : "png" ∈ ["png", "jpeg"])

/-- A page is saved and nothing but its own flag is cleared. -/
theorem honest_commit_own_iff (hlib : lib.Faithful) (hJ : FileInv lib s) (hI : Honest lib s) (p : Page)
    (write : Option String) :
    (Honest lib (s.commit lib (s.mergedValues p) write fun q => q = p) ↔
      (s.Commits lib (s.mergedValues p) write → ∀ k ∈ p.fields, StorableText lib k (s.shown k))) ∧
    (Honest lib (s.commit lib (s.mergedValues p) write fun q => q = p) →
      FileInv lib (s.commit lib (s.mergedValues p) write fun q => q = p)) := by
  obtain ⟨hiff, hinv⟩ := honest_commit_iff p write (fun q => decide (q = p)) hlib hJ hI (decide_eq_true rfl)
  refine ⟨hiff.trans ?_, hinv⟩
  constructor
  · intro h hcommits
    exact (h hcommits).1
  · intro h hcommits
    exact ⟨h hcommits, fun q hne hq => absurd (of_decide_eq_true hq) hne⟩

/-- **An action keeps the flags honest exactly when it is true to them.** -/
theorem step_honest_iff (hlib : lib.Faithful) {a : GuiAct} (hJ : FileInv lib s) (hI : Honest lib s)
    (h : s.step lib a = some t) : (Honest lib t ↔ Truthful lib s a) ∧ (Honest lib t → FileInv lib t) := by
  cases a with
  | type k text =>
    obtain ⟨hk, rfl⟩ := App.step_type h
    exact ⟨honest_type_iff hI k text, fun _ => fileInv_type hJ hk.2⟩
  | sync k =>
    obtain ⟨_, rfl⟩ := App.step_sync h
    exact ⟨iff_of_true (hI.of_frame rfl fun p hp => ⟨hp, fun _ _ => rfl⟩) trivial,
      fun _ => hJ.of_frame rfl rfl hJ.items⟩
  | toggle k =>
    obtain ⟨hk, value, _, rfl⟩ := App.step_toggle h
    refine ⟨iff_of_true (honest_update hI k _ _) trivial, fun _ => fileInv_update hJ ?_ _⟩
    intro items hitems
    rw [hk] at hitems
    cases hitems
  | choose k item =>
    obtain ⟨items, hk, hitem, rfl⟩ := App.step_choose h
    refine ⟨iff_of_true (honest_update hI k item s.stored) trivial, fun _ => fileInv_update hJ ?_ s.stored⟩
    intro items' hitems'
    rw [hk] at hitems'
    exact Widget.select.inj hitems' ▸ hitem
  | load =>
    rw [← Option.some.inj h]
    exact ⟨honest_load_iff hlib hJ, fun _ => fileInv_load hJ⟩
  | savePage role write =>
    rw [← Option.some.inj h]
    exact honest_commit_own_iff hlib hJ hI role.page write
  | saveRuntime write =>
    rw [← Option.some.inj h, App.saveRuntime, Truthful, App.runtimeValues_eq]
    exact honest_commit_own_iff hlib hJ hI .runtime write
  | saveAll write =>
    rw [← Option.some.inj h, App.saveAll, Truthful, App.runtimeValues_eq]
    obtain ⟨hiff, hinv⟩ := honest_commit_iff .runtime write (fun _ => true) hlib hJ hI rfl
    refine ⟨hiff.trans (forall_congr' fun _ => and_congr_right fun _ => ?_), hinv⟩
    exact forall₂_congr fun q _ => ⟨fun h => h rfl, fun h _ => h⟩
  | resetDefaults =>
    rw [← Option.some.inj h, App.resetPage]
    split
    · exact ⟨iff_of_true (hI.of_frame rfl fun p hp => ⟨hp, fun _ _ => rfl⟩) trivial,
        fun _ => hJ.of_frame rfl rfl hJ.items⟩
    · exact ⟨iff_of_true hI trivial, fun _ => hJ⟩
  | start role ok =>
    rw [← Option.some.inj h]
    cases ok with
    | true =>
      exact ⟨iff_of_true (honest_markDirty hI _) trivial, fun _ => hJ.of_frame rfl rfl hJ.items⟩
    | false => exact ⟨iff_of_true hI trivial, fun _ => hJ⟩
  | pickFile path =>
    rw [← Option.some.inj h]
    exact ⟨iff_of_true (honest_pickFile hI path) trivial, fun _ => fileInv_pickFile hJ path⟩

/-- **Every page without a flag shows what the file holds, in all states of a run, exactly when the first load
    and all actions of the run are true to the flags.** -/
theorem honest_iff (lib : Library) (hlib : lib.Faithful) (file : File) (as : List GuiAct) (s : App)
    (hrun : run (App.step lib) (App.start lib file) as = some s) :
    (∀ pre t, pre <+: as → run (App.step lib) (App.start lib file) pre = some t → Honest lib t) ↔
      Truthful lib (App.blank lib file) .load ∧
        Meets (App.step lib) (Truthful lib) (App.start lib file) as := by
  have hblank := fileInv_blank lib file
  have hstart : Honest lib (App.start lib file) ↔ Truthful lib (App.blank lib file) .load :=
    honest_load_iff hlib hblank
  have hstates := fun hI => states_iff_meets_while (I := Honest lib)
    (fun s a t hJ hI h => step_honest_iff hlib hJ hI h) (fileInv_load hblank) hI hrun
  rw [← hstart]
  constructor
  · intro h
    have hI : Honest lib (App.start lib file) := h [] _ List.nil_prefix rfl
    exact ⟨hI, (hstates hI).mp h⟩
  · rintro ⟨hI, hmeets⟩
    exact (hstates hI).mpr hmeets

/-- A file in which every toggle and the menu are set. -/
def filledFile : File :=
  .toml [("ssh", .table [("reconnect", .value (.boolean true) "")]),
    ("runtime", .table [("incremental_uplink", .value (.boolean true) ""), ("image_recode", .value (.boolean false) ""),
      ("image_recode_codec", .value (.string "jpeg") ""), ("audio_forward", .value (.boolean true) ""),
      ("audio_per_app", .value (.boolean false) ""), ("flow_control", .value (.boolean true) "")])]

theorem filledFile_displays : ∃ cfg, load Library.coded filledFile = .ok cfg ∧
    ∀ k : Key, Displays Library.coded (App.blank Library.coded filledFile) k (cfg k) := by
  refine ⟨_, rfl, ?_⟩
  intro k
  cases k with
  | sshReconnect | incrementalUplink | imageRecode | audioForward | audioPerApp | flowControl =>
    exact ⟨(by decide : Text.isBlank _ = false), trivial, fun items h => by cases h⟩
  | imageRecodeCodec =>
    refine ⟨(by decide : Text.isBlank "jpeg" = false), trivial, ?_⟩
    intro items h
    cases h
    exact (by decide : "jpeg" ∈ ["png", "jpeg"])
  | _ => exact ⟨rfl, (by decide : Text.isBlank "" = true)⟩

/-- The server runs, its token is changed, and its page is saved. -/
def tokenSaved : List GuiAct := [.start .server true, .type .serverToken "secret", .savePage .server none]

theorem honest_iff_filledFile : ∃ s,
    run (App.step Library.coded) (App.start Library.coded filledFile) tokenSaved = some s ∧
      ∀ pre t, pre <+: tokenSaved →
        run (App.step Library.coded) (App.start Library.coded filledFile) pre = some t → Honest Library.coded t := by
  obtain ⟨s, hrun⟩ : ∃ s,
      run (App.step Library.coded) (App.start Library.coded filledFile) tokenSaved = some s := ⟨_, rfl⟩
  refine ⟨s, hrun, (honest_iff Library.coded Library.coded_faithful filledFile tokenSaved s hrun).mpr ⟨?_, ?_⟩⟩
  · obtain ⟨cfg, hload, hdisplays⟩ := filledFile_displays
    exact .inr ⟨cfg, hload, fun _ _ k _ => hdisplays k⟩
  · refine ⟨trivial, ?_⟩
    intro t ht
    obtain rfl := Option.some.inj ht
    refine ⟨?_, ?_⟩
    · intro p cfg hp hclean
      cases hp
      cases hclean
    · intro t ht
      obtain rfl := Option.some.inj ht
      refine ⟨?_, fun _ _ => trivial⟩
      intro _ k hk v hv
      cases k with
      | serverListen | serverToken => exact trivial
      | serverX11Port =>
        change readField Library.coded .serverX11Port "" = some (some v) at hv
        rw [readField_of_blank (by decide : Text.isBlank "" = true)] at hv
        cases hv
      | _ => exact absurd hk (by decide)
/-- A token in the form that the file does not hold. -/
theorem not_shows_token {s : App} (cfg : GuiConfig) (hload : load Library.coded s.file = .ok cfg)
    (hshown : s.shown .serverToken = "secret") (hcfg : cfg .serverToken = none) :
    ¬ Shows Library.coded s .server := by
  rintro ⟨cfg', hload', hfields⟩
  obtain rfl := Except.ok.inj (hload.symm.trans hload')
  have htoken := hfields .serverToken (by decide)
  rw [hshown, hcfg, readField_eq_none_iff] at htoken
  exact absurd htoken (by decide)

/-- Typing sets no flag, and saving all clears the flag of a page that it does not write. -/
theorem typedToken_unflagged :
    (∃ s, run (App.step Library.coded) (App.start Library.coded .missing)
        [.type .serverToken "secret"] = some s ∧ s.dirty .server = false ∧ ¬ Shows Library.coded s .server) ∧
      ∃ s, run (App.step Library.coded) (App.start Library.coded .missing)
        [.start .server true, .type .serverToken "secret", .saveAll none] = some s ∧
          s.dirty .server = false ∧ ¬ Shows Library.coded s .server := by
  constructor
  · exact ⟨_, rfl, rfl, not_shows_token .default rfl rfl rfl⟩
  · exact ⟨_, rfl, rfl, not_shows_token _ rfl rfl rfl⟩

end Runs

end RemoteX11.Gui
