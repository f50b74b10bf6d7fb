/-
  The saves and the checks behind the GUI (`backend.rs`).

  `saveValues` loads the file, or takes the defaults where it does not load, takes the values over and saves.
  `KeepsOthers` says of two documents that everything but the named fields is kept; `keepsOthers_iff` that a save
  does this exactly when the document is `Tidy`: it loads, and its sections are tables, or inline tables with no
  key that the GUI does not know.
-/
import RemoteX11.Gui.File

namespace RemoteX11.Gui

open RemoteX11.Lib RemoteX11.Lib.Toml

/-! ## Saving -/

/-- `load_config().unwrap_or_default()`. -/
def loadOrDefault (lib : Library) (file : File) : GuiConfig :=
  match load lib file with
  | .ok cfg => cfg
  | .error _ => .default

/-- `save_values`: the configuration that is stored, or what went wrong, and the file afterwards. -/
def saveValues (lib : Library) (file : File) (values : List (String × String)) (write : Option String) :
    Except String GuiConfig × File :=
  let checked := applyFlatChecked lib (loadOrDefault lib file) values
  match checked.2 with
  | first :: _ => (.error (first.field ++ "：" ++ first.message), file)
  | [] =>
    let cfg := applyFlat lib checked.1 values
    match save cfg file write with
    | (.ok (), file') => (.ok cfg, file')
    | (.error e, file') => (.error e.text, file')

/-- `validate`, over the configuration that is loaded. -/
def validateValues (lib : Library) (loaded : GuiConfig) (values : List (String × String)) :
    List ValidationIssue :=
  let checked := applyFlatChecked lib loaded values
  checked.2 ++ validate lib.floats (applyFlat lib checked.1 values)

section Saving

variable {lib : Library} {file file' : File} {values : List (String × String)} {write : Option String}
  {cfg : GuiConfig}

/-- A save that fails leaves the file as it is. -/
theorem saveValues_error {e : String} (h : saveValues lib file values write = (.error e, file')) :
    file' = file := by
  unfold saveValues at h
  simp only at h
  split at h
  · exact (Prod.mk.inj h).2.symm
  · split at h
    · cases (Prod.mk.inj h).1
    · rename_i hsave
      rw [← (Prod.mk.inj h).2]
      exact save_error hsave

/-- A save that succeeds: every text was taken, and the configuration with the values is what was saved. -/
theorem saveValues_ok (h : saveValues lib file values write = (.ok cfg, file')) :
    AllRead lib values ∧
      cfg = applyFlat lib (applyFlat lib (loadOrDefault lib file) values) values ∧
      save cfg file write = (.ok (), file') := by
  unfold saveValues at h
  simp only at h
  split at h
  · cases (Prod.mk.inj h).1
  · rename_i hissues
    have hread := (applyFlatChecked_issues _ _).mp hissues
    split at h
    · rename_i hsave
      obtain ⟨hcfg, hfile⟩ := Prod.mk.inj h
      have hcfg : applyFlat lib (applyFlatChecked lib (loadOrDefault lib file) values).1 values = cfg :=
        Except.ok.inj hcfg
      rw [hcfg, hfile] at hsave
      exact ⟨hread, hcfg.symm, hsave⟩
    · cases (Prod.mk.inj h).1

theorem applyFlat_of_not_named {k : Key} (base : GuiConfig) (h : ∀ entry ∈ values, ¬ Names entry k) :
    applyFlat lib base values k = base k := by
  unfold applyFlat applyFlatChecked
  rw [foldl_applyEntry_of_not_mem]
  intro hmem
  obtain ⟨entry, hentry, hpath⟩ := List.mem_map.mp hmem
  exact h entry hentry (names_iff.mpr hpath)

/-- **A field after a save that succeeds**, when no path comes twice. -/
theorem saveValues_field (hdistinct : (values.map Prod.fst).Nodup)
    (h : saveValues lib file values write = (.ok cfg, file')) (k : Key) :
    cfg k = ((Assoc.get values k.path).bind (readField lib k)).getD (loadOrDefault lib file k) := by
  rw [(saveValues_ok h).2.1, applyFlat, applyFlatChecked_field hdistinct, applyFlat,
    applyFlatChecked_field hdistinct]
  cases (Assoc.get values k.path).bind (readField lib k) <;> rfl

end Saving

/-! ## What a save keeps -/

/-- An entry of a section. -/
def entryOf (doc : Table) (s : Section) (name : String) : Option Item :=
  ((Assoc.get doc s.name).bind entriesOf).bind fun entries => Assoc.get entries name

/-- No field of the section has this name. -/
def IsUnknown (s : Section) (name : String) : Prop := ∀ k : Key, k.sectionOf = s → name ≠ k.name

/-- An entry that is still there, with the same value. -/
structure KeepsValue (lib : Library) (kind : Kind) (old new : Option Item) : Prop where
  absent : old = none → new = none
  present : ∀ item, old = some item → ∃ item', new = some item' ∧
    (item' = item ∨ ∃ v, kind.decode lib item = some v ∧ kind.decode lib item' = some v)

/-- Everything but the named fields is kept. -/
structure KeepsOthers (lib : Library) (named : Key → Prop) (doc doc' : Table) : Prop where
  top : ∀ name, (∀ s : Section, name ≠ s.name) → Assoc.get doc' name = Assoc.get doc name
  odd : ∀ (s : Section) item, Assoc.get doc s.name = some item → entriesOf item = none →
    Assoc.get doc' s.name = some item
  unknown : ∀ s name, IsUnknown s name → entryOf doc' s name = entryOf doc s name
  known : ∀ k : Key, ¬ named k →
    KeepsValue lib k.kind (entryOf doc k.sectionOf k.name) (entryOf doc' k.sectionOf k.name)

/-- A document that the GUI edits without loss. -/
structure Tidy (lib : Library) (doc : Table) : Prop where
  loads : (fromDoc lib doc).isSome
  sections : ∀ (s : Section) item, Assoc.get doc s.name = some item →
    (∃ entries, item = .table entries) ∨
      ∃ entries decor, item = .value (.inlineTable entries) decor ∧
        ∀ name, IsUnknown s name → entryOf doc s name = none

section Keeping

variable {lib : Library} {cfg : GuiConfig} {doc : Table} {named : Key → Prop} {k : Key}

theorem isUnknown_iff {s : Section} {name : String} : IsUnknown s name ↔ name ∉ s.fields.map Key.name := by
  unfold IsUnknown
  simp only [List.mem_map, not_exists, not_and, Key.mem_fields]
  exact forall₂_congr fun k _ => ⟨Ne.symm, Ne.symm⟩

/-- A section that is written, or one that is not there and has nothing to hold. -/
theorem sectionAfter_cases (cfg : GuiConfig) (s : Section) (old : Option Item) :
    (sectionAfter cfg s old = none ∧ old = none ∧ isUnset cfg s) ∨
      sectionAfter cfg s old = some (.table (writeFields cfg s.fields (ensureTable old))) := by
  unfold sectionAfter
  by_cases hskip : old.isNone && isUnset cfg s
  · rw [if_pos hskip]
    rw [Bool.and_eq_true, Option.isNone_iff_eq_none] at hskip
    exact .inl ⟨rfl, hskip.1, hskip.2⟩
  · rw [if_neg hskip]
    exact .inr rfl

/-- A key that the GUI does not know is kept where the section is a table. -/
theorem entryOf_applyTo_of_unknown {s : Section} {name : String} (h : IsUnknown s name) :
    entryOf (applyTo cfg doc) s name = Assoc.get (ensureTable (Assoc.get doc s.name)) name := by
  unfold entryOf
  rw [get_applyTo]
  rcases sectionAfter_cases cfg s (Assoc.get doc s.name) with ⟨hafter, hold, _⟩ | hafter
  · rw [hafter, hold]
    rfl
  · rw [hafter, Option.bind_some, entriesOf_table, Option.bind_some,
      get_writeFields_of_not_mem (isUnknown_iff.mp h)]

/-- A field holds what the configuration says. -/
theorem entryOf_applyTo (cfg : GuiConfig) (doc : Table) (k : Key) :
    Holds ((cfg k).map k.kind.encode) (entryOf (applyTo cfg doc) k.sectionOf k.name) := by
  unfold entryOf
  rw [get_applyTo]
  rcases sectionAfter_cases cfg k.sectionOf (Assoc.get doc k.sectionOf.name) with ⟨hafter, _, hunset⟩ | hafter
  · rw [hafter, (isUnset_iff k.sectionOf).mp hunset k rfl]
    rfl
  · rw [hafter, Option.bind_some, entriesOf_table, Option.bind_some]
    exact get_writeFields cfg _ k.sectionOf.names_nodup ((Key.mem_fields k _).mpr rfl)

/-- A section that loads. -/
theorem readSection_of_fromDoc (h : fromDoc lib doc = some cfg) (s : Section) :
    ∃ fields, readSection lib doc s = some fields ∧ ∀ k, k.sectionOf = s → cfg k = fields k := by
  unfold fromDoc at h
  split at h
  · rename_i hall
    have hs : s ∈ Section.all := by cases s <;> decide
    obtain ⟨fields, hfields⟩ := Option.isSome_iff_exists.mp (List.all_eq_true.mp hall s hs)
    refine ⟨fields, hfields, ?_⟩
    intro k hk
    subst hk
    rw [← Option.some.inj h]
    simp only [hfields, Option.getD_some]
  · cases h

/-- A field of a section that loads is read of its entry. -/
theorem readEntry_of_fromDoc (h : fromDoc lib doc = some cfg) {k : Key} {item : Item} {entries : Table}
    (hitem : Assoc.get doc k.sectionOf.name = some item) (hentries : entriesOf item = some entries) :
    readEntry lib entries k = some (cfg k) := by
  obtain ⟨fields, hfields, hcfg⟩ := readSection_of_fromDoc h k.sectionOf
  unfold readSection at hfields
  simp only [hitem, hentries] at hfields
  unfold readFields at hfields
  split at hfields
  · rename_i hall
    have hk := List.all_eq_true.mp hall k ((Key.mem_fields k _).mpr rfl)
    obtain ⟨v, hv⟩ := Option.isSome_iff_exists.mp hk
    rw [hcfg k rfl, ← Option.some.inj hfields]
    simp only [hv, Option.getD_some]
  · cases hfields

/-- What is read of a file can be held by it. -/
theorem storable_of_decode {kind : Kind} {item : Item} {v : kind.type} (h : kind.decode lib item = some v) :
    kind.Storable v := by
  cases kind with
  | uint bits =>
    rcases item with ⟨value, decor⟩ | _ | _
    · cases value with
      | integer i =>
        rw [Kind.decode] at h
        split at h
        · rename_i hrange
          have hmax : i.toInt < 2 ^ 63 := i.toInt_lt
          rw [← Option.some.inj h]
          change (BitVec.ofInt bits i.toInt).toNat < 2 ^ 63
          have hcast : ((2 ^ bits : Nat) : Int) = 2 ^ bits := by push_cast; rfl
          rw [BitVec.toNat_ofInt, hcast, Int.emod_eq_of_lt hrange.1 hrange.2]
          omega
        · cases h
      | _ => cases h
    · cases h
    · cases h
  | string => exact trivial
  | boolean => exact trivial
  | float => exact trivial
  | argv => exact trivial

/-- What is loaded of a file can be held by it. -/
theorem storable_of_load (hlib : lib.Faithful) {file : File} {cfg : GuiConfig} (h : load lib file = .ok cfg) :
    cfg.Storable := by
  intro k v hv
  cases file with
  | missing =>
    rw [← Except.ok.inj h] at hv
    cases hv
  | unreadable message => cases h
  | broken line message => cases h
  | toml doc =>
    have hdoc := load_toml.mp h
    obtain ⟨fields, hfields, hcfg⟩ := readSection_of_fromDoc hdoc k.sectionOf
    unfold readSection at hfields
    cases hitem : Assoc.get doc k.sectionOf.name with
    | none =>
      rw [hitem] at hfields
      rw [hcfg k rfl, ← Option.some.inj hfields] at hv
      cases hv
    | some item =>
      cases hentries : entriesOf item with
      | none =>
        simp only [hitem, hentries] at hfields
        rw [hcfg k rfl] at hv
        exact hlib.sections _ _ _ hfields k v hv
      | some entries =>
        have hread := readEntry_of_fromDoc hdoc hitem hentries
        rw [readEntry, hv] at hread
        cases hget : Assoc.get entries k.name with
        | none =>
          rw [hget] at hread
          cases hread
        | some entry =>
          rw [hget] at hread
          obtain ⟨v', hdecode, heq⟩ := Option.map_eq_some_iff.mp hread
          rw [← Option.some.inj heq]
          exact storable_of_decode hdecode

/-- An entry that was read is written again with its value. -/
theorem keepsValue_applyTo {old : Option Item} (hread : k.kind.readItem lib old = some (cfg k)) :
    KeepsValue lib k.kind old (entryOf (applyTo cfg doc) k.sectionOf k.name) := by
  have hholds := entryOf_applyTo cfg doc k
  constructor
  · rintro rfl
    rw [← Option.some.inj hread] at hholds
    exact hholds
  · rintro item rfl
    obtain ⟨v, hv, hsome⟩ := Option.map_eq_some_iff.mp hread
    rw [← hsome] at hholds
    obtain ⟨decor, hentry⟩ := hholds
    refine ⟨_, hentry, .inr ⟨v, hv, ?_⟩⟩
    rw [decode_encode, clamp_eq_self_iff.mpr (storable_of_decode hv)]

/-- The field of a document that loads is read of its entry. -/
theorem readItem_of_fromDoc (hloads : fromDoc lib doc = some cfg)
    (hsections : ∀ item, Assoc.get doc k.sectionOf.name = some item → ∃ entries, entriesOf item = some entries) :
    k.kind.readItem lib (entryOf doc k.sectionOf k.name) = some (cfg k) := by
  unfold entryOf
  cases hitem : Assoc.get doc k.sectionOf.name with
  | none =>
    obtain ⟨fields, hfields, hcfg⟩ := readSection_of_fromDoc hloads k.sectionOf
    unfold readSection at hfields
    rw [hitem] at hfields
    rw [hcfg k rfl, ← Option.some.inj hfields]
    rfl
  | some item =>
    obtain ⟨entries, hentries⟩ := hsections item hitem
    rw [Option.bind_some, hentries, Option.bind_some]
    exact readEntry_of_fromDoc hloads hitem hentries

theorem Tidy.entriesOf (h : Tidy lib doc) {s : Section} {item : Item}
    (hitem : Assoc.get doc s.name = some item) : ∃ entries, entriesOf item = some entries := by
  rcases h.sections s item hitem with ⟨entries, rfl⟩ | ⟨entries, decor, rfl, _⟩
  · exact ⟨entries, entriesOf_table entries⟩
  · exact ⟨_, rfl⟩

/-- **A tidy document keeps all but the named fields**, when those are all that changed. -/
theorem Tidy.keepsOthers {old : GuiConfig} (h : Tidy lib doc) (hloads : fromDoc lib doc = some old)
    (hsame : ∀ k, ¬ named k → cfg k = old k) : KeepsOthers lib named doc (applyTo cfg doc) where
  top name hname := get_applyTo_of_ne hname
  odd s item hitem hodd := by
    obtain ⟨entries, hentries⟩ := h.entriesOf hitem
    rw [hodd] at hentries
    cases hentries
  unknown s name hname := by
    rw [entryOf_applyTo_of_unknown hname]
    cases hitem : Assoc.get doc s.name with
    | none =>
      unfold entryOf
      rw [hitem]
      rfl
    | some item =>
      rcases h.sections s item hitem with ⟨entries, rfl⟩ | ⟨entries, decor, rfl, hknown⟩
      · unfold entryOf
        rw [hitem, Option.bind_some, entriesOf_table, Option.bind_some]
        rfl
      · rw [hknown name hname]
        rfl
  known k hk := by
    refine keepsValue_applyTo ?_
    rw [hsame k hk]
    exact readItem_of_fromDoc hloads fun item hitem => h.entriesOf hitem

/-- A document that keeps what it does not name is tidy. -/
theorem tidy_of_keepsOthers (hloads : (fromDoc lib doc).isSome)
    (h : KeepsOthers lib named doc (applyTo cfg doc)) : Tidy lib doc := by
  refine ⟨hloads, ?_⟩
  intro s item hitem
  have hafter : Assoc.get (applyTo cfg doc) s.name =
      some (.table (writeFields cfg s.fields (ensureTable (Assoc.get doc s.name)))) := by
    rw [get_applyTo]
    rcases sectionAfter_cases cfg s (Assoc.get doc s.name) with ⟨_, hold, _⟩ | hafter
    · rw [hitem] at hold
      cases hold
    · exact hafter
  cases hentries : Gui.entriesOf item with
  | none =>
    have hkept := h.odd s item hitem hentries
    rw [hafter, Option.some.injEq] at hkept
    rw [← hkept, entriesOf_table] at hentries
    cases hentries
  | some entries =>
    cases item with
    | table entries => exact .inl ⟨entries, rfl⟩
    | arrayOfTables tables => cases hentries
    | value value decor =>
      cases value with
      | inlineTable entries =>
        refine .inr ⟨entries, decor, rfl, ?_⟩
        intro name hname
        rw [← h.unknown s name hname, entryOf_applyTo_of_unknown hname, hitem]
        rfl
      | _ => cases hentries

/-- The fields that these values are about. -/
def NamedIn (values : List (String × String)) (k : Key) : Prop := ∃ entry ∈ values, Names entry k

/-- **What a save that succeeds does to a document**: the file loaded, or nothing happened to it, and all that
    the values do not name is kept, exactly when the document is tidy. -/
theorem keepsOthers_iff {file' : File} {values : List (String × String)} {write : Option String}
    {stored : GuiConfig} (h : saveValues lib (.toml doc) values write = (.ok stored, file')) :
    ∃ doc', file' = .toml doc' ∧
      (((fromDoc lib doc).isSome ∨ doc' = doc) ∧ KeepsOthers lib (NamedIn values) doc doc' ↔
        Tidy lib doc) := by
  obtain ⟨_, hstored, hsave⟩ := saveValues_ok h
  obtain ⟨doc₀, hfile, hafter⟩ := save_ok hsave
  obtain rfl : doc = doc₀ := by
    rcases hfile with hfile | ⟨hfile, _⟩
    · exact File.toml.inj hfile
    · cases hfile
  refine ⟨_, hafter, ?_⟩
  constructor
  · rintro ⟨hloads, hkeeps⟩
    refine tidy_of_keepsOthers ?_ hkeeps
    rcases hloads with hloads | hsame
    · exact hloads
    · rw [← hsame, fromDoc_applyTo]
      rfl
  · intro htidy
    obtain ⟨old, hloads⟩ := Option.isSome_iff_exists.mp htidy.loads
    refine ⟨.inl htidy.loads, htidy.keepsOthers hloads ?_⟩
    intro k hk
    have hnot : ∀ entry ∈ values, ¬ Names entry k := fun entry hentry hnames => hk ⟨entry, hentry, hnames⟩
    rw [hstored, applyFlat_of_not_named _ hnot, applyFlat_of_not_named _ hnot, loadOrDefault, load, hloads]

end Keeping

end RemoteX11.Gui
