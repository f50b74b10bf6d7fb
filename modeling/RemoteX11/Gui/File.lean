/-
  The configuration file (`settings/io.rs`, `settings/error.rs`).

  `load` reads the fields out of a document, and `save` edits the document that is there: the sections become
  tables, the fields are set or removed in them, and the rest stays. `fromDoc_applyTo` says what is read of a
  document that was edited: an integer above the largest signed one was written as that one.
-/
import RemoteX11.Gui.Flat

namespace RemoteX11.Gui

open RemoteX11.Lib RemoteX11.Lib.Toml

inductive ConfigError where
  | io (message : String)
  | parse (line : Nat) (message : String)
  deriving DecidableEq, Repr

/-- `Display`. -/
def ConfigError.text : ConfigError → String
  | .io message => "配置读写失败：" ++ message
  | .parse 0 message => "配置解析失败：" ++ message
  | .parse line message => "配置第 " ++ toString line ++ " 行解析失败：" ++ message

/-- What is found at the path of the file. -/
inductive File where
  | missing
  | unreadable (message : String)
  /-- a text that is no TOML, with the line and the message of the parser -/
  | broken (line : Nat) (message : String)
  | toml (doc : Table)

/-! ## Reading -/

/-- A value as a field of its kind takes it; `none` is a type error. -/
def Kind.decode (lib : Library) : (kind : Kind) → Item → Option kind.type
  | .string, .value (.string s) _ => some s
  | .uint bits, .value (.integer i) _ =>
    if 0 ≤ i.toInt ∧ i.toInt < 2 ^ bits then some (BitVec.ofInt bits i.toInt) else none
  | .boolean, .value (.boolean b) _ => some b
  | .float, .value (.float x) _ => some x
  | .float, .value (.integer i) _ => some (lib.floats.ofInt i)
  | .argv, .value (.array values) _ => values.mapM Value.asStr
  | .argv, .arrayOfTables [] => some []
  | _, _ => none

/-- The entries of a table, inline or not. -/
def entriesOf : Item → Option Table
  | .table entries => some entries
  | .value (.inlineTable entries) _ => some (entries.map fun e => (e.1, .value e.2 ""))
  | _ => none

/-- An entry as a field takes it: a value, none, or one of another type. -/
def Kind.readItem (lib : Library) (kind : Kind) : Option Item → Option (Option kind.type)
  | some item => (kind.decode lib item).map some
  | none => some none

def readEntry (lib : Library) (entries : Table) (k : Key) : Option (Option k.type) :=
  k.kind.readItem lib (Assoc.get entries k.name)

/-- The fields of a section; keys that are not known are passed over. -/
def readFields (lib : Library) (s : Section) (entries : Table) : Option GuiConfig :=
  if s.fields.all fun k => (readEntry lib entries k).isSome then
    some fun k => (readEntry lib entries k).getD none
  else none

def readSection (lib : Library) (doc : Table) (s : Section) : Option GuiConfig :=
  match Assoc.get doc s.name with
  | none => some .default
  | some item =>
    match entriesOf item with
    | some entries => readFields lib s entries
    | none => lib.oddSection s item

def Section.all : List Section := [client, server, ssh, runtime]

/-- `from_str::<GuiConfig>`, of a text that is TOML. -/
def fromDoc (lib : Library) (doc : Table) : Option GuiConfig :=
  if Section.all.all fun s => (readSection lib doc s).isSome then
    some fun k => (readSection lib doc k.sectionOf).getD .default k
  else none

/-- `GuiConfig::load`. -/
def load (lib : Library) : File → Except ConfigError GuiConfig
  | .missing => .ok .default
  | .unreadable message => .error (.io message)
  | .broken line message => .error (.parse line message)
  | .toml doc =>
    match fromDoc lib doc with
    | some cfg => .ok cfg
    | none => .error (.parse (lib.typeError doc).1 (lib.typeError doc).2)

theorem load_toml {lib : Library} {doc : Table} {cfg : GuiConfig} :
    load lib (.toml doc) = .ok cfg ↔ fromDoc lib doc = some cfg := by
  rw [load]
  cases fromDoc lib doc with
  | none => simp
  | some cfg' => simp

/-! ## Writing -/

/-- An integer above the largest signed one becomes that one. -/
def intValue (n : Nat) : Int64 := if n < 2 ^ 63 then Int64.ofNat n else Int64.maxValue

/-- `set_str`, `set_int`, `set_usize`, `set_bool`, `set_float` and `set_argv`: what is written for a value. -/
def Kind.encode : (kind : Kind) → kind.type → Value
  | .string, s => .string s
  | .uint _, v => .integer (intValue v.toNat)
  | .boolean, b => .boolean b
  | .float, x => .float x
  | .argv, args => .array (args.map .string)

/-- A value replaces a value where it stands, with the comment there; it replaces a table as a whole. -/
def assign (table : Table) (key : String) : Option Value → Table
  | none => Assoc.remove table key
  | some new =>
    match Assoc.get table key with
    | some (.value _ decor) => insert table key (.value new decor)
    | _ => insert table key (.value new "")

/-- `write_into`, for these fields. -/
def writeFields (cfg : GuiConfig) (ks : List Key) (table : Table) : Table :=
  ks.foldl (fun table k => assign table k.name ((cfg k).map k.kind.encode)) table

def isUnset (cfg : GuiConfig) (s : Section) : Bool := s.fields.all fun k => (cfg k).isNone

/-- `ensure_table`: what a section holds before it is written. -/
def ensureTable : Option Item → Table
  | some (.table entries) => entries
  | _ => []

def writeSection (cfg : GuiConfig) (doc : Table) (s : Section) : Table :=
  let old := Assoc.get doc s.name
  if old.isNone && isUnset cfg s then doc
  else insert doc s.name (.table (writeFields cfg s.fields (ensureTable old)))

def applyTo (cfg : GuiConfig) (doc : Table) : Table := Section.all.foldl (writeSection cfg) doc

/-- What is left to do once the document is there: `write` is the error of the file system, if it has one. -/
def finishSave (cfg : GuiConfig) (file : File) (doc : Table) (write : Option String) :
    Except ConfigError Unit × File :=
  match write with
  | some message => (.error (.io message), file)
  | none => (.ok (), .toml (applyTo cfg doc))

/-- `GuiConfig::save`, and the file afterwards. -/
def save (cfg : GuiConfig) (file : File) (write : Option String) : Except ConfigError Unit × File :=
  match file with
  | .missing => finishSave cfg file [] write
  | .unreadable message => (.error (.io message), file)
  | .broken line message => (.error (.parse line message), file)
  | .toml doc => finishSave cfg file doc write

/-! ## What is written -/

section Written

variable {lib : Library} {cfg : GuiConfig} {table doc : Table} {key name : String}

/-- An entry that was assigned this value, or removed. -/
def Holds (new : Option Value) (entry : Option Item) : Prop :=
  match new with
  | none => entry = none
  | some v => ∃ decor, entry = some (.value v decor)

theorem get_assign_self (new : Option Value) : Holds new (Assoc.get (assign table key new) key) := by
  unfold assign Holds
  cases new with
  | none =>
    change Assoc.get (Assoc.remove table key) key = none
    rw [get_remove, if_pos rfl]
  | some v =>
    simp only
    split
    · exact ⟨_, by rw [get_insert, if_pos rfl]⟩
    · exact ⟨_, by rw [get_insert, if_pos rfl]⟩

theorem get_assign_of_ne (h : name ≠ key) (new : Option Value) :
    Assoc.get (assign table key new) name = Assoc.get table name := by
  unfold assign
  cases new with
  | none =>
    change Assoc.get (Assoc.remove table key) name = _
    rw [get_remove, if_neg h]
  | some v =>
    simp only
    split
    · rw [get_insert, if_neg h]
    · rw [get_insert, if_neg h]

/-- A name that no field has stays as it is. -/
theorem get_writeFields_of_not_mem {ks : List Key} (h : name ∉ ks.map Key.name) :
    Assoc.get (writeFields cfg ks table) name = Assoc.get table name := by
  unfold writeFields
  induction ks generalizing table with
  | nil => rfl
  | cons k ks ih =>
    rw [List.map_cons, List.mem_cons, not_or] at h
    rw [List.foldl_cons, ih h.2, get_assign_of_ne h.1]

/-- A field that is written holds its value. -/
theorem get_writeFields (cfg : GuiConfig) (table : Table) {ks : List Key} (hdistinct : (ks.map Key.name).Nodup)
    {k : Key} (hk : k ∈ ks) :
    Holds ((cfg k).map k.kind.encode) (Assoc.get (writeFields cfg ks table) k.name) := by
  induction ks generalizing table with
  | nil => exact absurd hk List.not_mem_nil
  | cons k' ks ih =>
    obtain ⟨hnotMem, hrest⟩ := List.nodup_cons.mp hdistinct
    have hcons : writeFields cfg (k' :: ks) table =
        writeFields cfg ks (assign table k'.name ((cfg k').map k'.kind.encode)) := rfl
    rw [hcons]
    rcases List.mem_cons.mp hk with rfl | hk
    · rw [get_writeFields_of_not_mem hnotMem]
      exact get_assign_self _
    · exact ih _ hrest hk

/-- What a section is afterwards. -/
def sectionAfter (cfg : GuiConfig) (s : Section) (old : Option Item) : Option Item :=
  if old.isNone && isUnset cfg s then none
  else some (.table (writeFields cfg s.fields (ensureTable old)))

theorem get_writeSection_self (s : Section) :
    Assoc.get (writeSection cfg doc s) s.name = sectionAfter cfg s (Assoc.get doc s.name) := by
  unfold writeSection sectionAfter
  cases hskip : (Assoc.get doc s.name).isNone && isUnset cfg s with
  | true =>
    rw [Bool.and_eq_true, Option.isNone_iff_eq_none] at hskip
    simp [hskip]
  | false => simp [hskip, get_insert]

theorem get_writeSection_of_ne {s : Section} (h : name ≠ s.name) :
    Assoc.get (writeSection cfg doc s) name = Assoc.get doc name := by
  unfold writeSection
  simp only
  split
  · rfl
  · rw [get_insert, if_neg h]

theorem get_foldl_writeSection {sections : List Section} (h : ∀ s ∈ sections, name ≠ s.name) :
    Assoc.get (sections.foldl (writeSection cfg) doc) name = Assoc.get doc name := by
  induction sections generalizing doc with
  | nil => rfl
  | cons s sections ih =>
    obtain ⟨hs, hsections⟩ := List.forall_mem_cons.mp h
    rw [List.foldl_cons, ih hsections, get_writeSection_of_ne hs]

/-- **A key of the document that is no section stays as it is.** -/
theorem get_applyTo_of_ne (h : ∀ s : Section, name ≠ s.name) :
    Assoc.get (applyTo cfg doc) name = Assoc.get doc name :=
  get_foldl_writeSection fun s _ => h s

/-- **A section is written over what it was.** -/
theorem get_applyTo (s : Section) :
    Assoc.get (applyTo cfg doc) s.name = sectionAfter cfg s (Assoc.get doc s.name) := by
  have hsplit : ∃ before behind, Section.all = before ++ s :: behind ∧ (∀ s' ∈ before, s.name ≠ s'.name) ∧
      ∀ s' ∈ behind, s.name ≠ s'.name := by
    cases s with
    | client => exact ⟨[], [.server, .ssh, .runtime], rfl, by decide, by decide⟩
    | server => exact ⟨[.client], [.ssh, .runtime], rfl, by decide, by decide⟩
    | ssh => exact ⟨[.client, .server], [.runtime], rfl, by decide, by decide⟩
    | runtime => exact ⟨[.client, .server, .ssh], [], rfl, by decide, by decide⟩
  obtain ⟨before, behind, hall, hbefore, hbehind⟩ := hsplit
  rw [applyTo, hall, List.foldl_append, List.foldl_cons, get_foldl_writeSection hbehind,
    get_writeSection_self, get_foldl_writeSection hbefore]

end Written

/-! ## What is read of it -/

section Reread

variable {lib : Library} {cfg : GuiConfig} {doc : Table}

/-- A value as the file can hold it. -/
def Kind.clamp : (kind : Kind) → kind.type → kind.type
  | .uint bits, v => if v.toNat < 2 ^ 63 then v else BitVec.ofNat bits (2 ^ 63 - 1)
  | .string, s => s
  | .boolean, b => b
  | .float, x => x
  | .argv, args => args

def clamp (cfg : GuiConfig) : GuiConfig := fun k => (cfg k).map k.kind.clamp

theorem decode_encode (kind : Kind) (v : kind.type) (decor : String) :
    kind.decode lib (.value (kind.encode v) decor) = some (kind.clamp v) := by
  cases kind with
  | string => rfl
  | boolean => rfl
  | float => rfl
  | argv => exact Value.mapM_asStr v
  | uint bits =>
    rw [Kind.encode, Kind.decode, Kind.clamp, intValue]
    by_cases h : v.toNat < 2 ^ 63
    · rw [if_pos h, if_pos h, Int64.toInt_ofNat_of_lt h, BitVec.ofInt_natCast, BitVec.ofNat_toNat,
        BitVec.setWidth_eq, if_pos ⟨Int.natCast_nonneg _, by exact_mod_cast v.isLt⟩]
    · have hmax : Int64.maxValue.toInt = ((2 ^ 63 - 1 : Nat) : Int) := rfl
      have hbits : 2 ^ 63 - 1 < 2 ^ bits := by
        have hlt := v.isLt
        omega
      rw [if_neg h, if_neg h, hmax, BitVec.ofInt_natCast,
        if_pos ⟨Int.natCast_nonneg _, by exact_mod_cast hbits⟩]

theorem isUnset_iff (s : Section) : isUnset cfg s ↔ ∀ k, k.sectionOf = s → cfg k = none := by
  unfold isUnset
  rw [List.all_eq_true]
  constructor
  · intro h k hk
    exact Option.isNone_iff_eq_none.mp (h k ((Key.mem_fields k s).mpr hk))
  · intro h k hk
    exact Option.isNone_iff_eq_none.mpr (h k ((Key.mem_fields k s).mp hk))

/-- A field is read of its section as it was written there. -/
theorem readEntry_writeFields {table : Table} (k : Key) :
    readEntry lib (writeFields cfg k.sectionOf.fields table) k = some (clamp cfg k) := by
  have hholds := get_writeFields cfg table k.sectionOf.names_nodup
    ((Key.mem_fields k _).mpr rfl)
  unfold readEntry clamp
  cases hset : cfg k with
  | none =>
    rw [hset] at hholds
    rw [show Assoc.get _ k.name = none from hholds]
    rfl
  | some v =>
    rw [hset] at hholds
    obtain ⟨decor, hentry⟩ := hholds
    rw [hentry]
    rw [Kind.readItem, decode_encode, Option.map_some, Option.map_some]

theorem entriesOf_table (entries : Table) : entriesOf (.table entries) = some entries := by
  rw [entriesOf]

theorem readSection_applyTo (lib : Library) (cfg : GuiConfig) (doc : Table) (s : Section) :
    ∃ fields, readSection lib (applyTo cfg doc) s = some fields ∧
      ∀ k, k.sectionOf = s → fields k = clamp cfg k := by
  unfold readSection
  rw [get_applyTo, sectionAfter]
  by_cases hskip : (Assoc.get doc s.name).isNone && isUnset cfg s
  · rw [if_pos hskip]
    rw [Bool.and_eq_true] at hskip
    refine ⟨.default, rfl, ?_⟩
    intro k hk
    rw [clamp, (isUnset_iff s).mp hskip.2 k hk]
    rfl
  · rw [if_neg hskip]
    simp only [entriesOf_table]
    have hread : ∀ k : Key, k.sectionOf = s →
        readEntry lib (writeFields cfg s.fields (ensureTable (Assoc.get doc s.name))) k =
          some (clamp cfg k) := by
      intro k hk
      subst hk
      exact readEntry_writeFields k
    have hall : (s.fields.all fun k => (readEntry lib
        (writeFields cfg s.fields (ensureTable (Assoc.get doc s.name))) k).isSome) = true := by
      rw [List.all_eq_true]
      intro k hk
      rw [hread k ((Key.mem_fields k s).mp hk)]
      rfl
    refine ⟨_, by rw [readFields, if_pos hall], ?_⟩
    intro k hk
    simp only [hread k hk, Option.getD_some]

/-- **A document that was edited is read as the configuration, its integers cut to the largest signed one.** -/
theorem fromDoc_applyTo : fromDoc lib (applyTo cfg doc) = some (clamp cfg) := by
  have hall : (Section.all.all fun s => (readSection lib (applyTo cfg doc) s).isSome) = true := by
    rw [List.all_eq_true]
    intro s _
    obtain ⟨fields, hfields, _⟩ := readSection_applyTo lib cfg doc s
    rw [hfields]
    rfl
  rw [fromDoc, if_pos hall]
  congr 1
  funext k
  obtain ⟨fields, hfields, hclamp⟩ := readSection_applyTo lib cfg doc k.sectionOf
  rw [hfields, Option.getD_some, hclamp k rfl]

theorem clamp_eq_self_iff {kind : Kind} {v : kind.type} : kind.clamp v = v ↔ kind.Storable v := by
  cases kind with
  | uint bits =>
    unfold Kind.clamp Kind.Storable
    by_cases h : v.toNat < 2 ^ 63
    · simp only [h, if_true]
    · simp only [h, if_false, iff_false]
      intro heq
      have hbits : 2 ^ 63 - 1 < 2 ^ bits := by
        have hlt := v.isLt
        omega
      have hnat : v.toNat = 2 ^ 63 - 1 := by
        rw [← heq, BitVec.toNat_ofNat, Nat.mod_eq_of_lt hbits]
      omega
  | string => exact iff_of_true rfl trivial
  | boolean => exact iff_of_true rfl trivial
  | float => exact iff_of_true rfl trivial
  | argv => exact iff_of_true rfl trivial

theorem clamp_eq_iff : clamp cfg = cfg ↔ cfg.Storable := by
  constructor
  · intro h k v hv
    have hk : clamp cfg k = cfg k := congrFun h k
    rw [clamp, hv, Option.map_some, Option.some.injEq] at hk
    exact clamp_eq_self_iff.mp hk
  · intro h
    funext k
    rw [clamp]
    cases hset : cfg k with
    | none => rfl
    | some v => rw [Option.map_some, clamp_eq_self_iff.mpr (h k v hset)]

/-- A save that succeeds edits the document that is there, or an empty one. -/
theorem save_ok {file file' : File} {write : Option String} (h : save cfg file write = (.ok (), file')) :
    ∃ doc, (file = .toml doc ∨ file = .missing ∧ doc = []) ∧ file' = .toml (applyTo cfg doc) := by
  have hfinish : ∀ doc, finishSave cfg file doc write = (.ok (), file') → file' = .toml (applyTo cfg doc) := by
    intro doc hdoc
    cases write with
    | none => exact (Prod.mk.inj hdoc).2.symm
    | some message => cases (Prod.mk.inj hdoc).1
  cases file with
  | missing => exact ⟨[], .inr ⟨rfl, rfl⟩, hfinish [] h⟩
  | unreadable message => cases (Prod.mk.inj h).1
  | broken line message => cases (Prod.mk.inj h).1
  | toml doc => exact ⟨doc, .inl rfl, hfinish doc h⟩

/-- A save that fails leaves the file as it is. -/
theorem save_error {file file' : File} {write : Option String} {e : ConfigError}
    (h : save cfg file write = (.error e, file')) : file' = file := by
  have hfinish : ∀ doc, finishSave cfg file doc write = (.error e, file') → file' = file := by
    intro doc hdoc
    cases write with
    | none => cases (Prod.mk.inj hdoc).1
    | some message => exact (Prod.mk.inj hdoc).2.symm
  cases file with
  | missing => exact hfinish [] h
  | unreadable message => exact (Prod.mk.inj h).2.symm
  | broken line message => exact (Prod.mk.inj h).2.symm
  | toml doc => exact hfinish doc h

/-- What a save that succeeds leaves behind is loaded. -/
theorem load_of_save {file file' : File} {write : Option String} (h : save cfg file write = (.ok (), file')) :
    load lib file' = .ok (clamp cfg) := by
  obtain ⟨doc, _, rfl⟩ := save_ok h
  exact load_toml.mpr fromDoc_applyTo

/-- **A configuration that was saved is loaded as it was exactly when none of its integers is above the
    largest signed one.** -/
theorem load_save_iff (lib : Library) (cfg : GuiConfig) (file file' : File) (write : Option String)
    (hsaved : save cfg file write = (.ok (), file')) : load lib file' = .ok cfg ↔ cfg.Storable := by
  rw [load_of_save hsaved, Except.ok.injEq]
  exact clamp_eq_iff

end Reread

/-- A file with a setting, and one that the GUI does not know. -/
def commentedFile : File :=
  .toml [("client", .table [("display", .value (.integer 3) " # mine"), ("theme", .value (.string "dark") "")])]

theorem load_save_iff_commentedFile :
    load Library.coded (save quotedPlayer commentedFile none).2 = .ok quotedPlayer ↔ quotedPlayer.Storable :=
  load_save_iff Library.coded quotedPlayer commentedFile _ none rfl

/-- A pause mark above the largest signed integer. -/
def hugePause : GuiConfig := GuiConfig.default.set .flowPauseBytes (some (BitVec.ofNat 64 (2 ^ 63)))

/-- It is accepted and saved, and loaded as another one. -/
theorem hugePause_cut : validate Library.coded.floats hugePause = [] ∧
    (save hugePause .missing none).1 = .ok () ∧
    load Library.coded (save hugePause .missing none).2 ≠ .ok hugePause := by
  refine ⟨validate_set_default (k := .flowPauseBytes) (Nat.le_of_ble_eq_true rfl), rfl, ?_⟩
  intro h
  have hloaded : load Library.coded (save hugePause .missing none).2 = .ok (clamp hugePause) :=
    load_of_save (show save hugePause .missing none = (.ok (), (save hugePause .missing none).2) from rfl)
  rw [hloaded, Except.ok.injEq, clamp_eq_iff] at h
  have hstorable : (BitVec.ofNat 64 (2 ^ 63)).toNat < 2 ^ 63 := h .flowPauseBytes _ rfl
  exact absurd hstorable (by decide)

end RemoteX11.Gui
