/-
  The configuration as a list of keys and texts, as the form of the GUI has it (`settings/flat.rs`).

  `flatValues` lists the fields that are set, and `applyFlatChecked` takes such a list over into a configuration.
  `readField` says what a text means for a field, and `applyFlatChecked_field` what the field is afterwards.
  `applyFlat_flatValues_iff` says which configurations come back: an argument that holds a control character is
  written as it is, in a string that TOML does not allow it in.
-/
import RemoteX11.Gui.Validate

namespace RemoteX11.Gui

open RemoteX11.Lib RemoteX11.Lib.Toml

/-- What the GUI takes from the TOML library. -/
structure Library where
  floats : FloatText
  /-- `parse::<Value>` -/
  parseValue : String → Option Value
  /-- a section that is neither a table nor an inline table: an array of its fields, or nothing it reads -/
  oddSection : Section → Item → Option GuiConfig
  /-- the line and the message for a document that it does not read -/
  typeError : Table → Nat × String

/-- The library does what its documentation and TOML 1.0 say. -/
structure Library.Faithful (lib : Library) : Prop where
  floats : lib.floats.RoundTrips
  arrays : ReadsArrays lib.parseValue
  sections : ∀ s item fields, lib.oddSection s item = some fields → fields.Storable

/-! ## Texts of values -/

def parseBool (raw : String) : Option Bool :=
  let word := Text.toAsciiLowercase (Text.trim raw)
  if word ∈ ["true", "1", "yes", "on"] then some true
  else if word ∈ ["false", "0", "no", "off"] then some false
  else none

def parseArgv (lib : Library) (raw : String) : Option (List String) :=
  let trimmed := Text.trim raw
  if trimmed.toList.head? = some '[' then
    match lib.parseValue trimmed with
    | some (.array values) => values.mapM Value.asStr
    | _ => none
  else some (Text.splitWhitespace trimmed)

/-- A character of an argument. Quotes and backslashes are escaped, and nothing else. -/
def escapeChar : Char → List Char
  | '"' => ['\\', '"']
  | '\\' => ['\\', '\\']
  | c => [c]

def quoteArg (arg : String) : List Char := '"' :: (arg.toList.flatMap escapeChar ++ ['"'])

/-- The arguments behind the first one, and the bracket. -/
def moreArgs : List String → List Char
  | [] => [']']
  | arg :: args => ',' :: ' ' :: (quoteArg arg ++ moreArgs args)

def formatArgv : List String → String
  | [] => "[]"
  | arg :: args => String.ofList ('[' :: (quoteArg arg ++ moreArgs args))

/-- `get`, for a value. -/
def Kind.format (lib : Library) : (kind : Kind) → kind.type → String
  | .string, s => s
  | .uint _, v => toString v.toNat
  | .boolean, b => if b then "true" else "false"
  | .float, x => lib.floats.format x
  | .argv, args => formatArgv args

/-- The `parse_*` function of a kind. -/
def Kind.parse (lib : Library) : (kind : Kind) → String → Option kind.type
  | .string, raw => some raw
  | .uint bits, raw => Text.parseUint bits (Text.trim raw)
  | .boolean, raw => parseBool raw
  | .float, raw => lib.floats.parse (Text.trim raw)
  | .argv, raw => parseArgv lib raw

/-- The slot afterwards, and whether the text was accepted. -/
def withParsed {α : Type} (slot : Option α) (raw : String) (parse : String → Option α) : Option α × Bool :=
  if Text.isBlank raw then (none, true)
  else
    match parse raw with
    | some v => (some v, true)
    | none => (slot, false)

/-! ## Lists of keys and texts -/

/-- The field that a path names. -/
def keyOf (path : String) : Option Key :=
  (Text.splitOnce '.' path).bind fun parts =>
    Key.all.find? fun k => k.sectionOf.name = parts.1 ∧ k.name = parts.2

def flatValue (lib : Library) (cfg : GuiConfig) (k : Key) : Option (String × String) :=
  (cfg k).map fun v => (k.path, k.kind.format lib v)

def flatValues (lib : Library) (cfg : GuiConfig) : List (String × String) :=
  Key.all.filterMap (flatValue lib cfg)

/-- The turn of `apply_flat_checked` for one entry; a path that names no field is passed over. -/
def applyEntry (lib : Library) (acc : GuiConfig × List ValidationIssue) (entry : String × String) :
    GuiConfig × List ValidationIssue :=
  match keyOf entry.1 with
  | none => acc
  | some k =>
    let result := withParsed (acc.1 k) entry.2 (k.kind.parse lib)
    (acc.1.set k result.1,
      if result.2 then acc.2
      else acc.2 ++ [⟨entry.1, "无法解析为合法取值（当前 \"" ++ entry.2 ++ "\"）"⟩])

def applyFlatChecked (lib : Library) (cfg : GuiConfig) (values : List (String × String)) :
    GuiConfig × List ValidationIssue :=
  values.foldl (applyEntry lib) (cfg, [])

def applyFlat (lib : Library) (cfg : GuiConfig) (values : List (String × String)) : GuiConfig :=
  (applyFlatChecked lib cfg values).1

theorem Section.name_injective : Function.Injective Section.name := by
  intro s s' h
  cases s <;> cases s' <;> first | rfl | exact absurd h (by decide)

theorem Section.dot_not_mem_name (s : Section) : '.' ∉ s.name.toList := by
  cases s <;> decide

theorem Key.toList_path (k : Key) : k.path.toList = k.sectionOf.name.toList ++ '.' :: k.name.toList := by
  simp [Key.path]

/-- A path names its field. -/
@[simp] theorem keyOf_path (k : Key) : keyOf k.path = some k := by
  unfold keyOf
  rw [Text.splitOnce_eq_some k.toList_path k.sectionOf.dot_not_mem_name, Option.bind_some]
  cases hfound : Key.all.find? fun k' => k'.sectionOf.name = k.sectionOf.name ∧ k'.name = k.name with
  | none =>
    have hself := List.find?_eq_none.mp hfound k k.mem_all
    simp at hself
  | some k' =>
    have hnames := List.find?_some hfound
    rw [decide_eq_true_eq] at hnames
    rw [Key.eq_of_name (Section.name_injective hnames.1) hnames.2]

/-- No other path does. -/
theorem eq_path_of_keyOf {path : String} {k : Key} (h : keyOf path = some k) : path = k.path := by
  obtain ⟨⟨before, behind⟩, hsplit, hfound⟩ := Option.bind_eq_some_iff.mp h
  have hnames := List.find?_some hfound
  rw [decide_eq_true_eq] at hnames
  rw [← String.toList_inj, Text.toList_of_splitOnce hsplit, k.toList_path, hnames.1, hnames.2]

/-! ## Arguments -/

/-- No character that TOML forbids in a string. -/
def IsClean (arg : String) : Prop := ∀ c ∈ arg.toList, isForbidden c = false

instance (arg : String) : Decidable (IsClean arg) :=
  List.decidableBAll (fun c => isForbidden c = false) arg.toList

theorem escapeChar_of_ne {c : Char} (hquote : c ≠ '"') (hbackslash : c ≠ '\\') : escapeChar c = [c] := by
  unfold escapeChar
  split
  · exact absurd rfl hquote
  · exact absurd rfl hbackslash
  · rfl

/-- The scan of one escaped character. -/
theorem scan_escapeChar (c : Char) (chars : List Char) (read : List String) (rest : List Char) :
    scan (.text chars) read (escapeChar c ++ rest) =
      if isForbidden c then .invalid else scan (.text (chars ++ [c])) read rest := by
  by_cases hquote : c = '"'
  · subst hquote
    rfl
  · by_cases hbackslash : c = '\\'
    · subst hbackslash
      rfl
    · rw [escapeChar_of_ne hquote hbackslash, List.singleton_append, scan, if_neg hquote, if_neg hbackslash]

theorem isClean_ofList (cs : List Char) : IsClean (String.ofList cs) ↔ ∀ c ∈ cs, isForbidden c = false := by
  rw [IsClean, String.toList_ofList]

theorem scan_escaped (cs chars : List Char) (read : List String) (rest : List Char) :
    scan (.text chars) read (cs.flatMap escapeChar ++ '"' :: rest) =
      if IsClean (String.ofList cs) then scan .comma (read ++ [String.ofList (chars ++ cs)]) rest
      else .invalid := by
  induction cs generalizing chars with
  | nil =>
    rw [if_pos ((isClean_ofList []).mpr (List.forall_mem_nil _)), List.flatMap_nil, List.nil_append, scan,
      if_pos rfl, List.append_nil]
  | cons c cs ih =>
    rw [List.flatMap_cons, List.append_assoc, scan_escapeChar]
    simp only [isClean_ofList, List.forall_mem_cons] at ih ⊢
    cases hc : isForbidden c with
    | true => simp
    | false =>
      rw [if_neg (by decide), ih, List.append_assoc, List.singleton_append]
      simp

/-- An argument does not begin like a string of several lines. -/
theorem take_two_ne (cs : List Char) {rest : List Char} (hrest : rest.head? ≠ some '"') :
    (cs.flatMap escapeChar ++ '"' :: rest).take 2 ≠ ['"', '"'] := by
  intro h
  rcases cs with _ | ⟨c, cs⟩
  · rcases rest with _ | ⟨d, rest⟩
    · cases h
    · simp only [List.flatMap_nil, List.nil_append, List.take_succ_cons, List.take_zero] at h
      exact hrest (by rw [(List.cons.inj (List.cons.inj h).2).1]; rfl)
  · by_cases hquote : c = '"'
    · subst hquote
      exact absurd (List.cons.inj h).1 (by decide)
    · by_cases hbackslash : c = '\\'
      · subst hbackslash
        exact absurd (List.cons.inj h).1 (by decide)
      · rw [List.flatMap_cons, escapeChar_of_ne hquote hbackslash] at h
        exact hquote (List.cons.inj h).1

theorem scan_quoteArg (arg : String) (read : List String) {rest : List Char} (hrest : rest.head? ≠ some '"') :
    scan .element read (quoteArg arg ++ rest) =
      if IsClean arg then scan .comma (read ++ [arg]) rest else .invalid := by
  rw [quoteArg, List.cons_append, List.append_assoc, List.singleton_append, scan, if_neg (by decide),
    if_pos rfl, if_neg (take_two_ne _ hrest), scan_escaped, List.nil_append, String.ofList_toList]

theorem head_moreArgs (args : List String) : (moreArgs args).head? ≠ some '"' := by
  cases args <;> exact fun h => absurd (Option.some.inj h) (by decide)

theorem scan_moreArgs (args read : List String) :
    scan .comma read (moreArgs args) =
      if ∀ arg ∈ args, IsClean arg then .array (read ++ args) else .invalid := by
  induction args generalizing read with
  | nil =>
    rw [if_pos (List.forall_mem_nil _), List.append_nil]
    rfl
  | cons arg args ih =>
    have hcomma : scan .comma read (moreArgs (arg :: args)) =
        scan .element read (quoteArg arg ++ moreArgs args) := by
      rw [moreArgs, scan, if_neg (by decide), if_pos rfl, scan, if_pos (by decide)]
    rw [hcomma, scan_quoteArg arg read (head_moreArgs args), ih, List.append_assoc, List.singleton_append]
    simp only [List.forall_mem_cons]
    by_cases harg : IsClean arg <;> simp [harg]

/-- **What is written of clean arguments is an array of them, and what is written of others is no TOML.** -/
theorem scanArray_formatArgv (args : List String) :
    scanArray (formatArgv args) = if ∀ arg ∈ args, IsClean arg then .array args else .invalid := by
  cases args with
  | nil => decide
  | cons arg args =>
    have hopen : scanArray (formatArgv (arg :: args)) = scan .element [] (quoteArg arg ++ moreArgs args) := by
      simp only [scanArray, formatArgv, String.toList_ofList]
    rw [hopen, scan_quoteArg arg [] (head_moreArgs args), scan_moreArgs]
    simp only [List.forall_mem_cons]
    by_cases harg : IsClean arg <;> simp [harg]

theorem trim_formatArgv (args : List String) : Text.trim (formatArgv args) = formatArgv args := by
  have hends : ∃ middle, (formatArgv args).toList = '[' :: (middle ++ [']']) := by
    have hmore : ∀ rest : List String, ∃ middle, moreArgs rest = middle ++ [']'] := by
      intro rest
      induction rest with
      | nil => exact ⟨[], rfl⟩
      | cons arg rest ih =>
        obtain ⟨middle, hmiddle⟩ := ih
        exact ⟨',' :: ' ' :: (quoteArg arg ++ middle), by simp [moreArgs, hmiddle]⟩
    cases args with
    | nil => exact ⟨[], by decide⟩
    | cons arg args =>
      obtain ⟨middle, hmiddle⟩ := hmore args
      exact ⟨quoteArg arg ++ middle, by simp [formatArgv, hmiddle]⟩
  obtain ⟨middle, hmiddle⟩ := hends
  refine Text.trim_eq_self ?_ ?_
  · intro c hc
    rw [hmiddle, List.head?_cons, Option.some.injEq] at hc
    rw [← hc]
    decide
  · intro c hc
    rw [hmiddle, ← List.cons_append, List.getLast?_concat, Option.some.injEq] at hc
    rw [← hc]
    decide

theorem head_formatArgv (args : List String) : (formatArgv args).toList.head? = some '[' := by
  cases args with
  | nil => decide
  | cons arg args => simp [formatArgv]

theorem parseArgv_formatArgv {lib : Library} (hlib : lib.Faithful) (args : List String) :
    parseArgv lib (formatArgv args) = if ∀ arg ∈ args, IsClean arg then some args else none := by
  have hscan := scanArray_formatArgv args
  unfold parseArgv
  simp only [trim_formatArgv, head_formatArgv, if_true]
  by_cases hclean : ∀ arg ∈ args, IsClean arg
  · rw [if_pos hclean] at hscan ⊢
    rw [(hlib.arrays _).1 args hscan]
    exact Value.mapM_asStr args
  · rw [if_neg hclean] at hscan ⊢
    rw [(hlib.arrays _).2 hscan]

/-! ## One value -/

/-- A value whose text is read again. -/
def Kind.Clean : (kind : Kind) → kind.type → Prop
  | .argv, args => ∀ arg ∈ args, IsClean arg
  | _, _ => True

instance : (kind : Kind) → (v : kind.type) → Decidable (kind.Clean v)
  | .argv, args => inferInstanceAs (Decidable (∀ arg ∈ args, IsClean arg))
  | .string, _ | .uint _, _ | .boolean, _ | .float, _ => isTrue trivial

/-- What a text means for a field: a value, none, or nothing that it can take. -/
def readField (lib : Library) (k : Key) (raw : String) : Option (Option k.type) :=
  if Text.isBlank raw then some none else (k.kind.parse lib raw).map some

section Values

variable {lib : Library}

theorem withParsed_eq (k : Key) (slot : Option k.type) (raw : String) :
    withParsed slot raw (k.kind.parse lib) =
      ((readField lib k raw).getD slot, (readField lib k raw).isSome) := by
  unfold withParsed readField
  by_cases hblank : Text.isBlank raw
  · rw [if_pos hblank, if_pos hblank]
    rfl
  · rw [if_neg hblank, if_neg hblank]
    cases k.kind.parse lib raw <;> rfl

theorem Kind.parse_format (hlib : lib.Faithful) (kind : Kind) (v : kind.type) :
    kind.parse lib (kind.format lib v) = if kind.Clean v then some v else none := by
  cases kind with
  | string => rfl
  | uint bits =>
    rw [Kind.parse, Kind.format, Text.trim_toString, Text.parseUint_toString]
    rfl
  | boolean =>
    rw [if_pos (show Kind.boolean.Clean v from trivial)]
    cases v with
    | false => exact (by decide : parseBool "false" = some false)
    | true => exact (by decide : parseBool "true" = some true)
  | float =>
    obtain ⟨hparse, htrim, _⟩ := hlib.floats v
    rw [Kind.parse, Kind.format, htrim, hparse]
    rfl
  | argv => exact parseArgv_formatArgv hlib v

theorem Kind.isBlank_format (hlib : lib.Faithful) {kind : Kind} (hkind : kind ≠ .string) (v : kind.type) :
    Text.isBlank (kind.format lib v) = false := by
  cases kind with
  | string => exact absurd rfl hkind
  | uint bits => exact Text.isBlank_toString v.toNat
  | boolean =>
    cases v with
    | false => exact (by decide : Text.isBlank "false" = false)
    | true => exact (by decide : Text.isBlank "true" = false)
  | float =>
    obtain ⟨_, htrim, hempty⟩ := hlib.floats v
    exact Text.isBlank_eq_false htrim hempty
  | argv =>
    refine Text.isBlank_eq_false (trim_formatArgv v) ?_
    intro hempty
    have hhead := head_formatArgv v
    rw [show formatArgv v = "" from hempty] at hhead
    exact absurd hhead (by decide)

/-- The text of a value is read again if it is TOML, and is nothing that the field can take if not; a text that
    is blank is read as none. -/
theorem readField_format_of_not_blank (hlib : lib.Faithful) {k : Key} {v : k.type}
    (hblank : Text.isBlank (k.kind.format lib v) = false) :
    readField lib k (k.kind.format lib v) = if k.kind.Clean v then some (some v) else none := by
  unfold readField
  rw [hblank, if_neg (by decide), Kind.parse_format hlib]
  split <;> rfl

/-- The text of an accepted value is not blank. -/
theorem isBlank_format (hlib : lib.Faithful) {k : Key} {v : k.type} (hv : k.Accepts v) :
    Text.isBlank (k.kind.format lib v) = false := by
  cases k with
  | clientRelay | clientX11 | serverListen | sshX11 => exact hv.1
  | clientToken | serverToken | sshHost | sshUser | sshIdentity | sshToken => exact hv
  | imageRecodeCodec =>
    rcases hv with rfl | rfl
    · exact (by decide : Text.isBlank "png" = false)
    · exact (by decide : Text.isBlank "jpeg" = false)
  | _ => exact Kind.isBlank_format hlib (by decide) v

/-- **An accepted value is read again if its text is TOML, and is nothing that the field can take if not.** -/
theorem readField_format (hlib : lib.Faithful) {k : Key} {v : k.type} (hv : k.Accepts v) :
    readField lib k (k.kind.format lib v) = if k.kind.Clean v then some (some v) else none :=
  readField_format_of_not_blank hlib (isBlank_format hlib hv)

theorem readField_of_blank {k : Key} {raw : String} (h : Text.isBlank raw = true) :
    readField lib k raw = some none := by
  rw [readField, if_pos h]

theorem readField_eq_none_iff {k : Key} {raw : String} :
    readField lib k raw = some none ↔ Text.isBlank raw = true := by
  constructor
  · intro h
    by_contra hblank
    rw [readField, if_neg hblank] at h
    obtain ⟨v, _, hv⟩ := Option.map_eq_some_iff.mp h
    cases hv
  · exact readField_of_blank

/-- The text of a value is read as it exactly when it is TOML and not blank. -/
theorem readField_format_iff (hlib : lib.Faithful) {k : Key} {v : k.type} :
    readField lib k (k.kind.format lib v) = some (some v) ↔
      Text.isBlank (k.kind.format lib v) = false ∧ k.kind.Clean v := by
  cases hblank : Text.isBlank (k.kind.format lib v) with
  | true => simp [readField_of_blank hblank]
  | false =>
    rw [readField_format_of_not_blank hlib hblank]
    by_cases hclean : k.kind.Clean v <;> simp [hclean]

/-- The text of a value that was read of a text is not blank. -/
theorem isBlank_format_of_readField (hlib : lib.Faithful) {k : Key} {raw : String} {v : k.type}
    (h : readField lib k raw = some (some v)) : Text.isBlank (k.kind.format lib v) = false := by
  by_cases hkind : k.kind = .string
  · have hblank : Text.isBlank raw = false := by
      rw [← Bool.not_eq_true]
      intro hblank
      rw [readField_of_blank hblank] at h
      cases h
    have hread : ∀ (kind : Kind) (v : kind.type), kind = .string → kind.parse lib raw = some v →
        kind.format lib v = raw := by
      rintro kind v rfl hparse
      exact (Option.some.inj hparse).symm
    rw [readField, hblank, if_neg (by decide)] at h
    obtain ⟨v', hv', heq⟩ := Option.map_eq_some_iff.mp h
    obtain rfl := Option.some.inj heq
    rw [hread _ _ hkind hv']
    exact hblank
  · exact Kind.isBlank_format hlib hkind v

end Values

/-! ## Lists of entries -/

section Entries

variable {lib : Library}

/-- An entry is about a field. -/
def Names (entry : String × String) (k : Key) : Prop := keyOf entry.1 = some k

theorem names_iff {entry : String × String} {k : Key} : Names entry k ↔ entry.1 = k.path := by
  constructor
  · exact eq_path_of_keyOf
  · intro h
    rw [Names, h, keyOf_path]

theorem applyEntry_of_names {entry : String × String} {k : Key} (h : Names entry k)
    (acc : GuiConfig × List ValidationIssue) :
    applyEntry lib acc entry = (acc.1.set k ((readField lib k entry.2).getD (acc.1 k)),
      if (readField lib k entry.2).isSome then acc.2
      else acc.2 ++ [⟨entry.1, "无法解析为合法取值（当前 \"" ++ entry.2 ++ "\"）"⟩]) := by
  unfold applyEntry
  rw [show keyOf entry.1 = some k from h]
  simp only [withParsed_eq]

/-- An entry is taken over into the field it names. -/
theorem applyEntry_field (acc : GuiConfig × List ValidationIssue) (entry : String × String) (k : Key) :
    (applyEntry lib acc entry).1 k =
      if entry.1 = k.path then (readField lib k entry.2).getD (acc.1 k) else acc.1 k := by
  cases hkey : keyOf entry.1 with
  | none =>
    have hne : entry.1 ≠ k.path := by
      intro h
      rw [h, keyOf_path] at hkey
      cases hkey
    rw [if_neg hne]
    unfold applyEntry
    rw [hkey]
  | some k' =>
    rw [applyEntry_of_names hkey]
    by_cases h : k = k'
    · subst h
      rw [if_pos (names_iff.mp hkey)]
      exact GuiConfig.set_self ..
    · have hne : entry.1 ≠ k.path := by
        intro heq
        exact h (Option.some.inj ((names_iff.mpr heq).symm.trans hkey))
      rw [if_neg hne]
      exact GuiConfig.set_of_ne _ h _

/-- Every entry has a text that its field can take. -/
def AllRead (lib : Library) (values : List (String × String)) : Prop :=
  ∀ entry ∈ values, ∀ k, Names entry k → (readField lib k entry.2).isSome

theorem applyEntry_issues (acc : GuiConfig × List ValidationIssue) (entry : String × String) :
    (applyEntry lib acc entry).2 = [] ↔
      acc.2 = [] ∧ ∀ k, Names entry k → (readField lib k entry.2).isSome := by
  cases hkey : keyOf entry.1 with
  | none =>
    have hnone : ∀ k, ¬ Names entry k := by
      intro k h
      cases hkey.symm.trans h
    unfold applyEntry
    simp [hkey, hnone]
  | some k =>
    rw [applyEntry_of_names hkey]
    have hunique : ∀ k', Names entry k' ↔ k' = k := by
      intro k'
      rw [Names, hkey, Option.some.injEq, eq_comm]
    simp only [hunique, forall_eq]
    cases hread : (readField lib k entry.2).isSome <;> simp

theorem foldl_applyEntry_issues (values : List (String × String)) (acc : GuiConfig × List ValidationIssue) :
    (values.foldl (applyEntry lib) acc).2 = [] ↔ acc.2 = [] ∧ AllRead lib values := by
  induction values generalizing acc with
  | nil => simp [AllRead]
  | cons entry values ih =>
    rw [List.foldl_cons, ih, applyEntry_issues, and_assoc]
    unfold AllRead
    rw [List.forall_mem_cons]

/-- **No issue comes up exactly when every text can be taken.** -/
theorem applyFlatChecked_issues (cfg : GuiConfig) (values : List (String × String)) :
    (applyFlatChecked lib cfg values).2 = [] ↔ AllRead lib values := by
  unfold applyFlatChecked
  rw [foldl_applyEntry_issues]
  simp

/-- A field that no entry names stays as it is. -/
theorem foldl_applyEntry_of_not_mem {values : List (String × String)} {k : Key}
    (h : k.path ∉ values.map Prod.fst) (acc : GuiConfig × List ValidationIssue) :
    (values.foldl (applyEntry lib) acc).1 k = acc.1 k := by
  induction values generalizing acc with
  | nil => rfl
  | cons entry values ih =>
    rw [List.map_cons, List.mem_cons, not_or] at h
    rw [List.foldl_cons, ih h.2, applyEntry_field, if_neg (Ne.symm h.1)]

/-- **A field afterwards**, when no path comes twice. -/
theorem applyFlatChecked_field {values : List (String × String)} (hdistinct : (values.map Prod.fst).Nodup)
    (cfg : GuiConfig) (k : Key) :
    (applyFlatChecked lib cfg values).1 k =
      ((Assoc.get values k.path).bind (readField lib k)).getD (cfg k) := by
  unfold applyFlatChecked
  generalize hacc : (cfg, ([] : List ValidationIssue)) = acc
  rw [show cfg k = acc.1 k by rw [← hacc]]
  clear hacc
  induction values generalizing acc with
  | nil => rfl
  | cons entry values ih =>
    obtain ⟨hnotMem, hrest⟩ := List.nodup_cons.mp hdistinct
    rw [List.foldl_cons, get_cons]
    by_cases h : entry.1 = k.path
    · rw [foldl_applyEntry_of_not_mem (h ▸ hnotMem), applyEntry_field, if_pos h, if_pos h, Option.bind_some]
    · rw [ih hrest, applyEntry_field, if_neg h, if_neg h]

end Entries

/-! ## There and back -/

section RoundTrip

variable {lib : Library} {cfg : GuiConfig}

/-- The arguments of both commands are clean. -/
structure GuiConfig.CleanArgs (cfg : GuiConfig) : Prop where
  record : ∀ args, cfg .audioRecordCommand = some args → ∀ arg ∈ args, IsClean arg
  play : ∀ args, cfg .audioPlayCommand = some args → ∀ arg ∈ args, IsClean arg

theorem cleanArgs_iff : cfg.CleanArgs ↔ ∀ k v, cfg k = some v → k.kind.Clean v := by
  constructor
  · intro h k v hv
    cases k with
    | audioRecordCommand => exact h.record v hv
    | audioPlayCommand => exact h.play v hv
    | _ => exact trivial
  · intro h
    exact ⟨h .audioRecordCommand, h .audioPlayCommand⟩

theorem fst_flatValue {k : Key} {entry : String × String} (h : flatValue lib cfg k = some entry) :
    entry.1 = k.path := by
  obtain ⟨v, _, rfl⟩ := Option.map_eq_some_iff.mp h
  rfl

theorem path_injective : Function.Injective Key.path := by
  intro k k' h
  have hkey := keyOf_path k
  rw [h, keyOf_path, Option.some.injEq] at hkey
  exact hkey.symm

theorem get_filterMap_flatValue (ks : List Key) (k : Key) :
    Assoc.get (ks.filterMap (flatValue lib cfg)) k.path =
      if k ∈ ks then (cfg k).map (k.kind.format lib) else none := by
  induction ks with
  | nil => rfl
  | cons k' ks ih =>
    rw [List.filterMap_cons]
    by_cases h : k = k'
    · subst h
      rw [if_pos List.mem_cons_self]
      cases hset : cfg k with
      | none =>
        simp only [flatValue, hset, Option.map_none]
        rw [ih, hset, Option.map_none, ite_self]
      | some v =>
        simp only [flatValue, hset, Option.map_some]
        rw [get_cons, if_pos rfl]
    · simp only [List.mem_cons, h, false_or]
      cases hset : flatValue lib cfg k' with
      | none => exact ih
      | some entry =>
        have hne : entry.1 ≠ k.path := by
          rw [fst_flatValue hset]
          exact fun heq => h (path_injective heq).symm
        simp only [get_cons, if_neg hne, ih]

/-- The text of a field. -/
theorem get_flatValues (k : Key) :
    Assoc.get (flatValues lib cfg) k.path = (cfg k).map (k.kind.format lib) := by
  rw [flatValues, get_filterMap_flatValue, if_pos k.mem_all]

theorem flatValues_nodup : ((flatValues lib cfg).map Prod.fst).Nodup := by
  have hsublist : ∀ ks : List Key,
      ((ks.filterMap (flatValue lib cfg)).map Prod.fst).Sublist (ks.map Key.path) := by
    intro ks
    induction ks with
    | nil => exact List.Sublist.refl _
    | cons k ks ih =>
      rw [List.filterMap_cons]
      cases hset : flatValue lib cfg k with
      | none => exact ih.cons _
      | some entry =>
        simp only [List.map_cons, fst_flatValue hset]
        exact ih.cons_cons _
  exact (hsublist Key.all).nodup (Key.nodup_all.map path_injective)

/-- An entry stands for the field that it names. -/
theorem mem_flatValues {entry : String × String} :
    entry ∈ flatValues lib cfg ↔ ∃ k v, cfg k = some v ∧ entry = (k.path, k.kind.format lib v) := by
  unfold flatValues
  rw [List.mem_filterMap]
  constructor
  · rintro ⟨k, _, h⟩
    obtain ⟨v, hv, rfl⟩ := Option.map_eq_some_iff.mp h
    exact ⟨k, v, hv, rfl⟩
  · rintro ⟨k, v, hv, rfl⟩
    exact ⟨k, k.mem_all, by rw [flatValue, hv, Option.map_some]⟩

theorem allRead_flatValues (hlib : lib.Faithful) (hvalid : ∀ k v, cfg k = some v → k.Accepts v) :
    AllRead lib (flatValues lib cfg) ↔ cfg.CleanArgs := by
  rw [cleanArgs_iff]
  constructor
  · intro h k v hv
    have hread := h _ (mem_flatValues.mpr ⟨k, v, hv, rfl⟩) k (keyOf_path k)
    rw [readField_format hlib (hvalid k v hv)] at hread
    by_contra hclean
    rw [if_neg hclean] at hread
    cases hread
  · intro h entry hentry k' hnames
    obtain ⟨k, v, hv, rfl⟩ := mem_flatValues.mp hentry
    obtain rfl := path_injective (names_iff.mp hnames)
    rw [readField_format hlib (hvalid k v hv), if_pos (h k v hv)]
    rfl

/-- **An accepted configuration comes back from its texts, with no issue, exactly when the arguments of its
    commands hold no control character but the tab.** -/
theorem applyFlat_flatValues_iff (lib : Library) (hlib : lib.Faithful) (cfg : GuiConfig)
    (hvalid : validate lib.floats cfg = []) :
    applyFlatChecked lib .default (flatValues lib cfg) = (cfg, []) ↔ cfg.CleanArgs := by
  have haccepts := (validate_eq_nil.mp hvalid).1
  rw [← allRead_flatValues hlib haccepts]
  constructor
  · intro h
    exact (applyFlatChecked_issues .default _).mp (by rw [h])
  · intro h
    have hclean := cleanArgs_iff.mp ((allRead_flatValues hlib haccepts).mp h)
    refine Prod.ext ?_ ((applyFlatChecked_issues .default _).mpr h)
    funext k
    change (applyFlatChecked lib .default (flatValues lib cfg)).1 k = cfg k
    rw [applyFlatChecked_field flatValues_nodup, get_flatValues]
    cases hset : cfg k with
    | none => rfl
    | some v =>
      rw [Option.map_some, Option.bind_some, readField_format hlib (haccepts k v hset),
        if_pos (hclean k v hset), Option.getD_some]

/-- A library with texts of floats of its own that reads arrays of strings and nothing else. -/
noncomputable def Library.coded : Library where
  floats := FloatText.coded
  parseValue := parseArray
  oddSection _ _ := none
  typeError _ := (0, "")

theorem Library.coded_faithful : Library.coded.Faithful where
  floats := FloatText.coded_roundTrips
  arrays := readsArrays_parseArray
  sections _ _ _ h := by cases h

/-- A player with an empty argument, a quoted one and a backslash. -/
def quotedPlayer : GuiConfig := GuiConfig.default.set .audioPlayCommand (some ["paplay", "", "\"a\" \\"])

theorem applyFlat_flatValues_iff_quotedPlayer :
    applyFlatChecked Library.coded .default (flatValues Library.coded quotedPlayer) = (quotedPlayer, []) ↔
      quotedPlayer.CleanArgs :=
  applyFlat_flatValues_iff Library.coded Library.coded_faithful quotedPlayer
    (validate_set_default (k := .audioPlayCommand) ⟨"paplay", by decide, by decide⟩)

/-- A player with a line break in an argument. -/
def brokenPlayer : GuiConfig := GuiConfig.default.set .audioPlayCommand (some ["paplay", "a\nb"])

/-- It is accepted, and does not come back. -/
theorem brokenPlayer_refused : validate Library.coded.floats brokenPlayer = [] ∧
    applyFlatChecked Library.coded .default (flatValues Library.coded brokenPlayer) ≠ (brokenPlayer, []) := by
  have hvalid : validate Library.coded.floats brokenPlayer = [] :=
    validate_set_default (k := .audioPlayCommand) ⟨"paplay", by decide, by decide⟩
  refine ⟨hvalid, ?_⟩
  intro h
  have hread := (applyFlatChecked_issues .default _).mp (by rw [h])
  have hclean := (allRead_flatValues Library.coded_faithful (validate_eq_nil.mp hvalid).1).mp hread
  have hbreak : isForbidden '\n' = false := hclean.play _ rfl "a\nb" (by simp) '\n' (by simp)
  exact absurd hbreak (by decide)

end RoundTrip

end RemoteX11.Gui
