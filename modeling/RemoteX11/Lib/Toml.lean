/-
  TOML documents: values, tables and the edits on them, and the text of an array of strings.

  A table is the list of its entries in the order of the file. `insert` replaces the entry of its key where it
  stands, or appends one. `scanArray` reads the text of an array of single-line basic strings: `array` and
  `invalid` are what TOML 1.0 says of the text, `unknown` is left to the parser.
-/
import RemoteX11.Lib.Assoc
import RemoteX11.Lib.Text
import Mathlib.Data.Rat.Encodable
import Mathlib.Algebra.Order.Field.Rat
import Mathlib.Algebra.Order.Group.Unbundled.Abs

namespace RemoteX11.Lib.Toml

/-! ## Values -/

/-- The finite doubles: 53 bits and an exponent. The two zeros are one. -/
def IsDouble (q : ℚ) : Prop := ∃ m e : Nat, m < 2 ^ 53 ∧ e ≤ 2045 ∧ |q| * 2 ^ 1074 = m * 2 ^ e

inductive F64 where
  | finite (q : ℚ) (double : IsDouble q)
  | infinite (negative : Bool)
  | nan
  deriving DecidableEq

/-- How floats are written and read, and what float an integer becomes (`to_string`, `parse`, `as f64`). -/
structure FloatText where
  format : F64 → String
  parse : String → Option F64
  ofInt : Int64 → F64

/-- What is written is read, and has no blanks around it. -/
def FloatText.RoundTrips (floats : FloatText) : Prop :=
  ∀ x, floats.parse (floats.format x) = some x ∧ Text.trim (floats.format x) = floats.format x ∧
    floats.format x ≠ ""

def F64.parts : F64 → ℚ ⊕ Bool ⊕ Unit
  | .finite q _ => .inl q
  | .infinite negative => .inr (.inl negative)
  | .nan => .inr (.inr ())

theorem F64.parts_injective : Function.Injective F64.parts := by
  intro x y h
  cases x <;> cases y <;> simp_all [F64.parts]

noncomputable instance : Encodable F64 := Encodable.ofInj F64.parts F64.parts_injective

/-- A float as that many digits. -/
noncomputable def FloatText.coded : FloatText where
  format x := String.ofList (List.replicate (Encodable.encode x + 1) '1')
  parse s := Encodable.decode (s.toList.length - 1)
  ofInt _ := .nan

theorem FloatText.coded_roundTrips : FloatText.coded.RoundTrips := by
  intro x
  have hchars : (FloatText.coded.format x).toList = List.replicate (Encodable.encode x + 1) '1' := by
    simp [FloatText.coded]
  refine ⟨?_, Text.trim_eq_self ?_ ?_, ?_⟩
  · change Encodable.decode ((FloatText.coded.format x).toList.length - 1) = some x
    rw [hchars, List.length_replicate, Nat.add_sub_cancel, Encodable.encodek]
  · intro c hc
    rw [hchars] at hc
    rw [List.eq_of_mem_replicate (List.mem_of_head? hc)]
    decide
  · intro c hc
    rw [hchars] at hc
    rw [List.eq_of_mem_replicate (List.mem_of_getLast? hc)]
    decide
  · intro h
    rw [h] at hchars
    cases hchars

inductive Value where
  | string (s : String)
  | integer (i : Int64)
  | float (x : F64)
  | boolean (b : Bool)
  | datetime (text : String)
  | array (values : List Value)
  | inlineTable (entries : List (String × Value))

/-- `as_str`. -/
def Value.asStr : Value → Option String
  | .string s => some s
  | _ => none

theorem Value.mapM_asStr (strings : List String) :
    (strings.map Value.string).mapM Value.asStr = some strings := by
  induction strings with
  | nil => rfl
  | cons s strings ih =>
    rw [List.map_cons, List.mapM_cons, ih]
    rfl

inductive Item where
  /-- with the blanks and the comment around it -/
  | value (v : Value) (decor : String)
  | table (entries : List (String × Item))
  | arrayOfTables (tables : List (List (String × Item)))

abbrev Table := List (String × Item)

/-! ## Tables -/

section Entries

variable {β : Type} {t : List (String × β)} {k k' : String} {v : β}

/-- `Table::insert`. -/
def insert : List (String × β) → String → β → List (String × β)
  | [], k, v => [(k, v)]
  | e :: t, k, v => if e.1 = k then (k, v) :: t else e :: insert t k v

@[simp] theorem get_nil : Assoc.get ([] : List (String × β)) k = none := rfl

theorem get_cons (e : String × β) (t : List (String × β)) (k : String) :
    Assoc.get (e :: t) k = if e.1 = k then some e.2 else Assoc.get t k := by
  unfold Assoc.get
  rw [List.find?_cons]
  by_cases h : e.1 = k <;> simp [h]

theorem get_insert (t : List (String × β)) (k k' : String) (v : β) :
    Assoc.get (insert t k v) k' = if k' = k then some v else Assoc.get t k' := by
  induction t with
  | nil =>
    rw [insert, get_cons, get_nil]
    by_cases h : k = k' <;> simp [h, eq_comm]
  | cons e t ih =>
    rw [insert]
    by_cases he : e.1 = k
    · rw [if_pos he, get_cons, get_cons]
      by_cases h : k = k'
      · simp [h]
      · rw [if_neg h, if_neg (Ne.symm h), if_neg (he ▸ h)]
    · rw [if_neg he, get_cons, get_cons, ih]
      by_cases h : e.1 = k'
      · rw [if_pos h, if_pos h, if_neg (h ▸ he)]
      · rw [if_neg h, if_neg h]

theorem get_remove (t : List (String × β)) (k k' : String) :
    Assoc.get (Assoc.remove t k) k' = if k' = k then none else Assoc.get t k' := by
  unfold Assoc.remove
  induction t with
  | nil => simp
  | cons e t ih =>
    rw [List.filter_cons]
    by_cases he : e.1 = k
    · rw [if_neg (by simp [he]), ih, get_cons]
      by_cases h : k' = k
      · rw [if_pos h, if_pos h]
      · rw [if_neg h, if_neg h, if_neg (he ▸ Ne.symm h)]
    · rw [if_pos (by simp [he]), get_cons, get_cons, ih]
      by_cases h : e.1 = k'
      · rw [if_pos h, if_pos h, if_neg (h ▸ he)]
      · rw [if_neg h, if_neg h]

theorem get_append (t t' : List (String × β)) (k : String) :
    Assoc.get (t ++ t') k = (Assoc.get t k).or (Assoc.get t' k) := by
  induction t with
  | nil => rfl
  | cons e t ih =>
    rw [List.cons_append, get_cons, get_cons, ih]
    by_cases h : e.1 = k
    · rw [if_pos h, if_pos h, Option.some_or]
    · rw [if_neg h, if_neg h]

theorem get_filter (p : String → Bool) (t : List (String × β)) (k : String) :
    Assoc.get (t.filter fun e => p e.1) k = if p k then Assoc.get t k else none := by
  induction t with
  | nil => simp
  | cons e t ih =>
    rw [List.filter_cons]
    by_cases he : e.1 = k
    · subst he
      cases hp : p e.1 with
      | true => rw [if_pos rfl, get_cons, if_pos rfl, if_pos rfl, get_cons, if_pos rfl]
      | false => rw [if_neg (by decide), ih, hp, if_neg (by decide), if_neg (by decide)]
    · cases hp : p e.1 with
      | true => rw [if_pos rfl, get_cons, if_neg he, ih, get_cons, if_neg he]
      | false => rw [if_neg (by decide), ih, get_cons, if_neg he]

end Entries

/-! ## Arrays of strings -/

/-- The characters that TOML forbids in a basic string: the control characters, tab excepted. -/
def isForbidden (c : Char) : Bool := c ≠ '\t' && (c.toNat < 0x20 || c.toNat == 0x7f)

inductive ArrayText where
  | array (strings : List String)
  | invalid
  | unknown
  deriving DecidableEq, Repr

/-- Where the scan stands: before an element, in a string, behind its backslash, behind an element. -/
inductive Mode where
  | element
  | text (read : List Char)
  | escape (read : List Char)
  | comma
  deriving DecidableEq, Repr

/-- What a backslash and this character stand for, the codes of Unicode characters excepted. -/
def unescape : Char → Option Char
  | '"' => some '"'
  | '\\' => some '\\'
  | 'b' => some '\x08'
  | 't' => some '\t'
  | 'n' => some '\n'
  | 'f' => some '\x0c'
  | 'r' => some '\r'
  | _ => none

/-- The scan from a place behind the opening bracket, with the strings read so far. -/
def scan : Mode → List String → List Char → ArrayText
  | .element, read, c :: cs =>
    if c = ' ' ∨ c = '\t' then scan .element read cs
    else if c = '"' then if cs.take 2 = ['"', '"'] then .unknown else scan (.text []) read cs
    else if c = ']' ∧ cs = [] then .array read
    else .unknown
  | .text chars, read, c :: cs =>
    if c = '"' then scan .comma (read ++ [String.ofList chars]) cs
    else if c = '\\' then scan (.escape chars) read cs
    else if isForbidden c then .invalid
    else scan (.text (chars ++ [c])) read cs
  | .escape chars, read, c :: cs =>
    match unescape c with
    | some d => scan (.text (chars ++ [d])) read cs
    | none => .unknown
  | .comma, read, c :: cs =>
    if c = ' ' ∨ c = '\t' then scan .comma read cs
    else if c = ',' then scan .element read cs
    else if c = ']' ∧ cs = [] then .array read
    else .unknown
  | _, _, [] => .unknown

def scanArray (s : String) : ArrayText :=
  match s.toList with
  | '[' :: cs => scan .element [] cs
  | _ => .unknown

/-- A parser of values that reads arrays of strings as TOML 1.0 says. -/
def ReadsArrays (parse : String → Option Value) : Prop :=
  ∀ s, (∀ strings, scanArray s = .array strings → parse s = some (.array (strings.map .string))) ∧
    (scanArray s = .invalid → parse s = none)

example : scanArray "[\"a b\", \"\", \"\\\\\\\"\\n\" ]" = .array ["a b", "", "\\\"\n"] := by decide

/-- The parser that reads these texts and no others. -/
def parseArray (s : String) : Option Value :=
  match scanArray s with
  | .array strings => some (.array (strings.map .string))
  | _ => none

theorem readsArrays_parseArray : ReadsArrays parseArray := by
  intro s
  unfold parseArray
  constructor
  · intro strings h
    rw [h]
  · intro h
    rw [h]

end RemoteX11.Lib.Toml
