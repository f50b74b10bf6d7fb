/-
  Text as the standard library of Rust reads and writes it: blanks, decimal numbers, splitting.

  `trim` takes blanks off both ends, a character being blank as Unicode's White_Space says. `parseUint` reads an
  unsigned number of a given width, and `parseUint_toString` that it reads what is written.
-/
import Mathlib.Tactic.Common
import Mathlib.Algebra.Ring.Nat

namespace RemoteX11.Lib.Text

/-! ## Blanks -/

/-- `char::is_whitespace`. -/
def isWhitespace (c : Char) : Bool :=
  let n := c.toNat
  (0x09 ≤ n && n ≤ 0x0d) || n == 0x20 || n == 0x85 || n == 0xa0 || n == 0x1680 || (0x2000 ≤ n && n ≤ 0x200a) ||
    n == 0x2028 || n == 0x2029 || n == 0x202f || n == 0x205f || n == 0x3000

def trimChars (cs : List Char) : List Char :=
  ((cs.dropWhile isWhitespace).reverse.dropWhile isWhitespace).reverse

/-- `str::trim`. -/
def trim (s : String) : String := String.ofList (trimChars s.toList)

/-- `trim().is_empty()`. -/
def isBlank (s : String) : Bool := trim s == ""

theorem trimChars_eq_self {cs : List Char} (hhead : ∀ c, cs.head? = some c → isWhitespace c = false)
    (hlast : ∀ c, cs.getLast? = some c → isWhitespace c = false) : trimChars cs = cs := by
  have hself : ∀ l : List Char, (∀ c, l.head? = some c → isWhitespace c = false) →
      l.dropWhile isWhitespace = l := by
    intro l h
    cases l with
    | nil => rfl
    | cons c l => rw [List.dropWhile_cons_of_neg (by simp [h c rfl])]
  unfold trimChars
  rw [hself cs hhead, hself cs.reverse (by rwa [List.head?_reverse]), List.reverse_reverse]

/-- Text that begins and ends with other characters is not trimmed. -/
theorem trim_eq_self {s : String} (hhead : ∀ c, s.toList.head? = some c → isWhitespace c = false)
    (hlast : ∀ c, s.toList.getLast? = some c → isWhitespace c = false) : trim s = s := by
  unfold trim
  rw [trimChars_eq_self hhead hlast, String.ofList_toList]

theorem isBlank_eq_false {s : String} (htrim : trim s = s) (hs : s ≠ "") : isBlank s = false := by
  unfold isBlank
  rw [htrim]
  simpa using hs

/-! ## Splitting -/

/-- The words that blanks separate. -/
def splitChars : List Char → List (List Char)
  | [] => []
  | c :: cs =>
    if isWhitespace c then splitChars cs
    else
      match cs, splitChars cs with
      | d :: _, word :: words => if isWhitespace d then [c] :: word :: words else (c :: word) :: words
      | _, words => [c] :: words

/-- `split_whitespace`. -/
def splitWhitespace (s : String) : List String := (splitChars s.toList).map String.ofList

/-- `split_once`: the text before the first `sep` and the text behind it. -/
def splitOnce (sep : Char) (s : String) : Option (String × String) :=
  if sep ∈ s.toList then
    some (String.ofList (s.toList.takeWhile (· ≠ sep)),
      String.ofList ((s.toList.dropWhile (· ≠ sep)).drop 1))
  else none

theorem takeWhile_append_dropWhile_ne {sep : Char} {cs : List Char} (h : sep ∈ cs) :
    cs.takeWhile (· ≠ sep) ++ sep :: (cs.dropWhile (· ≠ sep)).drop 1 = cs := by
  induction cs with
  | nil => exact absurd h List.not_mem_nil
  | cons c cs ih =>
    by_cases hc : c = sep
    · subst hc
      simp
    · have htail : sep ∈ cs := by
        rcases List.mem_cons.mp h with rfl | htail
        · exact absurd rfl hc
        · exact htail
      rw [List.takeWhile_cons_of_pos (by simp [hc]), List.dropWhile_cons_of_pos (by simp [hc]),
        List.cons_append, ih htail]

/-- The parts of a split are what the text consists of. -/
theorem toList_of_splitOnce {sep : Char} {s before behind : String}
    (h : splitOnce sep s = some (before, behind)) : s.toList = before.toList ++ sep :: behind.toList := by
  unfold splitOnce at h
  split at h
  · rename_i hsep
    obtain ⟨rfl, rfl⟩ := Prod.mk.inj (Option.some.inj h)
    rw [String.toList_ofList, String.toList_ofList, takeWhile_append_dropWhile_ne hsep]
  · cases h

/-- A text splits at its first separator. -/
theorem splitOnce_eq_some {sep : Char} {s before behind : String}
    (hs : s.toList = before.toList ++ sep :: behind.toList) (hbefore : sep ∉ before.toList) :
    splitOnce sep s = some (before, behind) := by
  have hne : ∀ c ∈ before.toList, (decide (c ≠ sep)) = true := by
    intro c hc
    exact decide_eq_true (fun h => hbefore (h ▸ hc))
  unfold splitOnce
  rw [if_pos (by rw [hs]; simp), hs, List.takeWhile_append_of_pos hne, List.dropWhile_append_of_pos hne]
  simp

/-- `rsplit_once`: the text before the last `sep` and the text behind it. -/
def rsplitOnce (sep : Char) (s : String) : Option (String × String) :=
  if sep ∈ s.toList then
    some (String.ofList ((s.toList.reverse.dropWhile (· ≠ sep)).drop 1).reverse,
      String.ofList (s.toList.reverse.takeWhile (· ≠ sep)).reverse)
  else none

/-- `to_ascii_lowercase`. -/
def toAsciiLowercase (s : String) : String := String.ofList (s.toList.map Char.toLower)

/-! ## Numbers -/

/-- `parse` at an unsigned type of `bits` bits: an optional plus sign, digits, and a value that fits. -/
def parseUint (bits : Nat) (s : String) : Option (BitVec bits) :=
  let digits :=
    match s.toList with
    | '+' :: digits => digits
    | digits => digits
  if digits ≠ [] ∧ (digits.all Char.isDigit) ∧ Nat.ofDigitChars 10 digits 0 < 2 ^ bits then
    some (BitVec.ofNat bits (Nat.ofDigitChars 10 digits 0))
  else none

theorem isDigit_of_mem_toString {n : Nat} {c : Char} (hc : c ∈ (toString n).toList) : c.isDigit := by
  rw [Nat.toString_eq_repr, Nat.toList_repr] at hc
  exact Nat.isDigit_of_mem_toDigits (by decide) (by decide) hc

theorem toString_ne_empty (n : Nat) : toString n ≠ "" := by
  rw [Nat.toString_eq_repr]
  exact Nat.repr_ne_empty

theorem isWhitespace_of_isDigit {c : Char} (h : c.isDigit) : isWhitespace c = false := by
  simp only [Char.isDigit, Bool.and_eq_true, decide_eq_true_eq, UInt32.le_iff_toNat_le] at h
  have hbounds : 48 ≤ c.toNat ∧ c.toNat ≤ 57 := h
  simp only [isWhitespace, Bool.or_eq_false_iff, Bool.and_eq_false_iff, decide_eq_false_iff_not,
    beq_eq_false_iff_ne]
  omega

/-- What is written is read. -/
theorem parseUint_toString {bits : Nat} (v : BitVec bits) : parseUint bits (toString v.toNat) = some v := by
  have hdigits : (toString v.toNat).toList = Nat.toDigits 10 v.toNat := by
    rw [Nat.toString_eq_repr, Nat.toList_repr]
  have hall : ∀ c ∈ Nat.toDigits 10 v.toNat, c.isDigit := by
    intro c hc
    exact Nat.isDigit_of_mem_toDigits (by decide) (by decide) hc
  unfold parseUint
  rw [hdigits]
  have hplain : (match Nat.toDigits 10 v.toNat with
      | '+' :: digits => digits
      | digits => digits) = Nat.toDigits 10 v.toNat := by
    split
    · rename_i rest heq
      exact absurd (hall '+' (by rw [heq]; exact List.mem_cons_self)) (by decide)
    · rfl
  simp only [hplain, Nat.ofDigitChars_ten_toDigits]
  rw [if_pos ⟨Nat.toDigits_ne_nil, List.all_eq_true.mpr hall, v.isLt⟩, BitVec.ofNat_toNat, BitVec.setWidth_eq]

theorem trim_toString (n : Nat) : trim (toString n) = toString n := by
  have hdigit : ∀ c ∈ (toString n).toList, isWhitespace c = false := by
    intro c hc
    exact isWhitespace_of_isDigit (isDigit_of_mem_toString hc)
  refine trim_eq_self (fun c hc => hdigit c ?_) (fun c hc => hdigit c ?_)
  · exact List.mem_of_head? hc
  · exact List.mem_of_getLast? hc

theorem isBlank_toString (n : Nat) : isBlank (toString n) = false :=
  isBlank_eq_false (trim_toString n) (toString_ne_empty n)

example : splitWhitespace "  parec --raw " = ["parec", "--raw"] := by decide

example : rsplitOnce ':' "::1:7000" = some ("::1", "7000") := by decide

example : parseUint 16 "+65535" = some 65535 ∧ parseUint 16 "65536" = none := by decide

end RemoteX11.Lib.Text
