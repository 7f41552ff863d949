import Mathlib.Data.List.Basic
import Mathlib.Tactic.Lemma

/-!
# Reading hexadecimal integers

`intBase16` is the conversion `int(text, 16)`, which is more lenient than a list of hexadecimal
digits: it admits blanks around the number, a sign, a `0x` prefix, single underscores and the
decimal digits of every script.
-/

namespace HexInt

/-- What the conversion looks up in the Unicode database. -/
structure UnicodeTables where
  isSpace : Char → Bool
  decimal : Char → Option (Fin 10)

/-- The value of a hexadecimal digit. -/
def hexValue (c : Char) : Option Nat :=
  if 48 ≤ c.toNat ∧ c.toNat ≤ 57 then some (c.toNat - 48)
  else if 97 ≤ c.toNat ∧ c.toNat ≤ 102 then some (c.toNat - 87)
  else if 65 ≤ c.toNat ∧ c.toNat ≤ 70 then some (c.toNat - 55)
  else none

def isHex (c : Char) : Bool := (hexValue c).isSome

/-- The number that hexadecimal digits denote, after those that denote `value`. -/
def hexNatFrom (value : Nat) (digits : List Char) : Nat :=
  digits.foldl (fun n c => 16 * n + (hexValue c).getD 0) value

def hexNat (digits : List Char) : Nat := hexNatFrom 0 digits

/-- Blanks and decimal digits of every script become those of ASCII. -/
def toAscii (tables : UnicodeTables) (c : Char) : Char :=
  if c.toNat < 127 then c
  else if tables.isSpace c then ' '
  else
    match tables.decimal c with
    | some d => Char.ofNat (48 + d.val)
    | none => '?'

def isBlank (c : Char) : Bool := c.toNat == 32 || (9 ≤ c.toNat && c.toNat ≤ 13)

def stripSign : List Char → Bool × List Char
  | '+' :: rest => (false, rest)
  | '-' :: rest => (true, rest)
  | text => (false, text)

/-- A `0x` or `0X` goes, with one underscore that may follow it. -/
def stripMarker : List Char → List Char
  | '0' :: 'x' :: '_' :: rest => rest
  | '0' :: 'x' :: rest => rest
  | '0' :: 'X' :: '_' :: rest => rest
  | '0' :: 'X' :: rest => rest
  | text => text

/-- The digits up to the first other character, with single underscores between them. -/
def scanDigits : Bool → Nat → List Char → Option (Nat × List Char)
  | afterUnderscore, value, [] => if afterUnderscore then none else some (value, [])
  | afterUnderscore, value, c :: rest =>
    match hexValue c with
    | some d => scanDigits false (16 * value + d) rest
    | none =>
      if c = '_' then
        if afterUnderscore then none else scanDigits true value rest
      else if afterUnderscore then none
      else some (value, c :: rest)

/-- `int(text, 16)`, `none` where it raises `ValueError`. -/
def intBase16 (tables : UnicodeTables) (text : List Char) : Option Int :=
  let signed := stripSign ((text.map (toAscii tables)).dropWhile isBlank)
  let digits := stripMarker signed.2
  if (digits.head?.map isHex).getD false then
    match scanDigits false 0 digits with
    | some (value, rest) =>
      if rest.all isBlank then some (if signed.1 then -(value : Int) else value) else none
    | none => none
  else none

variable {c : Char} {digits : List Char}

/-- A hexadecimal digit is a letter or a digit of ASCII. -/
lemma isHex_range (h : isHex c = true) :
    (48 ≤ c.toNat ∧ c.toNat ≤ 57) ∨ (97 ≤ c.toNat ∧ c.toNat ≤ 102) ∨
      (65 ≤ c.toNat ∧ c.toNat ≤ 70) := by
  unfold isHex hexValue at h
  split at h
  · exact .inl ‹_›
  · split at h
    · exact .inr (.inl ‹_›)
    · split at h
      · exact .inr (.inr ‹_›)
      · cases h

lemma ne_of_isHex (h : isHex c = true) {d : Char} (hd : isHex d = false) : c ≠ d := by
  rintro rfl
  rw [h] at hd
  cases hd

lemma toAscii_of_isHex (tables : UnicodeTables) (h : isHex c = true) : toAscii tables c = c := by
  have hrange := isHex_range h
  rw [toAscii, if_pos (by omega)]

lemma isBlank_of_isHex (h : isHex c = true) : isBlank c = false := by
  have hrange := isHex_range h
  have hne : c.toNat ≠ 32 := by omega
  have hlow : ¬c.toNat ≤ 13 := by omega
  simp [isBlank, hne, hlow]

lemma stripSign_of_isHex (h : isHex c = true) (rest : List Char) :
    stripSign (c :: rest) = (false, c :: rest) := by
  have hplus : c ≠ '+' := ne_of_isHex h (by decide)
  have hminus : c ≠ '-' := ne_of_isHex h (by decide)
  rw [stripSign]
  · intro _ heq
    exact hplus (List.cons.inj heq).1
  · intro _ heq
    exact hminus (List.cons.inj heq).1

lemma stripMarker_of_isHex (h : ∀ c ∈ digits, isHex c = true) : stripMarker digits = digits := by
  have hsecond {d x : Char} {rest : List Char} (hd : digits = '0' :: d :: rest)
      (hx : isHex x = false) : d ≠ x := by
    refine ne_of_isHex (h d ?_) hx
    simp [hd]
  unfold stripMarker
  split
  · exact absurd rfl (hsecond rfl (by decide))
  · exact absurd rfl (hsecond rfl (by decide))
  · exact absurd rfl (hsecond rfl (by decide))
  · exact absurd rfl (hsecond rfl (by decide))
  · rfl

lemma scanDigits_of_isHex (h : ∀ c ∈ digits, isHex c = true) (value : Nat) :
    scanDigits false value digits = some (hexNatFrom value digits, []) := by
  induction digits generalizing value with
  | nil => rfl
  | cons c rest ih =>
    rw [List.forall_mem_cons] at h
    obtain ⟨d, hd⟩ := Option.isSome_iff_exists.mp h.1
    rw [scanDigits, hd, hexNatFrom, List.foldl_cons, hd]
    exact ih h.2 _

/-- Hexadecimal digits are read as the number they denote. -/
theorem intBase16_of_isHex (tables : UnicodeTables) (hne : digits ≠ [])
    (h : ∀ c ∈ digits, isHex c = true) : intBase16 tables digits = some (hexNat digits) := by
  have hascii : digits.map (toAscii tables) = digits :=
    (List.map_congr_left fun c hc => toAscii_of_isHex tables (h c hc)).trans (List.map_id' digits)
  match digits, hne with
  | c :: rest, _ =>
    have hc := h c List.mem_cons_self
    have hblank : (c :: rest).dropWhile isBlank = c :: rest := by
      rw [List.dropWhile_cons_of_neg]
      rw [isBlank_of_isHex hc]
      decide
    rw [intBase16, hascii, hblank, stripSign_of_isHex hc]
    dsimp only
    rw [stripMarker_of_isHex h, scanDigits_of_isHex h]
    simp [hc, hexNat]

end HexInt
