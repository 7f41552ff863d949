import EventSaver.Library.HexInt
import Mathlib.Data.List.Induction
import Mathlib.Tactic.Ring

/-!
# Writing hexadecimal integers

`formatHex` is the conversion `format(n, "0wx")` for a width `w`. What is written in this way is read
as the same number, and digits that are read and written again come out in lower case.
-/

namespace HexInt

/-- `format(n, "0wx")` for the width `w`. -/
def formatHex (width : Nat) : Int → List Char
  | .ofNat n => (Nat.toDigits 16 n).leftpad width '0'
  | .negSucc n => '-' :: (Nat.toDigits 16 (n + 1)).leftpad (width - 1) '0'

/-- The last hexadecimal digits of a number. -/
def hexDigits : Nat → Nat → List Char
  | 0, _ => []
  | width + 1, n => hexDigits width (n / 16) ++ [Nat.digitChar (n % 16)]

section Writing

lemma hexDigits_zero (width : Nat) : hexDigits width 0 = List.replicate width '0' := by
  induction width with
  | zero => rfl
  | succ width ih =>
    rw [hexDigits, Nat.zero_div, ih, List.replicate_succ']
    rfl

lemma length_hexDigits (width n : Nat) : (hexDigits width n).length = width := by
  induction width generalizing n with
  | zero => rfl
  | succ width ih => rw [hexDigits, List.length_append, ih, List.length_singleton]

lemma leftpad_concat (width : Nat) (digits : List Char) (c : Char) :
    (digits ++ [c]).leftpad (width + 1) '0' = digits.leftpad width '0' ++ [c] := by
  simp [List.leftpad]

/-- A number with at most as many digits as the width is written by that many digits. -/
lemma formatHex_eq {width n : Nat} (hwidth : 0 < width) (hn : n < 16 ^ width) :
    formatHex width n = hexDigits width n := by
  change (Nat.toDigits 16 n).leftpad width '0' = _
  induction width generalizing n with
  | zero => cases hwidth
  | succ width ih =>
    rcases Nat.lt_or_ge n 16 with hlt | hge
    · rw [Nat.toDigits_of_lt_base hlt, hexDigits, Nat.div_eq_of_lt hlt, Nat.mod_eq_of_lt hlt,
        hexDigits_zero]
      simp [List.leftpad]
    · have hpos : 0 < width := by
        rcases Nat.eq_zero_or_pos width with rfl | hpos
        · omega
        · exact hpos
      have hdiv : n / 16 < 16 ^ width := by
        rw [Nat.div_lt_iff_lt_mul (by decide), ← pow_succ]
        exact hn
      rw [Nat.toDigits_of_base_le (by decide) hge, leftpad_concat, ih hpos hdiv, hexDigits]

lemma digitChar_isHex {d : Nat} (hd : d < 16) : isHex (Nat.digitChar d) = true ∧
    hexValue (Nat.digitChar d) = some d ∧ (Nat.digitChar d).toLower = Nat.digitChar d := by
  have hall : ∀ d < 16, isHex (Nat.digitChar d) = true ∧
    hexValue (Nat.digitChar d) = some d ∧ (Nat.digitChar d).toLower = Nat.digitChar d := by decide
  exact hall d hd

lemma isHex_hexDigits (width n : Nat) : ∀ c ∈ hexDigits width n, isHex c = true ∧ c.toLower = c := by
  induction width generalizing n with
  | zero => exact fun c hc => absurd hc List.not_mem_nil
  | succ width ih =>
    intro c hc
    rcases List.mem_append.mp hc with hc | hc
    · exact ih _ c hc
    · obtain ⟨hhex, _, hlower⟩ := digitChar_isHex (Nat.mod_lt n (by decide : 0 < 16))
      rw [List.mem_singleton.mp hc]
      exact ⟨hhex, hlower⟩

lemma hexNat_concat (digits : List Char) (c : Char) :
    hexNat (digits ++ [c]) = 16 * hexNat digits + (hexValue c).getD 0 := by
  rw [hexNat, hexNatFrom, List.foldl_concat]
  rfl

/-- What is written is read as the same number. -/
lemma hexNat_hexDigits {width n : Nat} (hn : n < 16 ^ width) : hexNat (hexDigits width n) = n := by
  induction width generalizing n with
  | zero =>
    rw [pow_zero, Nat.lt_one_iff] at hn
    rw [hn]
    rfl
  | succ width ih =>
    have hdiv : n / 16 < 16 ^ width := by
      rw [Nat.div_lt_iff_lt_mul (by decide), ← pow_succ]
      exact hn
    rw [hexDigits, hexNat_concat, ih hdiv, (digitChar_isHex (Nat.mod_lt n (by decide))).2.1]
    exact Nat.div_add_mod n 16

end Writing

section Reading

variable {c : Char} {digits text : List Char}

lemma hexValue_lt {d : Nat} (h : hexValue c = some d) : d < 16 := by
  unfold hexValue at h
  split at h
  · cases h
    omega
  · split at h
    · cases h
      omega
    · split at h
      · cases h
        omega
      · cases h

/-- The digit of the value of a digit is the same one in lower case. -/
lemma digitChar_hexValue (h : isHex c = true) :
    Nat.digitChar ((hexValue c).getD 0) = c.toLower := by
  have hall : ∀ n < 128, isHex (Char.ofNat n) = true →
      Nat.digitChar ((hexValue (Char.ofNat n)).getD 0) = (Char.ofNat n).toLower := by decide
  have hrange := isHex_range h
  have hc := hall c.toNat (by omega)
  rw [Char.ofNat_toNat] at hc
  exact hc h

/-- Digits that are read and written again come out in lower case. -/
lemma hexDigits_hexNat (h : ∀ c ∈ digits, isHex c = true) :
    hexDigits digits.length (hexNat digits) = digits.map Char.toLower := by
  induction digits using List.reverseRecOn with
  | nil => rfl
  | append_singleton rest c ih =>
    rw [List.forall_mem_append, List.forall_mem_singleton] at h
    obtain ⟨d, hd⟩ := Option.isSome_iff_exists.mp h.2
    have hlt := hexValue_lt hd
    have hdigit := digitChar_hexValue h.2
    rw [hd, Option.getD_some] at hdigit
    rw [List.length_append, List.length_singleton, hexDigits, hexNat_concat, hd, Option.getD_some,
      List.map_append, List.map_singleton, ← hdigit]
    have hdiv : (16 * hexNat rest + d) / 16 = hexNat rest := by omega
    have hmod : (16 * hexNat rest + d) % 16 = d := by omega
    rw [hdiv, hmod, ih h.1]

/-- The value of scanned digits has at most as many digits as the text. -/
lemma scanDigits_lt {after : Bool} {value result : Nat} {rest : List Char}
    (h : scanDigits after value text = some (result, rest)) :
    result < (value + 1) * 16 ^ text.length := by
  induction text generalizing after value with
  | nil =>
    rw [scanDigits] at h
    split at h
    · cases h
    · cases h
      simp
  | cons c more ih =>
    have hpow : 0 < 16 ^ more.length := Nat.pow_pos (by decide)
    rw [List.length_cons, pow_succ]
    rw [scanDigits] at h
    split at h
    next d hd =>
      have hnext := ih h
      have hlt := hexValue_lt hd
      calc result < (16 * value + d + 1) * 16 ^ more.length := hnext
        _ ≤ (16 * (value + 1)) * 16 ^ more.length := Nat.mul_le_mul_right _ (by omega)
        _ = (value + 1) * (16 ^ more.length * 16) := by ring
    next =>
      have hskip (after : Bool) (h : scanDigits after value more = some (result, rest)) :
          result < (value + 1) * (16 ^ more.length * 16) :=
        lt_of_lt_of_le (ih h) (Nat.mul_le_mul_left _ (Nat.le_mul_of_pos_right _ (by decide)))
      split at h
      · split at h
        · cases h
        · exact hskip true h
      · split at h
        · cases h
        · cases h
          exact Nat.lt_of_lt_of_le (Nat.lt_succ_self _) (Nat.le_mul_of_pos_right _ (by omega))

lemma length_dropWhile_le (p : Char → Bool) (text : List Char) :
    (text.dropWhile p).length ≤ text.length :=
  (List.dropWhile_suffix p).length_le

lemma length_stripMarker_le (text : List Char) : (stripMarker text).length ≤ text.length := by
  unfold stripMarker
  split
  · exact Nat.le_add_right _ 3
  · exact Nat.le_add_right _ 2
  · exact Nat.le_add_right _ 3
  · exact Nat.le_add_right _ 2
  · exact le_rfl

/-- A text without a minus sign has no negative value. -/
lemma stripSign_of_no_minus (h : '-' ∉ text) :
    (stripSign text).1 = false ∧ (stripSign text).2.length ≤ text.length := by
  unfold stripSign
  split
  · exact ⟨rfl, Nat.le_succ _⟩
  · exact absurd List.mem_cons_self h
  · exact ⟨rfl, le_rfl⟩

lemma toAscii_ne_minus (tables : UnicodeTables) (h : c ≠ '-') : toAscii tables c ≠ '-' := by
  unfold toAscii
  split
  · exact h
  · split
    · decide
    · split
      next d _ =>
        have hall : ∀ d : Fin 10, Char.ofNat (48 + d.val) ≠ '-' := by decide
        exact hall d
      next => decide

/-- A text without a minus sign is read as a number with at most as many digits as it has
characters. -/
theorem intBase16_bounds {tables : UnicodeTables} {n : Int} (hminus : '-' ∉ text)
    (h : intBase16 tables text = some n) : 0 ≤ n ∧ n < 16 ^ text.length := by
  have hascii : '-' ∉ (text.map (toAscii tables)).dropWhile isBlank := by
    intro hmem
    obtain ⟨c, hc, hsame⟩ := List.mem_map.mp ((List.dropWhile_suffix _).subset hmem)
    exact toAscii_ne_minus tables (fun heq => hminus (heq ▸ hc)) hsame
  obtain ⟨hsign, hlength⟩ := stripSign_of_no_minus hascii
  have hdigits := (length_stripMarker_le _).trans
    (hlength.trans (length_dropWhile_le isBlank (text.map (toAscii tables))))
  rw [List.length_map] at hdigits
  rw [intBase16] at h
  split at h
  · split at h
    next value rest hscan =>
      split at h
      · rw [hsign, if_neg Bool.false_ne_true] at h
        cases h
        have hvalue := scanDigits_lt hscan
        rw [Nat.zero_add, Nat.one_mul] at hvalue
        have hpow := Nat.pow_le_pow_right (by decide : 0 < 16) hdigits
        exact ⟨Int.natCast_nonneg value, by exact_mod_cast hvalue.trans_le hpow⟩
      · cases h
    next => cases h
  · cases h

end Reading

end HexInt
