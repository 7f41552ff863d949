import EventSaver.Library.Json
import EventSaver.Library.Table
import Mathlib.Algebra.Field.Rat
import Mathlib.Data.String.Basic

/-!
# The canonical text of a JSON value

The text of a value with its members sorted by their keys, as `json.dumps(value, sort_keys=True,
ensure_ascii=False)` writes it. No text is the beginning of another one that goes on with a
delimiter, so a value can be read off its text, up to the order of members.
-/

namespace JsonData
open TableData

/-- Induction over the parts of a value. -/
@[elab_as_elim]
theorem Json.inductionOn {P : Json → Prop} (j : Json) (null : P .null) (bool : ∀ b, P (.bool b))
    (num : ∀ mantissa exponent, P (.num mantissa exponent)) (str : ∀ s, P (.str s))
    (arr : ∀ items, (∀ item ∈ items, P item) → P (.arr items))
    (obj : ∀ fields, (∀ field ∈ fields, P field.2) → P (.obj fields)) : P j :=
  @Json.rec P (fun items => ∀ item ∈ items, P item) (fun fields => ∀ field ∈ fields, P field.2)
    (fun field => P field.2) null bool num str arr obj
    (fun _ h => absurd h List.not_mem_nil)
    (fun _ _ hhead htail => List.forall_mem_cons.mpr ⟨hhead, htail⟩)
    (fun _ h => absurd h List.not_mem_nil)
    (fun _ _ hhead htail => List.forall_mem_cons.mpr ⟨hhead, htail⟩) (fun _ _ h => h) j

section Text

def quote : Char := Char.ofNat 0x22

def backslash : Char := Char.ofNat 0x5c

/-- The characters with an escape of one letter. -/
def escapes : List (Char × Char) :=
  [(backslash, backslash), (quote, quote), ('\n', 'n'), ('\r', 'r'), ('\t', 't'),
    (Char.ofNat 0x0c, 'f'), (Char.ofNat 0x08, 'b')]

def escape (c : Char) : List Char :=
  match escapes.lookup c with
  | some letter => [backslash, letter]
  | none =>
    if c.toNat < 0x20 then
      [backslash, 'u', '0', '0', Nat.digitChar (c.toNat / 16), Nat.digitChar (c.toNat % 16)]
    else [c]

def encodeString (s : String) : List Char := quote :: (s.toList.flatMap escape ++ [quote])

/-- The texts behind the first of a list, each after a separator. -/
def joinedTail (texts : List (List Char)) : List Char := texts.flatMap fun text => ',' :: ' ' :: text

def joined : List (List Char) → List Char
  | [] => []
  | text :: rest => text ++ joinedTail rest

/-- Entries in the order of their keys. -/
def sortKeys {α : Type} (entries : List (String × α)) : List (String × α) :=
  entries.insertionSort fun a b => a.1 ≤ b.1

def member (entry : String × List Char) : List Char :=
  encodeString entry.1 ++ ':' :: ' ' :: entry.2

variable (repr : Int → Int → List Char)

mutual

/-- `json.dumps` with sorted keys, where `repr` writes the numbers. -/
def dumps : Json → List Char
  | .null => ['n', 'u', 'l', 'l']
  | .bool true => ['t', 'r', 'u', 'e']
  | .bool false => ['f', 'a', 'l', 's', 'e']
  | .num mantissa exponent => repr mantissa exponent
  | .str s => encodeString s
  | .arr items => '[' :: (joined (dumpsItems items) ++ [']'])
  | .obj fields => '\x7b' :: (joined ((sortKeys (dumpsFields fields)).map member) ++ ['\x7d'])

def dumpsItems : List Json → List (List Char)
  | [] => []
  | item :: rest => dumps item :: dumpsItems rest

def dumpsFields : List (String × Json) → List (String × List Char)
  | [] => []
  | (key, value) :: rest => (key, dumps value) :: dumpsFields rest

end

end Text

section Sameness

/-- The numbers are of one type, `int` or `float`, and have one value. -/
def sameNumber (mantissa exponent mantissa' exponent' : Int) : Bool :=
  decide ((exponent = 0 ↔ exponent' = 0) ∧
    (mantissa : ℚ) * 10 ^ exponent = mantissa' * 10 ^ exponent')

mutual

/-- The values are equal up to the order of members, at every depth. -/
def Json.same : Json → Json → Bool
  | .null, .null => true
  | .bool b, .bool b' => b == b'
  | .num mantissa exponent, .num mantissa' exponent' =>
    sameNumber mantissa exponent mantissa' exponent'
  | .str s, .str s' => s == s'
  | .arr items, .arr items' => sameItems items items'
  | .obj fields, .obj fields' => fields.length == fields'.length && sameFields fields fields'
  | _, _ => false

def Json.sameItems : List Json → List Json → Bool
  | [], [] => true
  | item :: rest, item' :: rest' => Json.same item item' && sameItems rest rest'
  | _, _ => false

/-- Every member has a counterpart. -/
def Json.sameFields : List (String × Json) → List (String × Json) → Bool
  | [], _ => true
  | (key, value) :: rest, fields' =>
    (match fields'.lookup key with
    | some value' => Json.same value value'
    | none => false) && sameFields rest fields'

end

mutual

/-- The keys of each object in the value are distinct. -/
def Json.wellKeyed : Json → Bool
  | .arr items => wellKeyedItems items
  | .obj fields => decide (fields.map Prod.fst).Nodup && wellKeyedFields fields
  | _ => true

def Json.wellKeyedItems : List Json → Bool
  | [] => true
  | item :: rest => Json.wellKeyed item && wellKeyedItems rest

def Json.wellKeyedFields : List (String × Json) → Bool
  | [] => true
  | (_, value) :: rest => Json.wellKeyed value && wellKeyedFields rest

end

end Sameness

def isNumberChar (c : Char) : Bool := c.isDigit || c == '-' || c == '+' || c == '.' || c == 'e'

/-- Numbers are written by digits, signs, a point and an exponent mark, and no two in the same
way. -/
structure NumberText (repr : Int → Int → List Char) : Prop where
  nonempty : ∀ mantissa exponent, repr mantissa exponent ≠ []
  chars : ∀ mantissa exponent, ∀ c ∈ repr mantissa exponent, isNumberChar c = true
  exact : ∀ mantissa exponent mantissa' exponent',
    repr mantissa exponent = repr mantissa' exponent' ↔
      sameNumber mantissa exponent mantissa' exponent' = true

section Characters

variable {c c' : Char} {s t : List Char}

lemma escape_cases (c : Char) :
    (∃ letter, (c, letter) ∈ escapes ∧ escape c = [backslash, letter]) ∨
      (c.toNat < 0x20 ∧ escape c =
        [backslash, 'u', '0', '0', Nat.digitChar (c.toNat / 16), Nat.digitChar (c.toNat % 16)]) ∨
      (c ≠ quote ∧ c ≠ backslash ∧ escape c = [c]) := by
  unfold escape
  cases hlookup : escapes.lookup c with
  | some letter =>
    obtain ⟨before, after, hentries, _⟩ := List.lookup_eq_some_iff.mp hlookup
    refine .inl ⟨letter, ?_, rfl⟩
    rw [hentries]
    exact List.mem_append_right _ List.mem_cons_self
  | none =>
    by_cases hcontrol : c.toNat < 0x20
    · exact .inr (.inl ⟨hcontrol, if_pos hcontrol⟩)
    · refine .inr (.inr ⟨?_, ?_, if_neg hcontrol⟩)
      · rintro rfl
        cases hlookup
      · rintro rfl
        cases hlookup

lemma digitChar_inj {n m : Nat} (hn : n < 16) (hm : m < 16)
    (h : Nat.digitChar n = Nat.digitChar m) : n = m := by
  have hall : ∀ n < 16, ∀ m < 16, Nat.digitChar n = Nat.digitChar m → n = m := by decide
  exact hall n hn m hm h

/-- An escape begins with a character that does not end a string. -/
lemma escape_lead (c : Char) : ∃ first rest, escape c = first :: rest ∧ first ≠ quote := by
  rcases escape_cases c with ⟨letter, _, h⟩ | ⟨_, h⟩ | ⟨hquote, _, h⟩
  · exact ⟨_, _, h, by decide⟩
  · exact ⟨_, _, h, by decide⟩
  · exact ⟨_, _, h, hquote⟩

/-- An escape tells its character. -/
lemma escape_append_inj (h : escape c ++ s = escape c' ++ t) : c = c' ∧ s = t := by
  have hletters : ∀ e ∈ escapes, ∀ e' ∈ escapes, e.2 = e'.2 → e.1 = e'.1 := by decide
  have hmark : ∀ e ∈ escapes, e.2 ≠ 'u' := by decide
  rcases escape_cases c with ⟨letter, hmem, hc⟩ | ⟨hlt, hc⟩ | ⟨_, hplain, hc⟩ <;>
    rcases escape_cases c' with ⟨letter', hmem', hc'⟩ | ⟨hlt', hc'⟩ | ⟨_, hplain', hc'⟩ <;>
    rw [hc, hc'] at h
  · obtain ⟨hletter, hst⟩ := List.cons.inj (List.cons.inj h).2
    exact ⟨hletters _ hmem _ hmem' hletter, hst⟩
  · exact absurd (List.cons.inj (List.cons.inj h).2).1 (hmark _ hmem)
  · exact absurd (List.cons.inj h).1.symm hplain'
  · exact absurd (List.cons.inj (List.cons.inj h).2).1.symm (hmark _ hmem')
  · simp only [List.cons_append, List.nil_append, List.cons.injEq, true_and] at h
    have hhigh := digitChar_inj (by omega) (by omega) h.1
    have hlow := digitChar_inj (by omega) (by omega) h.2.1
    exact ⟨Char.toNat_inj.mp (by omega), h.2.2⟩
  · exact absurd (List.cons.inj h).1.symm hplain'
  · exact absurd (List.cons.inj h).1 hplain
  · exact absurd (List.cons.inj h).1 hplain
  · exact ⟨(List.cons.inj h).1, (List.cons.inj h).2⟩

/-- A string ends where its closing quote is. -/
lemma encodeString_append_inj {a b : String} (h : encodeString a ++ s = encodeString b ++ t) :
    a = b ∧ s = t := by
  have hchars (l l' : List Char)
      (h : l.flatMap escape ++ quote :: s = l'.flatMap escape ++ quote :: t) : l = l' ∧ s = t := by
    induction l generalizing l' with
    | nil =>
      cases l' with
      | nil => exact ⟨rfl, (List.cons.inj h).2⟩
      | cons c' rest' =>
        obtain ⟨first, more, hescape, hquote⟩ := escape_lead c'
        rw [List.flatMap_cons, hescape] at h
        exact absurd (List.cons.inj h).1.symm hquote
    | cons c rest ih =>
      cases l' with
      | nil =>
        obtain ⟨first, more, hescape, hquote⟩ := escape_lead c
        rw [List.flatMap_cons, hescape] at h
        exact absurd (List.cons.inj h).1 hquote
      | cons c' rest' =>
        rw [List.flatMap_cons, List.flatMap_cons, List.append_assoc, List.append_assoc] at h
        obtain ⟨rfl, hrest⟩ := escape_append_inj h
        obtain ⟨rfl, hst⟩ := ih rest' hrest
        exact ⟨rfl, hst⟩
  rw [encodeString, encodeString, List.cons_append, List.cons_append, List.append_assoc,
    List.append_assoc] at h
  obtain ⟨hab, hst⟩ := hchars _ _ (List.cons.inj h).2
  exact ⟨String.toList_injective hab, hst⟩

/-- A text that does not go on with a number. -/
def Ended (s : List Char) : Prop := ∀ c ∈ s.head?, isNumberChar c = false

lemma Ended.cons (h : isNumberChar c = false) (s : List Char) : Ended (c :: s) := by
  intro c' hc'
  cases hc'
  exact h

/-- A number ends where its characters do. -/
lemma number_append_inj {l l' : List Char} (hl : ∀ c ∈ l, isNumberChar c = true)
    (hl' : ∀ c ∈ l', isNumberChar c = true) (hs : Ended s) (ht : Ended t)
    (h : l ++ s = l' ++ t) : l = l' ∧ s = t := by
  induction l generalizing l' with
  | nil =>
    cases l' with
    | nil => exact ⟨rfl, h⟩
    | cons c' rest' =>
      have hnumber := hl' c' List.mem_cons_self
      rw [List.nil_append] at h
      subst h
      rw [hs c' rfl] at hnumber
      cases hnumber
  | cons c rest ih =>
    cases l' with
    | nil =>
      have hnumber := hl c List.mem_cons_self
      rw [List.nil_append] at h
      subst h
      rw [ht c rfl] at hnumber
      cases hnumber
    | cons c' rest' =>
      rw [List.forall_mem_cons] at hl hl'
      obtain ⟨rfl, hrest⟩ := List.cons.inj h
      obtain ⟨rfl, hst⟩ := ih hl.2 hl'.2 hrest
      exact ⟨rfl, hst⟩

end Characters

section Parts

variable {repr : Int → Int → List Char} {items items' : List Json}
  {fields fields' : List (String × Json)}

lemma dumpsItems_eq (items : List Json) : dumpsItems repr items = items.map (dumps repr) := by
  induction items with
  | nil => rfl
  | cons item rest ih => rw [dumpsItems, ih, List.map_cons]

lemma dumpsFields_eq (fields : List (String × Json)) :
    dumpsFields repr fields = fields.map fun field => (field.1, dumps repr field.2) := by
  induction fields with
  | nil => rfl
  | cons field rest ih => rw [dumpsFields, ih, List.map_cons]

lemma sortKeys_map {α β : Type} (f : α → β) (entries : List (String × α)) :
    sortKeys (entries.map fun entry => (entry.1, f entry.2)) =
      (sortKeys entries).map fun entry => (entry.1, f entry.2) := by
  exact (List.map_insertionSort (fun a b : String × α => a.1 ≤ b.1)
    (fun a b : String × β => a.1 ≤ b.1) (fun entry => (entry.1, f entry.2)) entries
    fun _ _ _ _ => Iff.rfl).symm

lemma dumps_arr (items : List Json) :
    dumps repr (.arr items) = '[' :: (joined (items.map (dumps repr)) ++ [']']) := by
  rw [dumps, dumpsItems_eq]

lemma dumps_obj (fields : List (String × Json)) :
    dumps repr (.obj fields) = '\x7b' :: (joined ((sortKeys fields).map fun field =>
      member (field.1, dumps repr field.2)) ++ ['\x7d']) := by
  rw [dumps, dumpsFields_eq, sortKeys_map, List.map_map]
  rfl

lemma sameItems_iff : Json.sameItems items items' = true ↔
    List.Forall₂ (fun item item' => item.same item' = true) items items' := by
  induction items generalizing items' with
  | nil => cases items' <;> simp [Json.sameItems]
  | cons item rest ih =>
    cases items' with
    | nil => simp [Json.sameItems]
    | cons item' rest' => rw [Json.sameItems, Bool.and_eq_true, ih, List.forall₂_cons]

lemma sameFields_iff : Json.sameFields fields fields' = true ↔
    ∀ field ∈ fields, ∃ value, fields'.lookup field.1 = some value ∧
      field.2.same value = true := by
  induction fields with
  | nil => simp [Json.sameFields]
  | cons field rest ih =>
    rw [Json.sameFields, Bool.and_eq_true, ih, List.forall_mem_cons]
    refine and_congr_left fun _ => ?_
    cases fields'.lookup field.1 <;> simp

lemma wellKeyed_arr : (Json.arr items).wellKeyed = true ↔ ∀ item ∈ items, item.wellKeyed = true := by
  rw [Json.wellKeyed]
  induction items with
  | nil => simp [Json.wellKeyedItems]
  | cons item rest ih => rw [Json.wellKeyedItems, Bool.and_eq_true, ih, List.forall_mem_cons]

lemma wellKeyed_obj : (Json.obj fields).wellKeyed = true ↔
    (fields.map Prod.fst).Nodup ∧ ∀ field ∈ fields, field.2.wellKeyed = true := by
  have hfields : Json.wellKeyedFields fields = true ↔
      ∀ field ∈ fields, field.2.wellKeyed = true := by
    induction fields with
    | nil => simp [Json.wellKeyedFields]
    | cons field rest ih => rw [Json.wellKeyedFields, Bool.and_eq_true, ih, List.forall_mem_cons]
  rw [Json.wellKeyed, Bool.and_eq_true, decide_eq_true_eq, hfields]

/-- What a value begins with tells its kind. -/
def leadKind (c : Char) : Nat :=
  if c = 'n' then 0
  else if c = 't' then 1
  else if c = 'f' then 2
  else if c = quote then 3
  else if c = '[' then 4
  else if c = '\x7b' then 5
  else if isNumberChar c then 6
  else 7

def Json.kind : Json → Nat
  | .null => 0
  | .bool true => 1
  | .bool false => 2
  | .str _ => 3
  | .arr _ => 4
  | .obj _ => 5
  | .num _ _ => 6

lemma leadKind_number {c : Char} (h : isNumberChar c = true) : leadKind c = 6 := by
  have hne (d : Char) (hd : isNumberChar d = false) : c ≠ d := by
    rintro rfl
    rw [hd] at h
    cases h
  rw [leadKind, if_neg (hne _ (by decide)), if_neg (hne _ (by decide)), if_neg (hne _ (by decide)),
    if_neg (hne _ (by decide)), if_neg (hne _ (by decide)), if_neg (hne _ (by decide)), if_pos h]

lemma dumps_lead (hrepr : NumberText repr) (j : Json) :
    ∃ c rest, dumps repr j = c :: rest ∧ leadKind c = j.kind := by
  cases j with
  | null => exact ⟨_, _, rfl, by decide⟩
  | bool b => cases b <;> exact ⟨_, _, rfl, by decide⟩
  | num mantissa exponent =>
    obtain ⟨c, rest, hlead⟩ := List.exists_cons_of_ne_nil (hrepr.nonempty mantissa exponent)
    refine ⟨c, rest, hlead, leadKind_number (hrepr.chars mantissa exponent c ?_)⟩
    rw [hlead]
    exact List.mem_cons_self
  | str s => exact ⟨quote, _, rfl, rfl⟩
  | arr items => exact ⟨'[', _, dumps_arr items, rfl⟩
  | obj fields => exact ⟨'\x7b', _, dumps_obj fields, rfl⟩

end Parts

section Lists

variable {α β : Type} {R : α → β → Prop} {f : α → List Char} {g : β → List Char} {as : List α}
  {bs : List β} {close : Char} {s t : List Char}

lemma ended_joinedTail (hclose : isNumberChar close = false) (texts : List (List Char))
    (s : List Char) : Ended (joinedTail texts ++ close :: s) := by
  cases texts with
  | nil => exact .cons hclose s
  | cons text rest =>
    rw [joinedTail, List.flatMap_cons]
    exact .cons (by decide) _

/-- Lists of texts that can be read one by one. -/
lemma joinedTail_append_inj (hclose : isNumberChar close = false) (hcomma : close ≠ ',')
    (hread : ∀ a ∈ as, ∀ b ∈ bs, ∀ s t, Ended s → Ended t → f a ++ s = g b ++ t → R a b ∧ s = t)
    (h : joinedTail (as.map f) ++ close :: s = joinedTail (bs.map g) ++ close :: t) :
    List.Forall₂ R as bs ∧ s = t := by
  induction as generalizing bs with
  | nil =>
    cases bs with
    | nil => exact ⟨.nil, (List.cons.inj h).2⟩
    | cons b rest' => exact absurd (List.cons.inj h).1 hcomma
  | cons a rest ih =>
    cases bs with
    | nil => exact absurd (List.cons.inj h).1.symm hcomma
    | cons b rest' =>
      have hstep : f a ++ (joinedTail (rest.map f) ++ close :: s) =
          g b ++ (joinedTail (rest'.map g) ++ close :: t) := by
        simpa [joinedTail] using h
      obtain ⟨hab, hrest⟩ := hread a List.mem_cons_self b List.mem_cons_self _ _
        (ended_joinedTail hclose _ s) (ended_joinedTail hclose _ t) hstep
      obtain ⟨hall, hst⟩ := ih (fun a ha b hb => hread a (List.mem_cons_of_mem _ ha) b
        (List.mem_cons_of_mem _ hb)) hrest
      exact ⟨.cons hab hall, hst⟩

lemma joined_append_inj (hclose : isNumberChar close = false) (hcomma : close ≠ ',')
    (hread : ∀ a ∈ as, ∀ b ∈ bs, ∀ s t, Ended s → Ended t → f a ++ s = g b ++ t → R a b ∧ s = t)
    (hf : ∀ a, ∃ c rest, f a = c :: rest ∧ c ≠ close)
    (hg : ∀ b, ∃ c rest, g b = c :: rest ∧ c ≠ close)
    (h : joined (as.map f) ++ close :: s = joined (bs.map g) ++ close :: t) :
    List.Forall₂ R as bs ∧ s = t := by
  cases as with
  | nil =>
    cases bs with
    | nil => exact ⟨.nil, (List.cons.inj h).2⟩
    | cons b rest' =>
      obtain ⟨c, more, hb, hne⟩ := hg b
      rw [List.map_cons, joined, hb] at h
      exact absurd (List.cons.inj h).1.symm hne
  | cons a rest =>
    cases bs with
    | nil =>
      obtain ⟨c, more, ha, hne⟩ := hf a
      rw [List.map_cons, joined, ha] at h
      exact absurd (List.cons.inj h).1 hne
    | cons b rest' =>
      rw [List.map_cons, List.map_cons, joined, joined, List.append_assoc, List.append_assoc] at h
      obtain ⟨hab, hrest⟩ := hread a List.mem_cons_self b List.mem_cons_self _ _
        (ended_joinedTail hclose _ s) (ended_joinedTail hclose _ t) h
      obtain ⟨hall, hst⟩ := joinedTail_append_inj hclose hcomma (fun a ha b hb =>
        hread a (List.mem_cons_of_mem _ ha) b (List.mem_cons_of_mem _ hb)) hrest
      exact ⟨.cons hab hall, hst⟩

end Lists

section Readability

variable {repr : Int → Int → List Char} {p q : Json} {s t : List Char}

lemma mem_sortKeys {α : Type} {entries : List (String × α)} {entry : String × α} :
    entry ∈ sortKeys entries ↔ entry ∈ entries :=
  (List.perm_insertionSort _ entries).mem_iff

lemma kind_lt (j : Json) : j.kind < 7 := by
  cases j with
  | bool b => cases b <;> decide
  | _ => simp [Json.kind]

/-- No value begins with a closing bracket. -/
lemma dumps_lead_ne (hrepr : NumberText repr) {close : Char} (hclose : leadKind close = 7)
    (j : Json) : ∃ c rest, dumps repr j = c :: rest ∧ c ≠ close := by
  obtain ⟨c, rest, hlead, hc⟩ := dumps_lead hrepr j
  refine ⟨c, rest, hlead, ?_⟩
  rintro rfl
  exact absurd (hc.symm.trans hclose) (kind_lt j).ne

lemma kind_eq (hrepr : NumberText repr) (h : dumps repr p ++ s = dumps repr q ++ t) :
    p.kind = q.kind := by
  obtain ⟨c, rest, hp, hc⟩ := dumps_lead hrepr p
  obtain ⟨c', rest', hq, hc'⟩ := dumps_lead hrepr q
  rw [hp, hq] at h
  rw [← hc, ← hc', (List.cons.inj h).1]

/-- Members whose values can be read off their texts. -/
lemma member_append_inj {field field' : String × Json} (hs : Ended s) (ht : Ended t)
    (hread : ∀ s t, Ended s → Ended t → dumps repr field.2 ++ s = dumps repr field'.2 ++ t →
      field.2.same field'.2 = true ∧ s = t)
    (h : member (field.1, dumps repr field.2) ++ s = member (field'.1, dumps repr field'.2) ++ t) :
    (field.1 = field'.1 ∧ field.2.same field'.2 = true) ∧ s = t := by
  rw [member, member, List.append_assoc, List.append_assoc] at h
  obtain ⟨hkey, hrest⟩ := encodeString_append_inj h
  obtain ⟨hsame, hst⟩ := hread s t hs ht (List.cons.inj (List.cons.inj hrest).2).2
  exact ⟨⟨hkey, hsame⟩, hst⟩

/-- Members that are the same in the order of their keys are the same in any order. -/
lemma same_of_sorted {fields fields' : List (String × Json)}
    (hkeys : (fields'.map Prod.fst).Nodup)
    (h : List.Forall₂ (fun field field' => field.1 = field'.1 ∧ field.2.same field'.2 = true)
      (sortKeys fields) (sortKeys fields')) :
    (Json.obj fields).same (.obj fields') = true := by
  rw [Json.same, Bool.and_eq_true, beq_iff_eq, sameFields_iff]
  constructor
  · have hlength := h.length_eq
    rwa [sortKeys, sortKeys, List.length_insertionSort, List.length_insertionSort] at hlength
  · intro field hfield
    obtain ⟨field', hfield', hkey, hsame⟩ := exists_mem_of_forall₂ h (mem_sortKeys.mpr hfield)
    refine ⟨field'.2, ?_, hsame⟩
    rw [hkey]
    exact lookup_of_mem hkeys (mem_sortKeys.mp hfield')

/-- A value can be read off its text, up to the order of members. -/
lemma dumps_append_inj (hrepr : NumberText repr) (hp : p.wellKeyed = true)
    (hq : q.wellKeyed = true) (hs : Ended s) (ht : Ended t)
    (h : dumps repr p ++ s = dumps repr q ++ t) : p.same q = true ∧ s = t := by
  induction p using Json.inductionOn generalizing q s t with
  | null =>
    have hkind := kind_eq hrepr h
    cases q with
    | null => exact ⟨rfl, List.append_cancel_left h⟩
    | bool b => cases b <;> cases hkind
    | _ => cases hkind
  | bool b =>
    have hkind := kind_eq hrepr h
    cases q with
    | bool b' =>
      obtain rfl : b = b' := by cases b <;> cases b' <;> first | rfl | cases hkind
      exact ⟨beq_iff_eq.mpr rfl, List.append_cancel_left h⟩
    | _ => cases b <;> cases hkind
  | num mantissa exponent =>
    have hkind := kind_eq hrepr h
    cases q with
    | num mantissa' exponent' =>
      rw [dumps, dumps] at h
      obtain ⟨hsame, hst⟩ := number_append_inj (hrepr.chars mantissa exponent)
        (hrepr.chars mantissa' exponent') hs ht h
      exact ⟨(hrepr.exact _ _ _ _).mp hsame, hst⟩
    | bool b => cases b <;> cases hkind
    | _ => cases hkind
  | str a =>
    have hkind := kind_eq hrepr h
    cases q with
    | str b =>
      obtain ⟨rfl, hst⟩ := encodeString_append_inj h
      exact ⟨beq_iff_eq.mpr rfl, hst⟩
    | bool b => cases b <;> cases hkind
    | _ => cases hkind
  | arr items ih =>
    have hkind := kind_eq hrepr h
    cases q with
    | arr items' =>
      have hread (item) (hitem : item ∈ items) (item') (hitem' : item' ∈ items') (s t)
          (hs : Ended s) (ht : Ended t) (h : dumps repr item ++ s = dumps repr item' ++ t) :
          item.same item' = true ∧ s = t :=
        ih item hitem (wellKeyed_arr.mp hp item hitem) (wellKeyed_arr.mp hq item' hitem') hs ht h
      rw [dumps_arr, dumps_arr, List.cons_append, List.cons_append, List.append_assoc,
        List.append_assoc] at h
      obtain ⟨hall, hst⟩ := joined_append_inj (by decide) (by decide) hread
        (dumps_lead_ne hrepr (by decide)) (dumps_lead_ne hrepr (by decide)) (List.cons.inj h).2
      exact ⟨sameItems_iff.mpr hall, hst⟩
    | bool b => cases b <;> cases hkind
    | _ => cases hkind
  | obj fields ih =>
    have hkind := kind_eq hrepr h
    cases q with
    | obj fields' =>
      have hp' := (wellKeyed_obj.mp hp).2
      obtain ⟨hkeys, hq'⟩ := wellKeyed_obj.mp hq
      have hread (field) (hfield : field ∈ sortKeys fields) (field')
          (hfield' : field' ∈ sortKeys fields') (s t) (hs : Ended s) (ht : Ended t)
          (h : member (field.1, dumps repr field.2) ++ s =
            member (field'.1, dumps repr field'.2) ++ t) :
          (field.1 = field'.1 ∧ field.2.same field'.2 = true) ∧ s = t := by
        rw [mem_sortKeys] at hfield hfield'
        exact member_append_inj hs ht (fun s t hs ht h => ih field hfield (hp' field hfield)
          (hq' field' hfield') hs ht h) h
      have hlead (field : String × Json) : ∃ c rest,
          member (field.1, dumps repr field.2) = c :: rest ∧ c ≠ '\x7d' :=
        ⟨quote, _, rfl, by decide⟩
      rw [dumps_obj, dumps_obj, List.cons_append, List.cons_append, List.append_assoc,
        List.append_assoc] at h
      obtain ⟨hall, hst⟩ := joined_append_inj (by decide) (by decide) hread hlead hlead
        (List.cons.inj h).2
      exact ⟨same_of_sorted hkeys hall, hst⟩
    | bool b => cases b <;> cases hkind
    | _ => cases hkind

lemma map_eq_map_of_forall₂ {α β γ : Type} {R : α → β → Prop} {f : α → γ} {g : β → γ} {as : List α}
    {bs : List β} (h : List.Forall₂ R as bs) (hfg : ∀ a ∈ as, ∀ b ∈ bs, R a b → f a = g b) :
    as.map f = bs.map g := by
  induction h with
  | nil => rfl
  | cons hab _ ih =>
    rw [List.map_cons, List.map_cons, hfg _ List.mem_cons_self _ List.mem_cons_self hab,
      ih fun a ha b hb => hfg a (List.mem_cons_of_mem _ ha) b (List.mem_cons_of_mem _ hb)]

/-- Entries with distinct keys are sorted in one way. -/
lemma sortKeys_eq_of_perm {α : Type} {entries entries' : List (String × α)}
    (hkeys : (entries.map Prod.fst).Nodup) (h : entries.Perm entries') :
    sortKeys entries = sortKeys entries' := by
  have : Std.Total fun a b : String × α => a.1 ≤ b.1 := ⟨fun a b => le_total a.1 b.1⟩
  have : IsTrans (String × α) fun a b => a.1 ≤ b.1 := ⟨fun _ _ _ => le_trans⟩
  have hperm : (sortKeys entries).Perm (sortKeys entries') :=
    (List.perm_insertionSort _ entries).trans (h.trans (List.perm_insertionSort _ entries').symm)
  refine hperm.eq_of_pairwise (fun a b ha hb hab hba => ?_) (List.pairwise_insertionSort _ entries)
    (List.pairwise_insertionSort _ entries')
  rw [mem_sortKeys] at ha hb
  exact List.inj_on_of_nodup_map hkeys ha (h.mem_iff.mpr hb) (le_antisymm hab hba)

/-- Values that are equal up to the order of members have one text. -/
lemma dumps_eq_of_same (hrepr : NumberText repr) (hp : p.wellKeyed = true)
    (hq : q.wellKeyed = true) (h : p.same q = true) : dumps repr p = dumps repr q := by
  induction p using Json.inductionOn generalizing q with
  | null =>
    cases q with
    | null => rfl
    | _ => cases h
  | bool b =>
    cases q with
    | bool b' => rw [beq_iff_eq.mp h]
    | _ => cases h
  | num mantissa exponent =>
    cases q with
    | num mantissa' exponent' => exact (hrepr.exact _ _ _ _).mpr h
    | _ => cases h
  | str a =>
    cases q with
    | str b => rw [beq_iff_eq.mp h]
    | _ => cases h
  | arr items ih =>
    cases q with
    | arr items' =>
      have htexts := map_eq_map_of_forall₂ (f := dumps repr) (g := dumps repr)
        (sameItems_iff.mp h) fun item hitem item' hitem' hsame =>
          ih item hitem (wellKeyed_arr.mp hp item hitem) (wellKeyed_arr.mp hq item' hitem') hsame
      rw [dumps_arr, dumps_arr, htexts]
    | _ => cases h
  | obj fields ih =>
    cases q with
    | obj fields' =>
      obtain ⟨hkeys, hp'⟩ := wellKeyed_obj.mp hp
      obtain ⟨hkeys', hq'⟩ := wellKeyed_obj.mp hq
      rw [Json.same, Bool.and_eq_true, beq_iff_eq, sameFields_iff] at h
      obtain ⟨hlength, hfields⟩ := h
      rw [dumps, dumps]
      have hnodup : (dumpsFields repr fields).Nodup := by
        rw [dumpsFields_eq]
        refine List.Nodup.of_map Prod.fst ?_
        rw [List.map_map]
        exact hkeys
      have hsubset : dumpsFields repr fields ⊆ dumpsFields repr fields' := by
        rw [dumpsFields_eq, dumpsFields_eq]
        intro entry hentry
        obtain ⟨field, hfield, rfl⟩ := List.mem_map.mp hentry
        obtain ⟨value, hlookup, hsame⟩ := hfields field hfield
        obtain ⟨before, after, hentries, _⟩ := List.lookup_eq_some_iff.mp hlookup
        have hvalue : (field.1, value) ∈ fields' := by
          rw [hentries]
          exact List.mem_append_right _ List.mem_cons_self
        refine List.mem_map.mpr ⟨_, hvalue, ?_⟩
        rw [ih field hfield (hp' field hfield) (hq' _ hvalue) hsame]
      have hperm : (dumpsFields repr fields).Perm (dumpsFields repr fields') := by
        refine (List.subperm_of_subset hnodup hsubset).perm_of_length_le ?_
        rw [dumpsFields_eq, dumpsFields_eq, List.length_map, List.length_map, hlength]
      have hfst : ((dumpsFields repr fields).map Prod.fst).Nodup := by
        rw [dumpsFields_eq, List.map_map]
        exact hkeys
      rw [sortKeys_eq_of_perm hfst hperm]
    | _ => cases h

/-- The text of a value tells it up to the order of members, and tells nothing else. -/
theorem dumps_eq_iff (hrepr : NumberText repr) (hp : p.wellKeyed = true) (hq : q.wellKeyed = true) :
    dumps repr p = dumps repr q ↔ p.same q = true := by
  have hended : Ended [] := fun c hc => by cases hc
  refine ⟨fun h => ?_, dumps_eq_of_same hrepr hp hq⟩
  exact (dumps_append_inj hrepr hp hq hended hended (congrArg (· ++ []) h)).1

end Readability

end JsonData
