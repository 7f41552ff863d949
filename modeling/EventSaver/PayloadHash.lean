import EventSaver.ExactlyOnce
import EventSaver.Library.JsonText
import Mathlib.Data.Rat.Lemmas

/-!
# The payload hash

The hash of a stored event is the digest of the canonical text of the payload that was delivered. It
does not depend on the order in which the members of an object come, and tells any other two
payloads apart for which the digest does not collide.
-/

namespace EventSaver
open JsonData TableData EffectProgram

/-- `_compute_payload_hash`, where `repr` writes the numbers and `md5` is the digest of a text. -/
def EventParser.computePayloadHash (repr : Int → Int → List Char) (md5 : String → String)
    (payload : Json) : String :=
  md5 (String.ofList (dumps repr payload))

/-- The two different texts of two payloads have one digest. -/
def Collide (repr : Int → Int → List Char) (md5 : String → String) (p q : Json) : Prop :=
  dumps repr p ≠ dumps repr q ∧
    md5 (String.ofList (dumps repr p)) = md5 (String.ofList (dumps repr q))

section Rows

variable {ext : Externals} {db : Db}

/-- Every stored row holds the hash of the payload it was delivered with. -/
lemma Db.Reachable.hash_eq (h : db.Reachable ext) :
    ∀ e ∈ db.tables.events, e.hash = ext.payloadHash e.payload := by
  induction h with
  | empty => exact fun e he => absurd he List.not_mem_nil
  | @save db hdb fault now m ih =>
    rcases saveEventUnder_cases ext fault now m db with heffect | htables
    · obtain ⟨event, hparse, hingest⟩ := bind_eq_ok.mp heffect
      obtain ⟨occurredAt, _, hevent⟩ := bind_eq_ok.mp hparse
      rw [ingestEffect_events ext hingest]
      intro e he
      rcases List.mem_append.mp he with he | he
      · exact ih e he
      · split at he
        · cases he
        · rw [List.mem_singleton.mp he, ← Except.ok.inj hevent]
          rfl
    · rw [htables]
      exact ih
  | @cycle db _ resolver batchSize ih =>
    have hevents := @runOnce_rel ext (fun db db' => db'.tables.events = db.tables.events)
      (fun _ => rfl) (fun h h' => h'.trans h) (fun _ _ _ _ => rfl) resolver batchSize db
    rw [hevents]
    exact ih

end Rows

/-- Two stored events have one hash exactly if they were delivered with payloads that are equal up
to the order of members, unless the digest collides. -/
theorem payloadHash_eq_iff {ext : Externals} {repr : Int → Int → List Char} {md5 : String → String}
    (hrepr : NumberText repr) (hext : ext.payloadHash = EventParser.computePayloadHash repr md5)
    {db : Db} (h : db.Reachable ext) {e e' : EventRow} (he : e ∈ db.tables.events)
    (he' : e' ∈ db.tables.events) (hkeyed : e.payload.wellKeyed = true)
    (hkeyed' : e'.payload.wellKeyed = true) :
    e.hash = e'.hash ↔
      e.payload.same e'.payload = true ∨ Collide repr md5 e.payload e'.payload := by
  rw [h.hash_eq e he, h.hash_eq e' he', hext, ← dumps_eq_iff hrepr hkeyed hkeyed']
  unfold EventParser.computePayloadHash Collide
  constructor
  · intro hdigest
    by_cases htext : dumps repr e.payload = dumps repr e'.payload
    · exact .inl htext
    · exact .inr ⟨htext, hdigest⟩
  · rintro (htext | ⟨_, hdigest⟩)
    · rw [htext]
    · exact hdigest

/-- An `int` in decimal digits. -/
def intText (n : Int) : List Char :=
  (if n < 0 then ['-'] else []) ++ Nat.toDigits 10 n.natAbs

/-- An `int` in decimal digits. A `float` that is an integer goes on with a point and a zero, and any
other one is told by its numerator and denominator. -/
def numberText (mantissa exponent : Int) : List Char :=
  if exponent = 0 then intText mantissa
  else
    let value : ℚ := (mantissa : ℚ) * 10 ^ exponent
    intText value.num ++ '.' :: Nat.toDigits 10 (value.den - 1)

section Numbers

lemma mem_toDigits {n : Nat} {c : Char} (hc : c ∈ Nat.toDigits 10 n) : c.isDigit = true :=
  Nat.isDigit_of_mem_toDigits (by decide) (by decide) hc

lemma toDigits_inj {m n : Nat} (h : Nat.toDigits 10 m = Nat.toDigits 10 n) : m = n := by
  rw [← @Nat.ofDigitChars_ten_toDigits m, h, Nat.ofDigitChars_ten_toDigits]

lemma mem_intText {n : Int} {c : Char} (hc : c ∈ intText n) : c.isDigit = true ∨ c = '-' := by
  rcases List.mem_append.mp hc with hc | hc
  · split at hc
    · exact .inr (List.mem_singleton.mp hc)
    · cases hc
  · exact .inl (mem_toDigits hc)

lemma intText_inj {m n : Int} (h : intText m = intText n) : m = n := by
  have hminus (n : Nat) : '-' ∉ Nat.toDigits 10 n := fun hc => absurd (mem_toDigits hc) (by decide)
  have hlead (n : Nat) (text : List Char) : '-' :: text ≠ Nat.toDigits 10 n := fun h =>
    hminus n (h ▸ List.mem_cons_self)
  unfold intText at h
  by_cases hm : m < 0 <;> by_cases hn : n < 0
  · rw [if_pos hm, if_pos hn, List.append_cancel_left_eq] at h
    have habs := toDigits_inj h
    omega
  · rw [if_pos hm, if_neg hn] at h
    exact absurd h (hlead _ _)
  · rw [if_neg hm, if_pos hn] at h
    exact absurd h.symm (hlead _ _)
  · rw [if_neg hm, if_neg hn, List.append_cancel_left_eq] at h
    have habs := toDigits_inj h
    omega

lemma numberText_spec : NumberText numberText where
  nonempty mantissa exponent := by
    have hne (n : Int) : intText n ≠ [] := fun h =>
      Nat.toDigits_ne_nil (List.append_eq_nil_iff.mp h).2
    unfold numberText
    split
    · exact hne _
    · exact fun h => hne _ (List.append_eq_nil_iff.mp h).1
  chars mantissa exponent c hc := by
    have hint {n : Int} (hc : c ∈ intText n) : isNumberChar c = true := by
      rcases mem_intText hc with hc | rfl
      · simp [isNumberChar, hc]
      · decide
    unfold numberText at hc
    split at hc
    · exact hint hc
    · rcases List.mem_append.mp hc with hc | hc
      · exact hint hc
      · rcases List.mem_cons.mp hc with rfl | hc
        · decide
        · simp [isNumberChar, mem_toDigits hc]
  exact mantissa exponent mantissa' exponent' := by
    have hpoint (n : Int) : '.' ∉ intText n := fun hc =>
      (mem_intText hc).elim (by decide) (by decide)
    have hdigits (n : Nat) : '.' ∉ Nat.toDigits 10 n := fun hc =>
      absurd (mem_toDigits hc) (by decide)
    rw [sameNumber, decide_eq_true_iff]
    unfold numberText
    by_cases h : exponent = 0 <;> by_cases h' : exponent' = 0
    · rw [if_pos h, if_pos h', h, h', zpow_zero, mul_one, mul_one, Int.cast_inj]
      exact ⟨fun htext => ⟨Iff.rfl, intText_inj htext⟩, fun hsame => congrArg intText hsame.2⟩
    · rw [if_pos h, if_neg h']
      refine iff_of_false (fun htext => hpoint mantissa ?_) fun hsame => h' (hsame.1.mp h)
      exact htext ▸ List.mem_append_right _ List.mem_cons_self
    · rw [if_neg h, if_pos h']
      refine iff_of_false (fun htext => hpoint mantissa' ?_) fun hsame => h (hsame.1.mpr h')
      exact htext ▸ List.mem_append_right _ List.mem_cons_self
    · rw [if_neg h, if_neg h']
      constructor
      · intro htext
        obtain ⟨hnum, _, hden⟩ := (List.append_cons_inj_of_notMem (hpoint _) (hdigits _)).mp htext
        have hpred := toDigits_inj hden
        have hpos := ((mantissa : ℚ) * 10 ^ exponent).den_pos
        have hpos' := ((mantissa' : ℚ) * 10 ^ exponent').den_pos
        exact ⟨iff_of_false h h', Rat.ext (intText_inj hnum) (by omega)⟩
      · rintro ⟨_, hvalue⟩
        rw [hvalue]

end Numbers

/-- Two events whose payloads list the same members in different orders, and a third that has a
`float` for an `int`. -/
theorem payloadHash_eq_iff_reordered :
    ∃ (ext : Externals) (db : Db) (e e' e'' : EventRow), db.Reachable ext ∧
      db.tables.events = [e, e', e''] ∧ e.hash = e'.hash ∧ e.hash ≠ e''.hash ∧
      e.payload = .obj [("a", .num 1 0), ("b", .str "x")] ∧
      e'.payload = .obj [("b", .str "x"), ("a", .num 1 0)] ∧
      e''.payload = .obj [("b", .str "x"), ("a", .num 10 (-1))] := by
  let p : Json := .obj [("a", .num 1 0), ("b", .str "x")]
  let p' : Json := .obj [("b", .str "x"), ("a", .num 1 0)]
  let p'' : Json := .obj [("b", .str "x"), ("a", .num 10 (-1))]
  let md5 : String → String := fun text =>
    if text = String.ofList (dumps numberText p) then "4f5f4713d180fb0cb1041f7caf4faaaa"
    else if text = String.ofList (dumps numberText p'') then "01dd935a5dbf6217ade1525463062347"
    else ""
  obtain ⟨hash, hhash⟩ : ∃ hash, hash = EventParser.computePayloadHash numberText md5 := ⟨_, rfl⟩
  let ext : Externals := { Externals.sample with payloadHash := hash }
  let m (eventId : String) (payload : Json) : Message :=
    { Message.sample "events.chat" eventId "" .chatCreated 0 payload with bookingId := none }
  have hempty : Db.empty.Reachable ext := .empty
  have hdb := ((hempty.save .none 0 (m "1" p)).save .none 0 (m "2" p')).save .none 0 (m "3" p'')
  have hsame : p.same p' = true := by
    simp [p, p', Json.same, Json.sameFields, sameNumber, List.lookup_cons]
  have hother : ¬ p.same p'' = true := by
    simp [p, p'', Json.same, Json.sameFields, sameNumber, List.lookup_cons]
  refine ⟨ext, _, _, _, _, hdb, rfl, ?_, ?_, rfl, rfl, rfl⟩
  · exact (payloadHash_eq_iff numberText_spec hhash hdb List.mem_cons_self
      (List.mem_cons_of_mem _ List.mem_cons_self) rfl rfl).mpr (.inl hsame)
  · rw [Ne, payloadHash_eq_iff numberText_spec hhash hdb List.mem_cons_self
      (List.mem_cons_of_mem _ (List.mem_cons_of_mem _ List.mem_cons_self)) rfl rfl]
    rintro (h | ⟨htexts, hdigest⟩)
    · exact hother h
    · have hne : String.ofList (dumps numberText p'') ≠ String.ofList (dumps numberText p) :=
        fun h => htexts (String.ofList_injective h).symm
      have hint : md5 (String.ofList (dumps numberText p)) = "4f5f4713d180fb0cb1041f7caf4faaaa" :=
        if_pos rfl
      have hfloat : md5 (String.ofList (dumps numberText p'')) =
          "01dd935a5dbf6217ade1525463062347" := (if_neg hne).trans (if_pos rfl)
      exact absurd (hint.symm.trans (hdigest.trans hfloat)) (by decide)

end EventSaver
