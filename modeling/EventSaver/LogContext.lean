import EventSaver.Library.HexFormat
import EventSaver.Library.Table
import EventSaver.Telemetry

/-!
# The trace in the log

`add_otel_trace_context` stamps the ids of the current span onto a log line. For a trace that has
come in by a Sentry header the line shows the ids of the header, and they make a header that
denotes the same trace again, whatever the header looked like that was let through.
-/

namespace EventSaver
open HexInt TableData

/-- `dict[key] = value`. -/
def setItem {α : Type} (key : String) (value : α) : List (String × α) → List (String × α) :=
  upsertWhere (fun entry => entry.1 == key) (fun entry => (entry.1, value)) (key, value)

section Stamps

variable {α : Type} (isValid : SpanContext → Bool) (text : String → α)

/-- `add_otel_trace_context`, for the span context of the current span, if there is one. -/
def addOtelTraceContext (spanContext : Option SpanContext) (eventDict : List (String × α)) :
    List (String × α) :=
  match spanContext with
  | some sc =>
    if isValid sc then
      setItem "span_id" (text (String.ofList (formatHex 16 sc.spanId)))
        (setItem "trace_id" (text (String.ofList (formatHex 32 sc.traceId))) eventDict)
    else eventDict
  | none => eventDict

/-- What `is_valid` of a span context says: both ids are within their formats and not zero. -/
def ChecksIds : Prop :=
  ∀ sc, isValid sc = true ↔
    (0 < sc.traceId ∧ sc.traceId < 16 ^ 32) ∧ 0 < sc.spanId ∧ sc.spanId < 16 ^ 16

end Stamps

section Items

variable {α : Type} {key key' : String} {value : α} {dict : List (String × α)}

lemma lookup_eq_find? (key : String) (dict : List (String × α)) :
    dict.lookup key = (dict.find? fun entry => entry.1 == key).map Prod.snd := by
  induction dict with
  | nil => rfl
  | cons entry rest ih =>
    rw [List.lookup_cons, List.find?_cons, ih]
    by_cases hkey : entry.1 = key
    · rw [hkey, beq_self_eq_true]
      rfl
    · rw [beq_eq_false_iff_ne.mpr hkey, beq_eq_false_iff_ne.mpr (Ne.symm hkey)]

lemma lookup_setItem_self : (setItem key value dict).lookup key = some value := by
  have hfind : (setItem key value dict).find? (fun entry => entry.1 == key) =
      some ((dict.find? fun entry => entry.1 == key).elim (key, value)
        fun entry => (entry.1, value)) :=
    find?_upsertWhere_self (fun _ => rfl) (beq_self_eq_true key)
  rw [lookup_eq_find?, hfind]
  cases dict.find? fun entry => entry.1 == key <;> rfl

lemma lookup_setItem_other (h : key' ≠ key) :
    (setItem key value dict).lookup key' = dict.lookup key' := by
  have hother : (key == key') = false := beq_eq_false_iff_ne.mpr h.symm
  rw [lookup_eq_find?, lookup_eq_find?, setItem]
  refine congrArg (Option.map Prod.snd) (find?_upsertWhere_other
    (q := fun entry : String × α => entry.1 == key') (fun _ => rfl) (fun entry hentry => ?_) hother)
  rw [beq_iff_eq.mp hentry]
  exact hother

end Items

namespace SentryTracePropagator

section Trace

variable {tables : UnicodeTables} {otel : OpenTelemetry} {header : String} {others : List String}
  {context : Option otel.Context}

lemma not_mem_of_mem_splitOn {a : Char} {text part : List Char} (h : part ∈ text.splitOn a) :
    a ∉ part := by
  induction text generalizing part with
  | nil =>
    rw [List.splitOn_nil, List.mem_singleton] at h
    rw [h]
    exact List.not_mem_nil
  | cons c rest ih =>
    rw [List.splitOn_cons_eq_if_modifyHead] at h
    split at h
    · rcases List.mem_cons.mp h with rfl | h
      · exact List.not_mem_nil
      · exact ih h
    next hne =>
      cases hsplit : rest.splitOn a with
      | nil => exact absurd hsplit (List.splitOn_ne_nil a rest)
      | cons first more =>
        rw [hsplit, List.modifyHead_cons] at h
        rcases List.mem_cons.mp h with rfl | h
        · intro hmem
          rcases List.mem_cons.mp hmem with rfl | hmem
          · exact hne (beq_self_eq_true _)
          · exact ih (hsplit ▸ List.mem_cons_self) hmem
        · exact ih (hsplit ▸ List.mem_cons_of_mem first h)

/-- The ids that are extracted are within their formats. -/
lemma spanContext_of_extract_ne (hotel : otel.Lawful)
    (h : extract tables otel (some (header :: others)) context ≠ context.getD otel.empty) :
    ∃ sc, otel.spanContext (extract tables otel (some (header :: others)) context) = some sc ∧
      (0 ≤ sc.traceId ∧ sc.traceId < 16 ^ 32) ∧ (0 ≤ sc.spanId ∧ sc.spanId < 16 ^ 16) ∧
        sc.isRemote = true := by
  obtain ⟨trace, span, rest, hparts, htrace, hspan, htraceInt, hspanInt⟩ := parts_of_extract_ne h
  obtain ⟨traceId, htraceId⟩ := Option.isSome_iff_exists.mp htraceInt
  obtain ⟨spanId, hspanId⟩ := Option.isSome_iff_exists.mp hspanInt
  have hmem (part) (hpart : part ∈ trace :: span :: rest) : '-' ∉ part :=
    not_mem_of_mem_splitOn (hparts ▸ hpart)
  have htraceBounds := intBase16_bounds (hmem trace List.mem_cons_self) htraceId
  have hspanBounds := intBase16_bounds
    (hmem span (List.mem_cons_of_mem trace List.mem_cons_self)) hspanId
  rw [htrace] at htraceBounds
  rw [hspan] at hspanBounds
  refine ⟨⟨traceId, spanId, true, decide (rest.head? = some ['1'])⟩, ?_, htraceBounds, hspanBounds,
    rfl⟩
  rw [extract_of_parts hparts htrace hspan htraceId hspanId]
  exact hotel.spanContext_set _ _

/-- The ids of a span context as a header. -/
lemma documented_formatHex {traceId spanId : Nat} (htrace : 0 < traceId) (hspan : 0 < spanId)
    (htraceLt : traceId < 16 ^ 32) (hspanLt : spanId < 16 ^ 16) :
    Documented (String.ofList (hexDigits 32 traceId ++ '-' :: hexDigits 16 spanId))
      (hexDigits 32 traceId) (hexDigits 16 spanId) [] := by
  have hvalid {width n : Nat} (hn : 0 < n) (hlt : n < 16 ^ width) :
      ∃ c ∈ hexDigits width n, c ≠ '0' := by
    by_contra hzeros
    push Not at hzeros
    have hdigits := List.eq_replicate_of_mem hzeros
    rw [length_hexDigits, ← hexDigits_zero] at hdigits
    have hnumber := hexNat_hexDigits hlt
    rw [hdigits, hexNat_hexDigits (Nat.pow_pos (by decide))] at hnumber
    omega
  exact {
    header := by rw [String.toList_ofList, List.append_nil]
    traceLength := length_hexDigits 32 traceId
    spanLength := length_hexDigits 16 spanId
    traceHex := fun c hc => (isHex_hexDigits 32 traceId c hc).1
    spanHex := fun c hc => (isHex_hexDigits 16 spanId c hc).1
    traceValid := hvalid htrace htraceLt
    spanValid := hvalid hspan hspanLt
    flag := .inl rfl }

/-- For a header that is let in, a log line shows its ids in lower case and with leading zeros, or
nothing if one of them is zero. What it shows makes a header for the same trace. -/
theorem log_continues_trace {isValid : SpanContext → Bool} (hotel : otel.Lawful)
    (hvalid : ChecksIds isValid)
    (h : extract tables otel (some (header :: others)) context ≠ context.getD otel.empty)
    {α : Type} (text : String → α) (eventDict : List (String × α)) :
    ∃ sc, otel.spanContext (extract tables otel (some (header :: others)) context) = some sc ∧
      ((sc.traceId = 0 ∨ sc.spanId = 0) ∧
          addOtelTraceContext isValid text (some sc) eventDict = eventDict ∨
        ∃ trace span : List Char,
          (addOtelTraceContext isValid text (some sc) eventDict).lookup "trace_id" =
              some (text (String.ofList trace)) ∧
            (addOtelTraceContext isValid text (some sc) eventDict).lookup "span_id" =
              some (text (String.ofList span)) ∧
            (∀ key, key ≠ "trace_id" → key ≠ "span_id" →
              (addOtelTraceContext isValid text (some sc) eventDict).lookup key =
                eventDict.lookup key) ∧
            Documented (String.ofList (trace ++ '-' :: span)) trace span [] ∧
            (∀ c ∈ trace ++ span, c.toLower = c) ∧
            (∀ context', otel.spanContext (extract tables otel
              (some [String.ofList (trace ++ '-' :: span)]) context') =
                some { sc with sampled := false }) ∧
            ∀ t s flag, Documented header t s flag →
              trace = t.map Char.toLower ∧ span = s.map Char.toLower) := by
  obtain ⟨sc, hsc, ⟨htrace, htraceLt⟩, ⟨hspan, hspanLt⟩, hremote⟩ :=
    spanContext_of_extract_ne hotel h
  refine ⟨sc, hsc, ?_⟩
  by_cases hzero : sc.traceId = 0 ∨ sc.spanId = 0
  · refine .inl ⟨hzero, ?_⟩
    have hinvalid : ¬isValid sc = true := by
      rw [hvalid sc]
      omega
    rw [addOtelTraceContext, if_neg hinvalid]
  · have hids : (0 < sc.traceId ∧ sc.traceId < 16 ^ 32) ∧ 0 < sc.spanId ∧ sc.spanId < 16 ^ 16 := by
      omega
    obtain ⟨traceId, htraceId⟩ := Int.eq_ofNat_of_zero_le htrace
    obtain ⟨spanId, hspanId⟩ := Int.eq_ofNat_of_zero_le hspan
    rw [htraceId, hspanId] at hids
    have htraceNat : traceId < 16 ^ 32 := by exact_mod_cast hids.1.2
    have hspanNat : spanId < 16 ^ 16 := by exact_mod_cast hids.2.2
    have hdocumented := documented_formatHex (by omega) (by omega) htraceNat hspanNat
    have hlog : addOtelTraceContext isValid text (some sc) eventDict =
        setItem "span_id" (text (String.ofList (hexDigits 16 spanId)))
          (setItem "trace_id" (text (String.ofList (hexDigits 32 traceId))) eventDict) := by
      rw [addOtelTraceContext, if_pos ((hvalid sc).mpr (htraceId ▸ hspanId ▸ hids)), htraceId,
        hspanId, formatHex_eq (by decide) htraceNat, formatHex_eq (by decide) hspanNat]
    refine .inr ⟨hexDigits 32 traceId, hexDigits 16 spanId, ?_, ?_, fun key hkey hkey' => ?_,
      hdocumented, fun c hc => ?_, fun context' => ?_, fun t s flag ht => ?_⟩
    · rw [hlog, lookup_setItem_other (by decide), lookup_setItem_self]
    · rw [hlog, lookup_setItem_self]
    · rw [hlog, lookup_setItem_other hkey', lookup_setItem_other hkey]
    · rcases List.mem_append.mp hc with hc | hc
      · exact (isHex_hexDigits 32 traceId c hc).2
      · exact (isHex_hexDigits 16 spanId c hc).2
    · rw [hdocumented.extract_eq, hotel.spanContext_set, denoted, hexNat_hexDigits htraceNat,
        hexNat_hexDigits hspanNat, ← htraceId, ← hspanId, ← hremote]
      rfl
    · rw [ht.extract_eq, hotel.spanContext_set] at hsc
      cases hsc
      have htraceSame : traceId = hexNat t := Int.ofNat.inj htraceId.symm
      have hspanSame : spanId = hexNat s := Int.ofNat.inj hspanId.symm
      constructor
      · rw [htraceSame, ← ht.traceLength, hexDigits_hexNat ht.traceHex]
      · rw [hspanSame, ← ht.spanLength, hexDigits_hexNat ht.spanHex]

end Trace

/-- A header in upper case. -/
theorem log_continues_trace_upperCase :
    ∃ sc, (addOtelTraceContext
        (fun sc => decide ((0 < sc.traceId ∧ sc.traceId < 16 ^ 32) ∧ 0 < sc.spanId ∧
          sc.spanId < 16 ^ 16)) id (some sc) [("event", "Raw event saved")]).lookup "trace_id" =
        some "4bf92f3577b34da6a3ce929d0e0e4736" ∧
      numbered.spanContext (extract asciiTables numbered
        (some ["4BF92F3577B34DA6A3CE929D0E0E4736-00F067AA0BA902B7-1"])
        (some (1, some traceparent))) = some sc := by
  have hformat : Documented "4BF92F3577B34DA6A3CE929D0E0E4736-00F067AA0BA902B7-1"
      "4BF92F3577B34DA6A3CE929D0E0E4736".toList "00F067AA0BA902B7".toList ['-', '1'] :=
    { header := by decide
      traceLength := rfl
      spanLength := rfl
      traceHex := List.all_eq_true.mp rfl
      spanHex := List.all_eq_true.mp rfl
      traceValid := ⟨'4', by decide⟩
      spanValid := ⟨'F', by decide⟩
      flag := Or.inr (Or.inr rfl) }
  have haccepted : extract asciiTables numbered
      (some ["4BF92F3577B34DA6A3CE929D0E0E4736-00F067AA0BA902B7-1"]) (some (1, some traceparent)) ≠
        (1, some traceparent) := by
    rw [hformat.extract_eq]
    exact numbered_lawful.set_ne _ _
  obtain ⟨sc, hsc, hlog⟩ := log_continues_trace numbered_lawful (fun _ => decide_eq_true_iff)
    haccepted id [("event", "Raw event saved")]
  refine ⟨sc, ?_, hsc⟩
  rw [hformat.extract_eq, numbered_lawful.spanContext_set] at hsc
  cases hsc
  rcases hlog with ⟨hzero, _⟩ | ⟨trace, span, htrace, _, _, _, _, _, hdocumented⟩
  · exact absurd hzero (by decide)
  · rw [htrace, (hdocumented _ _ _ hformat).1]
    rfl

end SentryTracePropagator

end EventSaver
