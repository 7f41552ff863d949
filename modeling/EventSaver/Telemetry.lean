import EventSaver.Library.HexInt

/-!
# Extraction of a Sentry trace

`SentryTracePropagator.extract` splits the header and leaves the numbers to `int(·, 16)`. What it
accepts is compared with the format that its docstring gives.
-/

namespace EventSaver
open HexInt

structure SpanContext where
  traceId : Int
  spanId : Int
  isRemote : Bool
  sampled : Bool
  deriving DecidableEq

/-- What the code uses of `opentelemetry`: contexts, the span context of the current span of one,
and `set_span_in_context` for a non-recording span. -/
structure OpenTelemetry where
  Context : Type
  empty : Context
  spanContext : Context → Option SpanContext
  setSpanInContext : SpanContext → Context → Context

/-- A context is never changed: setting a span makes a new one that has the span. -/
structure OpenTelemetry.Lawful (otel : OpenTelemetry) : Prop where
  spanContext_set : ∀ sc context, otel.spanContext (otel.setSpanInContext sc context) = some sc
  set_ne : ∀ sc context, otel.setSpanInContext sc context ≠ context

namespace SentryTracePropagator

variable (tables : UnicodeTables) (otel : OpenTelemetry)

/-- `extract`, on what the getter gives for the field. -/
def extract (values : Option (List String)) (context : Option otel.Context) : otel.Context :=
  let context := context.getD otel.empty
  match values with
  | none => context
  | some [] => context
  | some (header :: _) =>
    match header.toList.splitOn '-' with
    | trace :: span :: rest =>
      if trace.length ≠ 32 ∨ span.length ≠ 16 then context
      else
        match intBase16 tables trace, intBase16 tables span with
        | some traceId, some spanId =>
          otel.setSpanInContext {
            traceId := traceId
            spanId := spanId
            isRemote := true
            sampled := decide (rest.head? = some ['1']) } context
        | _, _ => context
    | _ => context

/-- The documented format: 32 and 16 hexadecimal digits, neither all zeros, and perhaps a flag. -/
structure Documented (header : String) (trace span flag : List Char) : Prop where
  header : header.toList = trace ++ '-' :: (span ++ flag)
  traceLength : trace.length = 32
  spanLength : span.length = 16
  traceHex : ∀ c ∈ trace, isHex c = true
  spanHex : ∀ c ∈ span, isHex c = true
  traceValid : ∃ c ∈ trace, c ≠ '0'
  spanValid : ∃ c ∈ span, c ≠ '0'
  flag : flag = [] ∨ flag = ['-', '0'] ∨ flag = ['-', '1']

/-- The span context that a header of the documented format denotes. -/
def denoted (trace span flag : List Char) : SpanContext where
  traceId := hexNat trace
  spanId := hexNat span
  isRemote := true
  sampled := decide (flag = ['-', '1'])

/-- A header is accepted if and only if it has the documented format, and then for what it
denotes. -/
structure AcceptsDocumented (header : String) (others : List String)
    (context : Option otel.Context) : Prop where
  accepts : extract tables otel (some (header :: others)) context ≠ context.getD otel.empty ↔
    ∃ trace span flag, Documented header trace span flag
  denotes : ∀ trace span flag, Documented header trace span flag →
    otel.spanContext (extract tables otel (some (header :: others)) context) =
      some (denoted trace span flag)
  unchanged : (¬∃ trace span flag, Documented header trace span flag) →
    extract tables otel (some (header :: others)) context = context.getD otel.empty

/-- Headers that are let through against the format: the lengths are right and the conversion
succeeds, but an id holds other characters than hexadecimal digits or only zeros, or what follows
is not one flag. -/
structure LetThrough (header : String) (trace span : List Char) (rest : List (List Char)) :
    Prop where
  parts : header.toList.splitOn '-' = trace :: span :: rest
  traceLength : trace.length = 32
  spanLength : span.length = 16
  traceInt : (intBase16 tables trace).isSome = true
  spanInt : (intBase16 tables span).isSome = true
  against : (∃ c ∈ trace ++ span, isHex c = false) ∨ (∀ c ∈ trace, c = '0') ∨
    (∀ c ∈ span, c = '0') ∨ (rest ≠ [] ∧ rest ≠ [['0']] ∧ rest ≠ [['1']])

section Format

variable {tables : UnicodeTables} {otel : OpenTelemetry} {header : String} {others : List String}
  {context : Option otel.Context} {trace span flag : List Char} {rest : List (List Char)}

lemma dash_not_mem {digits : List Char} (h : ∀ c ∈ digits, isHex c = true) : '-' ∉ digits := by
  intro hmem
  exact absurd (h '-' hmem) (by decide)

/-- The parts of a header of the documented format. -/
lemma Documented.parts (h : Documented header trace span flag) :
    ∃ rest, header.toList.splitOn '-' = trace :: span :: rest ∧
      ((rest = [] ∧ flag = []) ∨ (rest = [['0']] ∧ flag = ['-', '0']) ∨
        (rest = [['1']] ∧ flag = ['-', '1'])) := by
  have htrace := dash_not_mem h.traceHex
  have hspan := dash_not_mem h.spanHex
  rw [h.header, List.splitOn_append_cons_self_of_not_mem htrace]
  rcases h.flag with rfl | rfl | rfl
  · rw [List.append_nil, List.splitOn_eq_singleton hspan]
    exact ⟨[], rfl, .inl ⟨rfl, rfl⟩⟩
  · rw [List.splitOn_append_cons_self_of_not_mem hspan]
    exact ⟨[['0']], rfl, .inr (.inl ⟨rfl, rfl⟩)⟩
  · rw [List.splitOn_append_cons_self_of_not_mem hspan]
    exact ⟨[['1']], rfl, .inr (.inr ⟨rfl, rfl⟩)⟩

/-- The accepting path of the extraction. -/
lemma extract_of_parts {traceId spanId : Int} (hparts : header.toList.splitOn '-' = trace :: span :: rest)
    (htrace : trace.length = 32) (hspan : span.length = 16)
    (htraceId : intBase16 tables trace = some traceId)
    (hspanId : intBase16 tables span = some spanId) :
    extract tables otel (some (header :: others)) context =
      otel.setSpanInContext ⟨traceId, spanId, true, decide (rest.head? = some ['1'])⟩
        (context.getD otel.empty) := by
  have hlengths : ¬(trace.length ≠ 32 ∨ span.length ≠ 16) := by simp [htrace, hspan]
  rw [extract, hparts]
  dsimp only
  rw [if_neg hlengths, htraceId, hspanId]

/-- The other paths leave the context as it is. -/
lemma parts_of_extract_ne
    (h : extract tables otel (some (header :: others)) context ≠ context.getD otel.empty) :
    ∃ trace span rest, header.toList.splitOn '-' = trace :: span :: rest ∧ trace.length = 32 ∧
      span.length = 16 ∧ (intBase16 tables trace).isSome = true ∧
        (intBase16 tables span).isSome = true := by
  rw [extract] at h
  split at h
  case h_1 trace span rest hparts =>
    split at h
    · exact absurd rfl h
    case isFalse hlengths =>
      split at h
      case h_1 traceId spanId htraceId hspanId =>
        have htrace : trace.length = 32 := by
          by_contra hne
          exact hlengths (.inl hne)
        have hspan : span.length = 16 := by
          by_contra hne
          exact hlengths (.inr hne)
        refine ⟨trace, span, rest, hparts, htrace, hspan, ?_, ?_⟩
        · rw [htraceId]
          rfl
        · rw [hspanId]
          rfl
      · exact absurd rfl h
  · exact absurd rfl h

/-- A header of the documented format is read as what it denotes. -/
lemma Documented.extract_eq (h : Documented header trace span flag) :
    extract tables otel (some (header :: others)) context =
      otel.setSpanInContext (denoted trace span flag) (context.getD otel.empty) := by
  obtain ⟨rest, hparts, hflag⟩ := h.parts
  have htrace : trace ≠ [] := by
    intro hnil
    have hlength := h.traceLength
    rw [hnil] at hlength
    cases hlength
  have hspan : span ≠ [] := by
    intro hnil
    have hlength := h.spanLength
    rw [hnil] at hlength
    cases hlength
  have hsampled : decide (rest.head? = some ['1']) = decide (flag = ['-', '1']) := by
    rcases hflag with ⟨rfl, rfl⟩ | ⟨rfl, rfl⟩ | ⟨rfl, rfl⟩ <;> decide
  rw [extract_of_parts hparts h.traceLength h.spanLength
    (intBase16_of_isHex tables htrace h.traceHex) (intBase16_of_isHex tables hspan h.spanHex),
    hsampled]
  rfl

/-- What is accepted and not let through against the format has it. -/
lemma documented_of_not_letThrough
    (hlenient : ¬∃ trace span rest, LetThrough tables header trace span rest)
    (hparts : header.toList.splitOn '-' = trace :: span :: rest) (htrace : trace.length = 32)
    (hspan : span.length = 16) (htraceInt : (intBase16 tables trace).isSome = true)
    (hspanInt : (intBase16 tables span).isSome = true) :
    ∃ trace span flag, Documented header trace span flag := by
  have hfine (against) : False :=
    hlenient ⟨trace, span, rest, ⟨hparts, htrace, hspan, htraceInt, hspanInt, against⟩⟩
  have hhex : ∀ c ∈ trace ++ span, isHex c = true := by
    by_contra hnot
    push Not at hnot
    obtain ⟨c, hc, hnot⟩ := hnot
    exact hfine (.inl ⟨c, hc, (Bool.not_eq_true _).mp hnot⟩)
  have htraceValid : ∃ c ∈ trace, c ≠ '0' := by
    by_contra hnot
    push Not at hnot
    exact hfine (.inr (.inl hnot))
  have hspanValid : ∃ c ∈ span, c ≠ '0' := by
    by_contra hnot
    push Not at hnot
    exact hfine (.inr (.inr (.inl hnot)))
  have hrest : rest = [] ∨ rest = [['0']] ∨ rest = [['1']] := by
    by_contra hnot
    push Not at hnot
    exact hfine (.inr (.inr (.inr hnot)))
  have hheader : header.toList = ['-'].intercalate (trace :: span :: rest) := by
    rw [← hparts, List.intercalate_splitOn]
  have hdocumented (flag : List Char) (hflag : flag = [] ∨ flag = ['-', '0'] ∨ flag = ['-', '1'])
      (hsplit : ['-'].intercalate (trace :: span :: rest) = trace ++ '-' :: (span ++ flag)) :
      ∃ trace span flag, Documented header trace span flag :=
    ⟨trace, span, flag, {
      header := hheader.trans hsplit
      traceLength := htrace
      spanLength := hspan
      traceHex := fun c hc => hhex c (List.mem_append_left span hc)
      spanHex := fun c hc => hhex c (List.mem_append_right trace hc)
      traceValid := htraceValid
      spanValid := hspanValid
      flag := hflag }⟩
  rcases hrest with rfl | rfl | rfl
  · exact hdocumented [] (.inl rfl) (by simp [List.intercalate])
  · exact hdocumented ['-', '0'] (.inr (.inl rfl)) (by simp [List.intercalate])
  · exact hdocumented ['-', '1'] (.inr (.inr rfl)) (by simp [List.intercalate])

/-- What has the documented format is not let through against it. -/
lemma Documented.not_letThrough (h : Documented header trace span flag) :
    ¬∃ trace span rest, LetThrough tables header trace span rest := by
  rintro ⟨trace', span', rest', hlet⟩
  obtain ⟨rest, hparts, hflag⟩ := h.parts
  have hsame := hlet.parts.symm.trans hparts
  simp only [List.cons.injEq] at hsame
  obtain ⟨rfl, rfl, rfl⟩ := hsame
  rcases hlet.against with ⟨c, hc, hnot⟩ | hzeros | hzeros | hrest
  · rcases List.mem_append.mp hc with hc | hc
    · rw [h.traceHex c hc] at hnot
      cases hnot
    · rw [h.spanHex c hc] at hnot
      cases hnot
  · obtain ⟨c, hc, hne⟩ := h.traceValid
    exact hne (hzeros c hc)
  · obtain ⟨c, hc, hne⟩ := h.spanValid
    exact hne (hzeros c hc)
  · rcases hflag with ⟨hrest', _⟩ | ⟨hrest', _⟩ | ⟨hrest', _⟩
    · exact hrest.1 hrest'
    · exact hrest.2.1 hrest'
    · exact hrest.2.2 hrest'

/-- The propagator accepts its documented format, and nothing else if and only if the header is
none of those that are let through. -/
theorem acceptsDocumented_iff (hotel : otel.Lawful) :
    AcceptsDocumented tables otel header others context ↔
      ¬∃ trace span rest, LetThrough tables header trace span rest := by
  constructor
  · rintro haccepts ⟨trace, span, rest, hlet⟩
    obtain ⟨traceId, htraceId⟩ := Option.isSome_iff_exists.mp hlet.traceInt
    obtain ⟨spanId, hspanId⟩ := Option.isSome_iff_exists.mp hlet.spanInt
    have hne : extract tables otel (some (header :: others)) context ≠
        context.getD otel.empty := by
      rw [extract_of_parts hlet.parts hlet.traceLength hlet.spanLength htraceId hspanId]
      exact hotel.set_ne _ _
    obtain ⟨_, _, _, hdocumented⟩ := haccepts.accepts.mp hne
    exact hdocumented.not_letThrough ⟨trace, span, rest, hlet⟩
  · intro hlenient
    have haccepted
        (hne : extract tables otel (some (header :: others)) context ≠ context.getD otel.empty) :
        ∃ trace span flag, Documented header trace span flag := by
      obtain ⟨trace, span, rest, hparts, htrace, hspan, htraceInt, hspanInt⟩ :=
        parts_of_extract_ne hne
      exact documented_of_not_letThrough hlenient hparts htrace hspan htraceInt hspanInt
    refine ⟨⟨haccepted, ?_⟩, ?_, ?_⟩
    · rintro ⟨trace, span, flag, hdocumented⟩
      rw [hdocumented.extract_eq]
      exact hotel.set_ne _ _
    · intro trace span flag hdocumented
      rw [hdocumented.extract_eq]
      exact hotel.spanContext_set _ _
    · intro hnot
      by_contra hne
      exact hnot (haccepted hne)

end Format

/-- Contexts with a serial number. -/
def numbered : OpenTelemetry where
  Context := Nat × Option SpanContext
  empty := (0, none)
  spanContext := Prod.snd
  setSpanInContext sc context := (context.1 + 1, some sc)

lemma numbered_lawful : numbered.Lawful :=
  ⟨fun _ _ => rfl, fun _ context h => absurd (congrArg Prod.fst h) (Nat.succ_ne_self context.1)⟩

/-- The tables of a text in ASCII. -/
def asciiTables : UnicodeTables := ⟨fun _ => false, fun _ => none⟩

/-- The span context of a `traceparent` that has been read before. -/
def traceparent : SpanContext := ⟨0x0af7651916cd43dd8448eb211c80319c, 0xb7ad6b7169203331, true, true⟩

theorem acceptsDocumented_sampled :
    AcceptsDocumented asciiTables numbered "4bf92f3577b34da6a3ce929d0e0e4736-00f067aa0ba902b7-1" []
      (some (1, some traceparent)) := by
  have hformat : Documented "4bf92f3577b34da6a3ce929d0e0e4736-00f067aa0ba902b7-1"
      "4bf92f3577b34da6a3ce929d0e0e4736".toList "00f067aa0ba902b7".toList ['-', '1'] :=
    { header := by decide
      traceLength := rfl
      spanLength := rfl
      traceHex := List.all_eq_true.mp rfl
      spanHex := List.all_eq_true.mp rfl
      traceValid := ⟨'4', by decide⟩
      spanValid := ⟨'f', by decide⟩
      flag := Or.inr (Or.inr rfl) }
  exact (acceptsDocumented_iff numbered_lawful).mpr hformat.not_letThrough

/-- A prefix and underscores, which the format does not know, replace a valid trace. -/
theorem not_acceptsDocumented_underscores :
    extract asciiTables numbered (some ["0x_f92f3577b34da6a3ce929d0e0e473-00f0_7aa0ba902b7"])
        (some (1, some traceparent)) =
          (2, some ⟨0xf92f3577b34da6a3ce929d0e0e473, 0xf07aa0ba902b7, true, false⟩) ∧
      ¬AcceptsDocumented asciiTables numbered
        "0x_f92f3577b34da6a3ce929d0e0e473-00f0_7aa0ba902b7" [] (some (1, some traceparent)) := by
  have hextract : extract asciiTables numbered
      (some ["0x_f92f3577b34da6a3ce929d0e0e473-00f0_7aa0ba902b7"]) (some (1, some traceparent)) =
        (2, some ⟨0xf92f3577b34da6a3ce929d0e0e473, 0xf07aa0ba902b7, true, false⟩) := rfl
  refine ⟨hextract, fun haccepts => ?_⟩
  have hne : extract asciiTables numbered
      (some ["0x_f92f3577b34da6a3ce929d0e0e473-00f0_7aa0ba902b7"]) (some (1, some traceparent)) ≠
        (1, some traceparent) := by
    rw [hextract]
    intro h
    exact absurd (congrArg Prod.fst h) (by decide)
  obtain ⟨trace, span, flag, hdocumented⟩ := haccepts.accepts.mp hne
  obtain ⟨rest, hparts, _⟩ := hdocumented.parts
  have htrace : trace = "0x_f92f3577b34da6a3ce929d0e0e473".toList := by
    have hsplit := hparts.symm.trans (show _ = ["0x_f92f3577b34da6a3ce929d0e0e473".toList,
      "00f0_7aa0ba902b7".toList] by decide)
    exact (List.cons.inj hsplit).1
  have hx := hdocumented.traceHex 'x' (by rw [htrace]; decide)
  exact absurd hx (by decide)

end SentryTracePropagator

end EventSaver
