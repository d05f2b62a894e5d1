import CaseIntake.Document
import CaseIntake.Proofs.Json.Decoder
import CaseIntake.Proofs.Json.Equality

/-!
# CaseIntake.Proofs.Document.Resolution

The shape of a document, said without the resolver.

* `SimplifiedReading`: the ways to read a document as simplified cases.
* `Resolution`: what a document is resolved to, or why it is refused.

The resolver decides exactly this relation (`Resolved.ofJson_eq_iff`). `resolve_exactly` says so of
texts, with what a refusal shows of the text.
-/

namespace CaseIntake

namespace Json

/-- Under the key stands a string with more than blanks. -/
def HasText (doc : Json) (key : String) : Prop :=
  ∃ s, doc.member? key = some (.string s) ∧ ∃ c ∈ s.toList, Text.isBlank c = false

def HasKey (doc : Json) (key : String) : Prop :=
  ∃ j, doc.member? key = some j

/-- The document has a name next to a key that only canonical cases have. -/
def MarksCase (doc : Json) : Prop :=
  doc.HasText "name" ∧ (doc.HasKey "given" ∨ doc.HasKey "when" ∨ doc.HasKey "then")

theorem HasText.hasKey {doc : Json} {key : String} (h : doc.HasText key) : doc.HasKey key := by
  obtain ⟨s, hs, _⟩ := h
  exact ⟨_, hs⟩

end Json

/-- The elements decode, one after the other, to the cases. -/
def DecodeTo (items : List Json) (cases : List SimpleCase) : Prop :=
  List.Forall₂ (fun j c => SimpleCase.decode j = .ok c) items cases

/-- A single case needs a name; without one the document may still wrap a list of cases. -/
inductive SimplifiedReading : Json → DocumentShape → List SimpleCase → Prop where
  | caseList {items : List Json} {cases : List SimpleCase} :
      items ≠ [] → DecodeTo items cases → SimplifiedReading (.array items) .caseList cases
  | singleCase {members : List (String × Json)} {c : SimpleCase} :
      ¬(Json.object members).HasKey "function_name" →
      SimpleCase.decode (.object members) = .ok c →
      (∃ ch ∈ c.name.toList, Text.isBlank ch = false) →
      SimplifiedReading (.object members) .singleCase [c]
  | wrappedCases {members : List (String × Json)} {items : List Json} {cases : List SimpleCase} :
      ¬(Json.object members).HasKey "function_name" →
      (∀ c, SimpleCase.decode (.object members) = .ok c →
        ∀ ch ∈ c.name.toList, Text.isBlank ch = true) →
      (Json.object members).member? "tests" = some (.array items) →
      items ≠ [] → DecodeTo items cases →
      SimplifiedReading (.object members) .wrappedCases cases

/-- What becomes of a document. The marks of a suite count before those of a case, and a document
with either is canonical or refused. -/
inductive Resolution (doc : Json) : Except Malformed Resolved → Prop where
  | suite {s : Suite} : doc.HasText "function_name" → Suite.decode doc = .ok s →
      Resolution doc (.ok ⟨.canonicalSuite, .canonical s⟩)
  | undecodableSuite {e : DecodeError} : doc.HasText "function_name" → Suite.decode doc = .error e →
      Resolution doc (.error (.undecodableSuite e))
  | testCase {c : TestCase} : ¬doc.HasText "function_name" → doc.MarksCase →
      TestCase.decode doc = .ok c →
      Resolution doc (.ok ⟨.canonicalCase, .canonical ⟨"", none, [c]⟩⟩)
  | undecodableCase {e : DecodeError} : ¬doc.HasText "function_name" → doc.MarksCase →
      TestCase.decode doc = .error e → Resolution doc (.error (.undecodableCase e))
  | simplified {shape : DocumentShape} {cases : List SimpleCase} :
      ¬doc.HasText "function_name" → ¬doc.MarksCase → SimplifiedReading doc shape cases →
      Resolution doc (.ok ⟨shape, .simplified cases⟩)
  | unrecognized : ¬doc.HasText "function_name" → ¬doc.MarksCase →
      (∀ shape cases, ¬SimplifiedReading doc shape cases) →
      Resolution doc (.error .unrecognized)

namespace Resolved

/-! ## The marks of canonical documents -/

theorem isBlankText_eq_false {s : String} :
    Text.isBlankText s = false ↔ ∃ c ∈ s.toList, Text.isBlank c = false := by
  simp [Text.isBlankText]

theorem hasText_iff {key : String} {doc : Json} : hasText key doc = true ↔ doc.HasText key := by
  rw [hasText, Json.HasText]
  cases doc.member? key with
  | none => simp
  | some j => cases j <;> simp [Json.string?, isBlankText_eq_false]

theorem hasKey_iff {key : String} {doc : Json} : hasKey key doc = true ↔ doc.HasKey key :=
  Option.isSome_iff_exists

theorem marksCase_iff {doc : Json} :
    (hasText "name" doc && hasCaseKey doc) = true ↔ doc.MarksCase := by
  simp only [hasCaseKey, Bool.and_eq_true, Bool.or_eq_true, hasText_iff, hasKey_iff, Json.MarksCase,
    or_assoc]

/-! ## Simplified cases -/

theorem ne_nil_of_decodeTo {items : List Json} {cases : List SimpleCase}
    (h : DecodeTo items cases) : items ≠ [] ↔ cases ≠ [] := by
  cases h with
  | nil => simp
  | cons _ _ => simp

theorem caseList?_eq_some_iff {items : List Json} {r : Resolved} :
    caseList? (.array items) = some r ↔
      ∃ cases, items ≠ [] ∧ DecodeTo items cases ∧ r = ⟨.caseList, .simplified cases⟩ := by
  constructor
  · intro h
    rw [caseList?] at h
    split at h
    · cases h
    · rename_i cases hne hall
      obtain rfl := Option.some.inj h
      have hdecode : DecodeTo items cases := Decoder.all_eq_ok_iff.1 hall
      refine ⟨cases, (ne_nil_of_decodeTo hdecode).2 ?_, hdecode, rfl⟩
      rintro rfl
      exact hne rfl
    · cases h
  · rintro ⟨cases, hne, hdecode, rfl⟩
    have hcases := (ne_nil_of_decodeTo hdecode).1 hne
    rw [caseList?, Decoder.all_eq_ok_iff.2 hdecode]
    cases cases with
    | nil => exact absurd rfl hcases
    | cons c cs => rfl

theorem singleCase?_eq_some_iff {doc : Json} {r : Resolved} :
    singleCase? doc = some r ↔
      ∃ c, SimpleCase.decode doc = .ok c ∧ (∃ ch ∈ c.name.toList, Text.isBlank ch = false) ∧
        r = ⟨.singleCase, .simplified [c]⟩ := by
  constructor
  · intro h
    rw [singleCase?] at h
    split at h
    · rename_i c hc
      split at h
      · cases h
      · rename_i hname
        obtain rfl := Option.some.inj h
        exact ⟨c, hc, isBlankText_eq_false.1 (by simpa using hname), rfl⟩
    · cases h
  · rintro ⟨c, hc, hname, rfl⟩
    simp [singleCase?, hc, isBlankText_eq_false.2 hname]

theorem singleCase?_eq_none_iff {doc : Json} :
    singleCase? doc = none ↔
      ∀ c, SimpleCase.decode doc = .ok c → ∀ ch ∈ c.name.toList, Text.isBlank ch = true := by
  rw [Option.eq_none_iff_forall_ne_some]
  simp only [ne_eq, singleCase?_eq_some_iff, not_exists, not_and]
  constructor
  · intro h c hc ch hch
    refine Classical.byContradiction fun hblank => ?_
    exact h _ c hc ⟨ch, hch, by simpa using hblank⟩ rfl
  · rintro h _ c hc ⟨ch, hch, htext⟩ _
    rw [h c hc ch hch] at htext
    cases htext

theorem wrappedCases?_eq_some_iff {members : List (String × Json)} {r : Resolved} :
    wrappedCases? members = some r ↔
      ∃ items cases, (Json.object members).member? "tests" = some (.array items) ∧ items ≠ [] ∧
        DecodeTo items cases ∧ r = ⟨.wrappedCases, .simplified cases⟩ := by
  rw [wrappedCases?, Json.member?]
  cases Json.lookupLast "tests" members with
  | none => simp
  | some j =>
    rw [Option.map_some]
    constructor
    · intro h
      split at h
      · cases h
      · cases h
      · rename_i cases hne heq
        obtain rfl := Option.some.inj h
        obtain ⟨items, rfl, hdecode⟩ := Decoder.list_eq_ok_iff.1 (Option.some.inj heq)
        refine ⟨items, cases, rfl, (ne_nil_of_decodeTo hdecode).2 ?_, hdecode, rfl⟩
        rintro rfl
        exact hne rfl
      · cases h
    · rintro ⟨items, cases, hitems, hne, hdecode, rfl⟩
      obtain rfl := Option.some.inj hitems
      have hcases := (ne_nil_of_decodeTo hdecode).1 hne
      rw [Decoder.list_eq_ok_iff.2 ⟨items, rfl, hdecode⟩]
      cases cases with
      | nil => exact absurd rfl hcases
      | cons c cs => rfl

/-- An object without the key `function_name` is a single case if it can be, and else wraps them. -/
theorem simplified?_object {members : List (String × Json)}
    (hkey : ¬(Json.object members).HasKey "function_name") :
    simplified? (.object members) =
      (singleCase? (.object members)).or (wrappedCases? members) := by
  rw [simplified?, if_neg (hasKey_iff.not.2 hkey)]

theorem simplified?_eq_some_iff {doc : Json} {r : Resolved} :
    simplified? doc = some r ↔
      ∃ shape cases, SimplifiedReading doc shape cases ∧ r = ⟨shape, .simplified cases⟩ := by
  constructor
  · intro h
    cases doc with
    | null | bool _ | int _ | float _ | string _ => cases h
    | array items =>
      obtain ⟨cases, hne, hdecode, rfl⟩ := caseList?_eq_some_iff.1 h
      exact ⟨_, _, .caseList hne hdecode, rfl⟩
    | object members =>
      rw [simplified?] at h
      split at h
      · cases h
      · rename_i hkey
        rw [hasKey_iff] at hkey
        rcases Option.or_eq_some_iff.1 h with hsingle | ⟨hnone, hwrapped⟩
        · obtain ⟨c, hc, hname, rfl⟩ := singleCase?_eq_some_iff.1 hsingle
          exact ⟨_, _, .singleCase hkey hc hname, rfl⟩
        · obtain ⟨items, cases, hitems, hne, hdecode, rfl⟩ := wrappedCases?_eq_some_iff.1 hwrapped
          exact ⟨_, _, .wrappedCases hkey (singleCase?_eq_none_iff.1 hnone) hitems hne hdecode, rfl⟩
  · rintro ⟨shape, cases, hreading, rfl⟩
    cases hreading with
    | caseList hne hdecode => exact caseList?_eq_some_iff.2 ⟨_, hne, hdecode, rfl⟩
    | singleCase hkey hc hname =>
      rw [simplified?_object hkey, singleCase?_eq_some_iff.2 ⟨_, hc, hname, rfl⟩]
      rfl
    | wrappedCases hkey hnone hitems hne hdecode =>
      rw [simplified?_object hkey, singleCase?_eq_none_iff.2 hnone,
        wrappedCases?_eq_some_iff.2 ⟨_, _, hitems, hne, hdecode, rfl⟩]
      rfl

/-! ## The decision -/

theorem canonical?_of_hasText {doc : Json} (h : doc.HasText "function_name") :
    canonical? doc =
      some (match Suite.decode doc with
        | .ok s => .ok ⟨.canonicalSuite, .canonical s⟩
        | .error e => .error (.undecodableSuite e)) := by
  rw [canonical?, if_pos (hasText_iff.2 h)]
  cases Suite.decode doc <;> rfl

theorem canonical?_of_marksCase {doc : Json} (hsuite : ¬doc.HasText "function_name")
    (h : doc.MarksCase) :
    canonical? doc =
      some (match TestCase.decode doc with
        | .ok c => .ok ⟨.canonicalCase, .canonical ⟨"", none, [c]⟩⟩
        | .error e => .error (.undecodableCase e)) := by
  rw [canonical?, if_neg (hasText_iff.not.2 hsuite), if_pos (marksCase_iff.2 h)]
  cases TestCase.decode doc <;> rfl

theorem canonical?_eq_none {doc : Json} (hsuite : ¬doc.HasText "function_name")
    (hcase : ¬doc.MarksCase) : canonical? doc = none := by
  rw [canonical?, if_neg (hasText_iff.not.2 hsuite), if_neg (marksCase_iff.not.2 hcase)]

theorem ofJson_of_resolution {doc : Json} {x : Except Malformed Resolved}
    (h : Resolution doc x) : ofJson doc = x := by
  cases h with
  | suite hsuite hs => rw [ofJson, canonical?_of_hasText hsuite, hs]
  | undecodableSuite hsuite he => rw [ofJson, canonical?_of_hasText hsuite, he]
  | testCase hsuite hcase hc => rw [ofJson, canonical?_of_marksCase hsuite hcase, hc]
  | undecodableCase hsuite hcase he => rw [ofJson, canonical?_of_marksCase hsuite hcase, he]
  | simplified hsuite hcase hreading =>
    rw [ofJson, canonical?_eq_none hsuite hcase,
      simplified?_eq_some_iff.2 ⟨_, _, hreading, rfl⟩]
  | unrecognized hsuite hcase hnone =>
    have hsimplified : simplified? doc = none := by
      rw [Option.eq_none_iff_forall_ne_some]
      intro r hr
      obtain ⟨shape, cases, hreading, _⟩ := simplified?_eq_some_iff.1 hr
      exact hnone shape cases hreading
    rw [ofJson, canonical?_eq_none hsuite hcase, hsimplified]

theorem exists_resolution (doc : Json) : ∃ x, Resolution doc x := by
  by_cases hsuite : doc.HasText "function_name"
  · cases hs : Suite.decode doc with
    | ok s => exact ⟨_, .suite hsuite hs⟩
    | error e => exact ⟨_, .undecodableSuite hsuite hs⟩
  · by_cases hcase : doc.MarksCase
    · cases hc : TestCase.decode doc with
      | ok c => exact ⟨_, .testCase hsuite hcase hc⟩
      | error e => exact ⟨_, .undecodableCase hsuite hcase hc⟩
    · by_cases hreading : ∃ shape cases, SimplifiedReading doc shape cases
      · obtain ⟨shape, cases, hreading⟩ := hreading
        exact ⟨_, .simplified hsuite hcase hreading⟩
      · refine ⟨_, .unrecognized hsuite hcase fun shape cases h => hreading ⟨shape, cases, h⟩⟩

theorem ofJson_eq_iff {doc : Json} {x : Except Malformed Resolved} :
    ofJson doc = x ↔ Resolution doc x := by
  refine ⟨fun h => ?_, ofJson_of_resolution⟩
  obtain ⟨y, hy⟩ := exists_resolution doc
  rw [← h, ofJson_of_resolution hy]
  exact hy

end Resolved

section Resolution

variable {doc : Json} {shape : DocumentShape} {s : Suite} {cases : List SimpleCase}

theorem Resolution.shape_of_canonical (h : Resolution doc (.ok ⟨shape, .canonical s⟩)) :
    shape = .canonicalSuite ∨ shape = .canonicalCase := by
  cases h with
  | suite _ _ => exact Or.inl rfl
  | testCase _ _ _ => exact Or.inr rfl

theorem Resolution.reading_of_simplified (h : Resolution doc (.ok ⟨shape, .simplified cases⟩)) :
    ¬doc.MarksCase ∧ SimplifiedReading doc shape cases := by
  cases h with
  | simplified _ hcase hreading => exact ⟨hcase, hreading⟩

theorem SimplifiedReading.shape_eq (h : SimplifiedReading doc shape cases) :
    shape = .caseList ∨ shape = .singleCase ∨ shape = .wrappedCases := by
  cases h with
  | caseList _ _ => exact Or.inl rfl
  | singleCase _ _ _ => exact Or.inr (Or.inl rfl)
  | wrappedCases _ _ _ _ _ => exact Or.inr (Or.inr rfl)

theorem SimplifiedReading.not_hasKey (h : SimplifiedReading doc shape cases) :
    ¬doc.HasKey "function_name" := by
  cases h with
  | caseList _ _ =>
    rintro ⟨j, hj⟩
    cases hj
  | singleCase hkey _ _ => exact hkey
  | wrappedCases hkey _ _ _ _ => exact hkey

end Resolution

namespace Document

/-! ## Texts -/

/-- What a message shows of a text: the whole of it, or its first `limit` characters and a mark. -/
inductive ShownAs (limit : Nat) (text : String) : String → Prop where
  | whole : text.length ≤ limit → ShownAs limit text text
  | cut {head rest : String} : text = head ++ rest → head.length = limit → rest ≠ "" →
      ShownAs limit text (head ++ "... (truncated)")

theorem shownAs_iff {limit : Nat} {text shown : String} :
    ShownAs limit text shown ↔ shown = excerpt limit text := by
  constructor
  · intro h
    cases h with
    | whole hle => rw [excerpt, if_neg (Nat.not_lt.2 hle)]
    | @cut head rest htext hlength hrest =>
      have hpos : 0 < rest.length := by
        rw [Nat.pos_iff_ne_zero, Ne, String.length_eq_zero_iff]
        exact hrest
      have hlt : limit < text.length := by
        rw [htext, String.length_append]
        omega
      have hhead : text.toList.take limit = head.toList := by
        rw [htext, String.toList_append, ← hlength, ← String.length_toList]
        exact List.take_left
      rw [excerpt, if_pos hlt, hhead, String.ofList_toList]
  · rintro rfl
    rw [excerpt]
    split
    · rename_i hlt
      rw [← String.length_toList] at hlt
      have htext : text = String.ofList (text.toList.take limit) ++
          String.ofList (text.toList.drop limit) := by
        rw [← String.toList_inj]
        simp
      refine .cut htext ?_ ?_
      · rw [String.length_ofList, List.length_take]
        omega
      · intro hempty
        have hdrop : (text.toList.drop limit).length = 0 := by
          rw [← String.length_ofList, hempty]
          rfl
        rw [List.length_drop] at hdrop
        omega
    · rename_i hle
      exact .whole (Nat.not_lt.1 hle)

theorem shownAs_excerpt (limit : Nat) (text : String) :
    ShownAs limit text (excerpt limit text) :=
  shownAs_iff.2 rfl

variable {o : Options} {text : String}

theorem resolve_eq_ok_iff {r : Resolved} :
    resolve o text = .ok r ↔
      ∃ doc, read? (unfenced text) = some doc ∧ Resolution doc (.ok r) := by
  unfold resolve resolveBody
  cases read? (unfenced text) with
  | none => simp
  | some doc =>
    simp only [Option.some.injEq, exists_eq_left', ← Resolved.ofJson_eq_iff]
    cases Resolved.ofJson doc <;> simp

theorem resolve_eq_error_iff {r : Refusal} :
    resolve o text = .error r ↔
      ShownAs o.excerptLength (unfenced text) r.excerpt ∧
        ((read? (unfenced text) = none ∧ r.cause = .unreadable) ∨
          ∃ doc, read? (unfenced text) = some doc ∧ Resolution doc (.error r.cause)) := by
  obtain ⟨cause, shown⟩ := r
  unfold resolve resolveBody
  rw [shownAs_iff]
  cases read? (unfenced text) with
  | none => simp [refusal, and_comm, eq_comm]
  | some doc =>
    simp only [Option.some.injEq, exists_eq_left', ← Resolved.ofJson_eq_iff, reduceCtorEq,
      false_and, false_or]
    cases Resolved.ofJson doc with
    | ok r => simp
    | error e => simp [refusal, and_comm, eq_comm]

/-- A document that can be read is resolved to what `Resolution` says and to nothing else, and a
refusal shows how the text between the fences starts. No document with the key `function_name`, and
none with the marks of a canonical case, is taken for simplified cases. -/
theorem resolve_exactly (o : Options) (text : String) :
    (∀ doc, read? (unfenced text) = some doc →
      (∀ r, resolve o text = .ok r ↔ Resolution doc (.ok r)) ∧
      (∀ cause, (∃ shown, resolve o text = .error ⟨cause, shown⟩) ↔
        Resolution doc (.error cause)) ∧
      (doc.HasKey "function_name" ∨ doc.MarksCase →
        ∀ shape cases, resolve o text ≠ .ok ⟨shape, .simplified cases⟩)) ∧
    ∀ r, resolve o text = .error r → ShownAs o.excerptLength (unfenced text) r.excerpt := by
  refine ⟨fun doc hread => ⟨fun r => ?_, fun cause => ?_, fun hmarks shape cases hok => ?_⟩, ?_⟩
  · rw [resolve_eq_ok_iff, hread]
    simp
  · constructor
    · rintro ⟨shown, herror⟩
      obtain ⟨_, ⟨hnone, _⟩ | ⟨doc', hread', hcause⟩⟩ := resolve_eq_error_iff.1 herror
      · rw [hread] at hnone
        cases hnone
      · rw [hread] at hread'
        cases hread'
        exact hcause
    · intro hcause
      refine ⟨excerpt o.excerptLength (unfenced text), ?_⟩
      simp only [resolve_eq_error_iff, shownAs_excerpt, true_and]
      exact Or.inr ⟨doc, hread, hcause⟩
  · obtain ⟨doc', hread', hresolution⟩ := resolve_eq_ok_iff.1 hok
    rw [hread] at hread'
    cases hread'
    obtain ⟨hcase, hreading⟩ := hresolution.reading_of_simplified
    rcases hmarks with hkey | hcase'
    · exact hreading.not_hasKey hkey
    · exact hcase hcase'
  · intro r herror
    exact (resolve_eq_error_iff.1 herror).1

/-- A list of cases next to a `null` for the name of a function, between fences. -/
def listNextToNull : String :=
  "\x60\x60\x60json\n\x7b\"function_name\":null,\"tests\":[\x7b\"name\":\"a\"\x7d]\x7d\n\x60\x60\x60"

/-- A `null` names no suite, and still it keeps the list of cases from being read. -/
theorem resolve_exactly_listNextToNull :
    ∃ doc, read? (unfenced listNextToNull) = some doc ∧ doc.HasKey "function_name" ∧
      Resolution doc (.error .unrecognized) ∧
      ∀ r, resolve .standard listNextToNull = .error r →
        ShownAs Options.standard.excerptLength (unfenced listNextToNull) r.excerpt := by
  have hread : read? (unfenced listNextToNull) =
      some (.object
        [("function_name", .null), ("tests", .array [.object [("name", .string "a")]])]) := by
    decide +kernel
  have herror : resolve .standard listNextToNull = .error ⟨.unrecognized,
      "\x7b\"function_name\":null,\"tests\":[\x7b\"name\":\"a\"\x7d]\x7d"⟩ := by
    decide +kernel
  obtain ⟨hdecides, hshown⟩ := resolve_exactly .standard listNextToNull
  exact ⟨_, hread, ⟨.null, rfl⟩, ((hdecides _ hread).2.1 _).1 ⟨_, herror⟩, hshown⟩

end Document
end CaseIntake
