import CaseIntake.Proofs.Document.Resolution
import CaseIntake.Proofs.Json.Positional

/-!
# CaseIntake.Proofs.Document.Elements

What the elements of a list of cases can be. An element is read as a case from an object, or from an
array, which is an object without its keys (`SimpleCase.decode_eq_ok_iff`). So a list of cases may
hold arrays next to objects (`resolve_elements`), and an empty array among them is a case with
nothing in it (`resolve_nestedList`). Numbers, texts, truth values and `null` are never cases.
-/

namespace CaseIntake

namespace SimpleCase

/-- The keys of a case, in the order in which an array has their values. -/
def keys : List String :=
  ["name", "description", "setup", "action", "assertions", "assertion", "assert", "expected",
    "expect", "tags"]

theorem positional_shape : shape.Positional keys :=
  have field {α : Type} (key : String) (default : α) (d : Decoder α) :
      (Shape.withDefault key default d).Positional [key] :=
    Shape.positional_field key d (some default)
  have optional {α : Type} (key : String) (d : Decoder α) :
      (Shape.optional key d).Positional [key] :=
    Shape.positional_field key (Decoder.optional d) (some none)
  (field "name" _ _).map SimpleCase.mk
    |>.seq (optional "description" _)
    |>.seq (field "setup" _ _)
    |>.seq (optional "action" _)
    |>.seq (optional "assertions" _)
    |>.seq (optional "assertion" _)
    |>.seq (optional "assert" _)
    |>.seq (optional "expected" _)
    |>.seq (optional "expect" _)
    |>.seq (field "tags" _ _)

/-- How an element of a list is read as a case. -/
inductive ReadFrom : Json → SimpleCase → Prop where
  | object {members : List (String × Json)} {c : SimpleCase} :
      decode (.object members) = .ok c → ReadFrom (.object members) c
  | array {items : List Json} {c : SimpleCase} : items.length ≤ keys.length →
      decode (.object (keys.zip items)) = .ok c → ReadFrom (.array items) c

theorem decode_eq_ok_iff {j : Json} {c : SimpleCase} : decode j = .ok c ↔ ReadFrom j c := by
  have harray (items : List Json) : decode (.array items) = .ok c ↔
      items.length ≤ keys.length ∧ decode (.object (keys.zip items)) = .ok c :=
    Shape.decoder_array_eq_ok_iff positional_shape (by decide +kernel)
  constructor
  · intro h
    cases j with
    | object members => exact .object h
    | array items =>
      obtain ⟨hlength, hobject⟩ := (harray items).1 h
      exact .array hlength hobject
    | null | bool _ | int _ | float _ | string _ => cases h
  · intro h
    cases h with
    | object h => exact h
    | array hlength h => exact (harray _).2 ⟨hlength, h⟩

theorem decodeTo_iff {items : List Json} {cases : List SimpleCase} :
    DecodeTo items cases ↔ List.Forall₂ ReadFrom items cases := by
  simp only [DecodeTo, decode_eq_ok_iff]

end SimpleCase

namespace Document

theorem not_hasText_array {items : List Json} {key : String} :
    ¬(Json.array items).HasText key := by
  rintro ⟨s, hs, -⟩
  cases hs

/-- The cases of a list, at the root of a document or under the key `tests`, are read from the
elements one by one: from objects, and from arrays with at most ten elements in the order of the
keys. Every list of such elements at the root is a list of cases. -/
theorem resolve_elements (o : Options) (text : String) :
    (∀ cases, resolve o text = .ok ⟨.caseList, .simplified cases⟩ ↔
      ∃ items, read? (unfenced text) = some (.array items) ∧ items ≠ [] ∧
        List.Forall₂ SimpleCase.ReadFrom items cases) ∧
    (∀ cases, resolve o text = .ok ⟨.wrappedCases, .simplified cases⟩ →
      ∃ doc items, read? (unfenced text) = some doc ∧
        doc.member? "tests" = some (.array items) ∧ items ≠ [] ∧
        List.Forall₂ SimpleCase.ReadFrom items cases) ∧
    ∀ j c, SimpleCase.ReadFrom j c → (∃ members, j = .object members) ∨
      ∃ elements, j = .array elements ∧ elements.length ≤ 10 := by
  simp only [resolve_eq_ok_iff, ← SimpleCase.decodeTo_iff]
  refine ⟨fun cases => ⟨?_, ?_⟩, ?_, ?_⟩
  · rintro ⟨doc, hread, hresolution⟩
    obtain ⟨-, hreading⟩ := hresolution.reading_of_simplified
    cases hreading with
    | caseList hne hdecode => exact ⟨_, hread, hne, hdecode⟩
  · rintro ⟨items, hread, hne, hdecode⟩
    refine ⟨_, hread, .simplified not_hasText_array ?_ (.caseList hne hdecode)⟩
    exact fun hcase => not_hasText_array hcase.1
  · rintro cases ⟨doc, hread, hresolution⟩
    obtain ⟨-, hreading⟩ := hresolution.reading_of_simplified
    cases hreading with
    | wrappedCases _ _ hitems hne hdecode => exact ⟨_, _, hread, hitems, hne, hdecode⟩
  · intro j c h
    cases h with
    | object _ => exact Or.inl ⟨_, rfl⟩
    | array hlength _ => exact Or.inr ⟨_, rfl, hlength⟩

/-- A case as an array next to one as an object. -/
def mixedList : String :=
  "\x7b\"tests\":[[\"adds\",null,\x7b\"a\":2\x7d,\"F(a)\"],\x7b\"name\":\"b\"\x7d]\x7d"

theorem resolve_elements_mixedList :
    ∃ cases, resolve .standard mixedList = .ok ⟨.wrappedCases, .simplified cases⟩ ∧
      ∃ doc items, read? (unfenced mixedList) = some doc ∧
        doc.member? "tests" = some (.array items) ∧ items ≠ [] ∧
        List.Forall₂ SimpleCase.ReadFrom items cases := by
  have hok : resolve .standard mixedList = .ok ⟨.wrappedCases, .simplified [
      ⟨"adds", none, .ofList [("a", .int 2)], some (.call "F(a)"), none, none, none, none, none, []⟩,
      ⟨"b", none, .empty, none, none, none, none, none, none, []⟩]⟩ := by
    decide +kernel
  exact ⟨_, hok, (resolve_elements .standard mixedList).2.1 _ hok⟩

/-- An empty array in an array is read as a case, although it is no object. -/
theorem resolve_nestedList :
    ∃ cases items, resolve .standard "[[]]" = .ok ⟨.caseList, .simplified cases⟩ ∧
      read? (unfenced "[[]]") = some (.array items) ∧
      ∃ j ∈ items, ∀ members, j ≠ .object members := by
  have hok : resolve .standard "[[]]" = .ok ⟨.caseList, .simplified [
      ⟨"", none, .empty, none, none, none, none, none, none, []⟩]⟩ := by
    decide +kernel
  have hread : read? (unfenced "[[]]") = some (.array [.array []]) := by
    decide +kernel
  exact ⟨_, _, hok, hread, _, .head _, fun members => by simp⟩

end Document
end CaseIntake
