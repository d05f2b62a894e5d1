import CaseIntake.Proofs.Document.Fence
import CaseIntake.Proofs.Document.Resolution
import CaseIntake.Proofs.Suite.Json

/-!
# CaseIntake.Proofs.Document.Written

Canonical documents that were written are resolved to what they were written from, without the
`null`s that count as missing values: `resolve_written`.

That the reader takes the text for the tree that was written is assumed (`Json.IsWrittenAs`). It
cannot be had for every tree: the reader has a limit of depth, and of some floating-point numbers it
reads a neighbour.
-/

namespace CaseIntake

/-- The text is the tree in one of the two forms of the writer, and the reader takes it for that
tree, with the members of objects in the order in which it hands them out. -/
structure Json.IsWrittenAs (j : Json) (text : String) : Prop where
  form : text = j.compact ∨ text = j.indented 0
  read_back : Json.read? text = some j.sorted

namespace Document

/-! ## The text of an object -/

theorem exists_bracketed (opening closing : String) (level : Nat) (lines : List String) :
    ∃ inner, Json.bracketed opening closing level lines = opening ++ inner ++ closing := by
  rw [Json.bracketed]
  split
  · exact ⟨"", by rw [String.append_empty]⟩
  · refine ⟨Json.lineStart (level + 1) ++
      String.intercalate ("," ++ Json.lineStart (level + 1)) lines ++ Json.lineStart level, ?_⟩
    simp only [String.append_assoc]

theorem exists_braces {members : List (String × Json)} {text : String}
    (h : text = (Json.object members).compact ∨ text = (Json.object members).indented 0) :
    ∃ inner, text = "\x7b" ++ inner ++ "\x7d" := by
  rcases h with rfl | rfl
  · rw [Json.compact]
    exact ⟨_, rfl⟩
  · rw [Json.indented]
    exact exists_bracketed _ _ _ _

theorem unfenced_braces (inner : String) :
    unfenced ("\x7b" ++ inner ++ "\x7d") = "\x7b" ++ inner ++ "\x7d" := by
  have htext : ("\x7b" ++ inner ++ "\x7d").toList = '\x7b' :: inner.toList ++ ['\x7d'] := by
    simp
  refine unfenced_eq_self ⟨?_, ?_⟩ ?_ ?_
  · intro c hc
    rw [htext] at hc
    obtain rfl := Option.some.inj hc
    decide
  · intro c hc
    rw [htext, List.getLast?_concat] at hc
    obtain rfl := Option.some.inj hc
    decide
  · rw [htext, fence, List.cons_append, List.cons_prefix_cons]
    simp
  · rw [htext]
    rintro ⟨before, hbefore⟩
    have hlast := congrArg List.getLast? hbefore
    rw [List.getLast?_concat, fence] at hlast
    simp at hlast

section Written

variable {o : Options} {text : String} {members : List (String × Json)} {r : Resolved}

/-- An object that was written is resolved as its tree is. -/
theorem resolve_of_isWrittenAs (h : (Json.object members).IsWrittenAs text)
    (hresolution : Resolution (Json.object members).sorted (.ok r)) : resolve o text = .ok r := by
  obtain ⟨inner, rfl⟩ := exists_braces h.form
  refine resolve_eq_ok_iff.2 ⟨_, ?_, hresolution⟩
  rw [unfenced_braces, read?, h.read_back]
  rfl

end Written

/-! ## The marks of what was written -/

theorem hasText_of_member? {doc : Json} {key s : String}
    (h : doc.member? key = some (.string s)) :
    doc.HasText key ↔ ∃ c ∈ s.toList, Text.isBlank c = false := by
  rw [Json.HasText, h]
  simp

theorem member?_suite (s : Suite) :
    s.toJson.sorted.member? "function_name" = some (.string s.functionName) := by
  rw [Suite.toJson, Json.member?_sorted_record (by simp)]
  simp [findEntry, Json.sorted]

theorem member?_testCase (c : TestCase) :
    c.toJson.sorted.member? "name" = some (.string c.name) ∧
      c.toJson.sorted.member? "function_name" = none ∧ c.toJson.sorted.HasKey "when" := by
  rw [Json.HasKey, TestCase.toJson]
  simp [Json.member?_sorted_record, findEntry, Json.sorted]

/-- A canonical document with a name comes back as it was written, in either form: the same cases
with the same variables, arguments and checks in the same order, and the same texts and values in
them, where only a value that was there and `null` is missing. -/
theorem resolve_written (o : Options) (text : String) :
    (∀ s : Suite, s.Ordered → (∃ c ∈ s.functionName.toList, Text.isBlank c = false) →
      s.toJson.IsWrittenAs text →
        resolve o text = .ok ⟨.canonicalSuite, .canonical s.withoutNulls⟩) ∧
    (∀ c : TestCase, c.Ordered → (∃ ch ∈ c.name.toList, Text.isBlank ch = false) →
      c.toJson.IsWrittenAs text →
        resolve o text = .ok ⟨.canonicalCase, .canonical ⟨"", none, [c.withoutNulls]⟩⟩) := by
  constructor
  · intro s hordered hname hwritten
    refine resolve_of_isWrittenAs hwritten (.suite ?_ (Suite.decode_sorted_toJson hordered))
    exact (hasText_of_member? (member?_suite s)).2 hname
  · intro c hordered hname hwritten
    obtain ⟨hmember, hfunction, hwhen⟩ := member?_testCase c
    refine resolve_of_isWrittenAs hwritten
      (.testCase ?_ ⟨?_, Or.inr (Or.inl hwhen)⟩ (TestCase.decode_sorted_toJson hordered))
    · -- A case is written without the key that marks a suite.
      rintro ⟨t, ht, -⟩
      have hnone := hfunction.symm.trans ht
      cases hnone
    · exact (hasText_of_member? hmember).2 hname

/-- A case with a variable that is `null`, and with a `null` inside an expected value. -/
def caseWithNulls : TestCase :=
  ⟨"a", none, [⟨"x", some .null, none⟩], ⟨"F($x)", []⟩,
    [⟨"equals", "r", some (.list [.int 1, .null]), none⟩], []⟩

/-- Only where a value may be missing does `null` get lost, in a suite as in a single case. -/
theorem resolve_written_nulls :
    let c : TestCase := { caseWithNulls with given := [⟨"x", none, none⟩] }
    let s : Suite := ⟨"F", none, [caseWithNulls]⟩
    resolve .standard s.toJson.compact =
        .ok ⟨.canonicalSuite, .canonical ⟨"F", none, [c]⟩⟩ ∧
      resolve .standard caseWithNulls.toJson.compact =
        .ok ⟨.canonicalCase, .canonical ⟨"", none, [c]⟩⟩ := by
  intro c s
  have hcase : caseWithNulls.toJson.IsWrittenAs caseWithNulls.toJson.compact :=
    ⟨Or.inl rfl, by decide +kernel⟩
  have hsuite : s.toJson.IsWrittenAs s.toJson.compact := ⟨Or.inl rfl, by decide +kernel⟩
  have hordered : caseWithNulls.Ordered :=
    ⟨by simp [caseWithNulls, Value.Ordered],
      by simp [caseWithNulls, Value.Ordered, Value.OrderedItems]⟩
  have hsuiteOrdered : s.Ordered := by
    intro d hd
    obtain rfl := List.mem_singleton.1 hd
    exact hordered
  exact ⟨(resolve_written .standard _).1 s hsuiteOrdered ⟨'F', by decide⟩ hsuite,
    (resolve_written .standard _).2 caseWithNulls hordered ⟨'a', by decide⟩ hcase⟩

end Document
end CaseIntake
