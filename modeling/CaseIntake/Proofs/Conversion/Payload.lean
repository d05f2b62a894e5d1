import CaseIntake.Conversion.Payload

/-!
# CaseIntake.Proofs.Conversion.Payload

Checks that both forms of a case can ask for. Each has a map with one entry that asks for it and for
nothing else (`checksOfMap_entry`), so a list of such maps asks for the checks in order
(`checks_of_entries`). No case goes without a check (`SimpleCase.checks_ne_nil`).
-/

namespace CaseIntake

/-- What a map with one entry can ask for. A property stands under a key without a meaning of its
own. -/
inductive Expectation where
  | result (value : Value)
  | contains (value : Value)
  | type (value : Value)
  | error
  | errorText (text : String)
  | property (key : String) (value : Value) (free : key ∉ Payload.reservedKeys)

namespace Expectation

def check : Expectation → Check
  | .result value => .new "equals" "result" (some value)
  | .contains value => .new "contains" "result" (some value)
  | .type value => .new "type_is" "result" (some value)
  | .error => .new "not_nil" "error" none
  | .errorText text => .new "contains" "error" (some (.string text))
  | .property key value _ => .new "equals" key (some value)

def entry : Expectation → String × Value
  | .result value => ("result", value)
  | .contains value => ("contains", value)
  | .type value => ("type", value)
  | .error => ("error", .bool true)
  | .errorText text => ("error", .string text)
  | .property key value _ => (key, value)

end Expectation

namespace Payload

theorem checksOfMap_entry (e : Expectation) : checksOfMap [e.entry] = [e.check] := by
  cases e with
  | result value => rfl
  | contains value => rfl
  | type value => rfl
  | error => rfl
  | errorText text => rfl
  | property key value free =>
    have hkey : ∀ name ∈ reservedKeys, findEntry name [(key, value)] = none := by
      intro name hname
      have hne : key ≠ name := by
        rintro rfl
        exact free hname
      simp [findEntry, hne]
    have hfilter : [(key, value)].filter (fun entry => !reservedKeys.contains entry.1) =
        [(key, value)] := by
      simpa using free
    rw [checksOfMap, Expectation.entry, hfilter, hkey "result" (by simp [reservedKeys]),
      hkey "expect" (by simp [reservedKeys]), hkey "error" (by simp [reservedKeys]),
      hkey "contains" (by simp [reservedKeys]), hkey "type" (by simp [reservedKeys])]
    rfl

theorem checks_of_entries (es : List Expectation) :
    (Payload.list (es.map fun e => .map [e.entry])).checks = es.map Expectation.check := by
  rw [checks]
  induction es with
  | nil => rfl
  | cons e es ih =>
    rw [List.map_cons, List.flatMap_cons, ih, checksOfItem, checksOfMap_entry]
    rfl

end Payload

/-- Whatever a case expects, it asks for a check. -/
theorem SimpleCase.checks_ne_nil (c : SimpleCase) : c.checks ≠ [] := by
  rw [SimpleCase.checks]
  split
  · simp
  · split
    · simp
    · assumption

end CaseIntake
