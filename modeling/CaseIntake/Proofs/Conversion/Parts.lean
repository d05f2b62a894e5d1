import CaseIntake.Proofs.SimpleCase.Decoded
import Mathlib.Data.List.Perm.Basic

/-!
# CaseIntake.Proofs.Conversion.Parts

The parts of a payload and the checks they ask for: `SimpleCase.checks_of_parts`.

* `Payload.parts`: the texts, the entries of maps and the other values of a payload.
* `Part.check?`: each part asks for one check, unless it is mute (`Part.check?_eq_none_iff`).
* `checksOfMap_perm`: the checks of a map are those of its entries, in another order. The reserved
  keys are looked up one by one and the other keys in one go, so it rests on the entries being split
  by their keys (`perm_findEntry`).

The keys of a map are distinct because it is `Ordered`, and so is every payload that is read from a
document (`Payload.yields_decode`).
-/

namespace CaseIntake

namespace Payload

/-- A part of a payload that can ask for a check. -/
inductive Part where
  | text (text : String)
  | value (value : Value)
  | entry (key : String) (value : Value)

/-- The check that a part asks for. -/
def Part.check? : Part → Option Check
  | .text s => some (checkOfText s)
  | .value v => some (equalsResult v)
  | .entry "result" v => some (equalsResult v)
  | .entry "expect" v => v.string?.map checkOfText
  | .entry "error" (.bool true) => some (.new "not_nil" "error" none)
  | .entry "error" (.string s) => some (.new "contains" "error" (some (.string s)))
  | .entry "error" _ => none
  | .entry "contains" v => some (.new "contains" "result" (some v))
  | .entry "type" v => some (.new "type_is" "result" (some v))
  | .entry key v => some (.new "equals" key (some v))

/-- An entry that asks for nothing: it expects something other than a text, or an error other than
`true` or a text. -/
inductive Part.IsMute : Part → Prop where
  | expect {v : Value} : (∀ text, v ≠ .string text) → IsMute (.entry "expect" v)
  | error {v : Value} : v ≠ .bool true → (∀ text, v ≠ .string text) → IsMute (.entry "error" v)

theorem string?_eq_none_iff {v : Value} : v.string? = none ↔ ∀ text, v ≠ .string text := by
  cases v <;> simp [Value.string?]

theorem Part.check?_eq_none_iff {part : Part} : part.check? = none ↔ part.IsMute := by
  constructor
  · intro h
    unfold Part.check? at h
    split at h
    case h_4 v => exact .expect (string?_eq_none_iff.1 (Option.map_eq_none_iff.1 h))
    case h_7 v htrue htext => exact .error htrue htext
    all_goals cases h
  · rintro (hexpect | ⟨htrue, htext⟩)
    · rw [Part.check?, string?_eq_none_iff.2 hexpect, Option.map_none]
    · rw [Part.check?]
      · exact htrue
      · exact htext

/-- A key without a meaning of its own asks for equality. -/
theorem Part.check?_of_free {key : String} (hkey : key ∉ reservedKeys) (v : Value) :
    (Part.entry key v).check? = some (.new "equals" key (some v)) := by
  simp only [reservedKeys, List.mem_cons, List.not_mem_nil, or_false, not_or] at hkey
  obtain ⟨hresult, hexpect, herror, hcontains, htype⟩ := hkey
  rw [Part.check?] <;> simp_all

/-- The parts of a map are its entries. -/
def partsOfMap (entries : List (String × Value)) : List Part :=
  entries.map fun entry => .entry entry.1 entry.2

def partsOfItem : Value → List Part
  | .string s => [.text s]
  | .map entries => partsOfMap entries
  | v => [.value v]

def parts : Payload → List Part
  | .text s => [.text s]
  | .list items => items.flatMap partsOfItem
  | .map entries => partsOfMap entries.entries
  | .scalar v => [.value v]

/-- The check that the entry under a key asks for, if there is one. -/
def checkUnder? (entries : List (String × Value)) (key : String) : Option Check :=
  (findEntry key entries).bind fun v => (Part.entry key v).check?

theorem checksOfError_eq (value : Option Value) :
    checksOfError value = (value.bind fun v => (Part.entry "error" v).check?).toList := by
  cases value with
  | none => rfl
  | some v =>
    cases v with
    | bool b => cases b <;> rfl
    | null | int _ | float _ | string _ | list _ | map _ => rfl

theorem filterMap_reserved (entries : List (String × Value)) :
    (partsOfMap (reservedKeys.filterMap fun key =>
        (findEntry key entries).map fun v => (key, v))).filterMap Part.check? =
      reservedKeys.flatMap fun key => (checkUnder? entries key).toList := by
  rw [partsOfMap, List.filterMap_map, List.filterMap_filterMap, List.filterMap_eq_flatMap_toList]
  congr 1
  funext key
  rw [checkUnder?, Option.bind_map]
  rfl

theorem filterMap_free (entries : List (String × Value)) :
    (partsOfMap (entries.filter fun entry => !reservedKeys.contains entry.1)).filterMap Part.check? =
      (entries.filter fun entry => !reservedKeys.contains entry.1).map fun entry =>
        .new "equals" entry.1 (some entry.2) := by
  rw [partsOfMap, List.filterMap_map, ← List.filterMap_eq_map]
  refine List.filterMap_congr fun entry hentry => ?_
  have hfree : entry.1 ∉ reservedKeys := by simpa using (List.mem_filter.1 hentry).2
  exact Part.check?_of_free hfree entry.2

theorem checksOfMap_eq (entries : List (String × Value)) :
    checksOfMap entries =
      (partsOfMap ((reservedKeys.filterMap fun key =>
          (findEntry key entries).map fun v => (key, v)) ++
        entries.filter fun entry => !reservedKeys.contains entry.1)).filterMap Part.check? := by
  have hsplit : ∀ xs ys, (partsOfMap (xs ++ ys)).filterMap Part.check? =
      (partsOfMap xs).filterMap Part.check? ++ (partsOfMap ys).filterMap Part.check? := by
    intro xs ys
    rw [partsOfMap, List.map_append, List.filterMap_append]
    rfl
  rw [hsplit, filterMap_reserved, filterMap_free, checksOfMap, checksOfError_eq]
  simp only [reservedKeys, List.flatMap_cons, List.flatMap_nil, List.append_nil, checkUnder?,
    List.append_assoc]
  refine congrArg₂ (· ++ ·) ?result (congrArg₂ (· ++ ·) ?expect (congrArg₂ (· ++ ·) rfl
    (congrArg₂ (· ++ ·) ?contains (congrArg₂ (· ++ ·) ?type rfl))))
  case expect =>
    cases findEntry "expect" entries with
    | none => rfl
    | some v => cases v <;> rfl
  case result => cases findEntry "result" entries <;> rfl
  case contains => cases findEntry "contains" entries <;> rfl
  case type => cases findEntry "type" entries <;> rfl

theorem checksOfMap_perm {entries : List (String × Value)} (hnd : (entries.map Prod.fst).Nodup) :
    (checksOfMap entries).Perm ((partsOfMap entries).filterMap Part.check?) := by
  have hkeys : reservedKeys.Nodup := by decide
  rw [checksOfMap_eq]
  exact ((perm_findEntry hnd hkeys).symm.map _).filterMap _

theorem checksOfItem_perm {v : Value} (h : v.Ordered) :
    (checksOfItem v).Perm ((partsOfItem v).filterMap Part.check?) := by
  cases v with
  | map entries => exact checksOfMap_perm (nodup_of_ascending h.1)
  | null | bool _ | int _ | float _ | string _ | list _ => exact .refl _

theorem Ordered.perm_parts {p : Payload} (h : p.Ordered) :
    p.checks.Perm (p.parts.filterMap Part.check?) := by
  cases p with
  | text s => exact .refl _
  | list items =>
    rw [parts, List.filterMap_flatMap]
    exact List.Perm.flatMap_left items fun v hv => checksOfItem_perm (h v hv)
  | map entries => exact checksOfMap_perm (nodup_of_ascending entries.ascending)
  | scalar v => exact .refl _

end Payload

open Payload

/-- A case has the checks that the parts of its payload ask for, one for each part that is not mute,
and only if all of them are mute the fallback. The mute parts are the entries of maps that expect
something other than a text, or an error other than `true` or a text. -/
theorem SimpleCase.checks_of_parts {c : SimpleCase} {p : Payload} (hp : c.payload = some p)
    (hordered : p.Ordered) :
    (∀ part : Part, part.check? = none ↔ part.IsMute) ∧
      ((∃ part ∈ p.parts, ¬part.IsMute) → c.checks.Perm (p.parts.filterMap Part.check?)) ∧
      ((∀ part ∈ p.parts, part.IsMute) → c.checks = [fallback]) := by
  have hperm := hordered.perm_parts
  have hmute : p.checks = [] ↔ ∀ part ∈ p.parts, part.IsMute := by
    rw [← List.perm_nil, hperm.congr_left, List.perm_nil, List.filterMap_eq_nil_iff]
    simp only [Part.check?_eq_none_iff]
  have hchecks : c.checks = if p.checks = [] then [fallback] else p.checks := by
    rw [SimpleCase.checks, hp]
    cases hfound : p.checks with
    | nil => simp only [hfound, if_true]
    | cons first rest => simp [hfound]
  refine ⟨fun part => Part.check?_eq_none_iff, ?_, fun hall => ?_⟩
  · rintro ⟨part, hpart, hloud⟩
    rw [hchecks, if_neg fun hnil => hloud (hmute.1 hnil part hpart)]
    exact hperm
  · rw [hchecks, if_pos (hmute.2 hall)]

/-- A list with a map in which one entry is mute, a text, a map with nothing else, and a number. -/
theorem SimpleCase.checks_of_parts_list :
    let items : List Value := [.map [("error", .string "late"), ("expect", .int 5), ("size", .null)],
      .string "n > 2", .map [("error", .bool false)], .int 7]
    let c : SimpleCase := ⟨"n", none, .empty, none, some (.list items), none, none, none, none, []⟩
    c.payload = some (.list items) ∧ (Payload.list items).Ordered ∧
      c.checks.Perm [.new "contains" "error" (some (.string "late")),
        .new "equals" "size" (some .null), .new "greater_than" "n" (some (.int 2)),
        .new "equals" "result" (some (.int 7))] := by
  intro items c
  have hordered : (Payload.list items).Ordered := by
    intro v hv
    simp only [items, List.mem_cons, List.not_mem_nil, or_false] at hv
    rcases hv with rfl | rfl | rfl | rfl
    · refine ⟨?_, trivial, trivial, trivial, trivial⟩
      unfold Ascending
      decide +kernel
    · trivial
    · exact ⟨List.pairwise_singleton _ _, trivial, trivial⟩
    · trivial
  obtain ⟨-, hchecks, -⟩ := SimpleCase.checks_of_parts (c := c) rfl hordered
  have hfound : (Payload.list items).parts.filterMap Part.check? =
      [.new "contains" "error" (some (.string "late")), .new "equals" "size" (some .null),
        .new "greater_than" "n" (some (.int 2)), .new "equals" "result" (some (.int 7))] := by
    decide +kernel
  refine ⟨rfl, hordered, hfound ▸ hchecks ⟨.value (.int 7), ?_, ?_⟩⟩
  · simp [items, parts, partsOfItem]
  · rintro ⟨⟩

/-- An entry that expects a number asks for nothing, and neither does one with a code of an error:
the case is left with the fallback. -/
theorem SimpleCase.checks_of_number :
    let c (payload : Payload) : SimpleCase :=
      ⟨"n", none, .empty, none, some payload, none, none, none, none, []⟩
    (c (.map (.ofList [("expect", .int 5)]))).checks = [fallback] ∧
      (c (.list [.map [("error", .int 404)]])).checks = [fallback] ∧
      (c (.scalar (.int 5))).checks = [.new "equals" "result" (some (.int 5))] := by
  decide +kernel

end CaseIntake
