import CaseIntake.Proofs.SimpleCase.Decoded
import CaseIntake.Proofs.Value.Normal

/-!
# CaseIntake.Proofs.Action.Json

What an action is read from, and that it is read again from what is written for it.

* `StructuredAction.Fits`: the objects that are structured calls
  (`StructuredAction.exists_ofMembers_iff`). That a tree is written again as a value changes nothing
  in it (`StructuredAction.fits_normal_iff`).
* `Action.ReadFrom`: what each tree is read as (`Action.decode_eq_ok_iff`), which goes by the kind of
  the tree (`Action.ReadFrom.classifies`).
* `Action.ReadFrom.sorted_toJson`: whatever was read is read again.
-/

namespace CaseIntake

open Shape

/-! ## Parts of a structured call -/

/-- What a list of texts is read from. -/
def Json.IsTexts (j : Json) : Prop :=
  ∃ items, j = .array items ∧ ∀ item ∈ items, item.kind = .string

theorem Json.isTexts_normal {j : Json} : j.normal.IsTexts ↔ j.IsTexts := by
  have hforall (items : List Json) :
      (∀ item ∈ items.map normal, item.kind = .string) ↔ ∀ item ∈ items, item.kind = .string := by
    simp only [List.forall_mem_map, kind_normal]
  constructor
  · rintro ⟨normals, hj, hnormals⟩
    obtain ⟨items, rfl⟩ := kind_eq_array_iff.1 (by rw [← kind_normal j, hj, kind])
    rw [normal_array, Json.array.injEq] at hj
    subst hj
    exact ⟨items, rfl, (hforall items).1 hnormals⟩
  · rintro ⟨items, rfl, hitems⟩
    exact ⟨_, normal_array items, (hforall items).2 hitems⟩

namespace Decoder

theorem exists_string_iff {j : Json} : (∃ x, string j = .ok x) ↔ j.kind = .string := by
  cases j <;> simp [string, refuse, Json.kind]

theorem exists_optional_string_iff {j : Json} :
    (∃ x, optional string j = .ok x) ↔ j.kind ∈ [.null, .string] := by
  cases j <;> simp [optional, string, refuse, Json.kind, Except.map]

theorem exists_list_string_iff {j : Json} : (∃ x, list string j = .ok x) ↔ j.IsTexts := by
  simp only [exists_list_iff, exists_string_iff, Json.IsTexts]

end Decoder

theorem ArgumentSource.exists_optional_decode_iff {j : Json} :
    (∃ x, Decoder.optional ArgumentSource.decode j = .ok x) ↔
      j.kind ∈ [.null, .array, .object, .string] := by
  cases j with
  | array items =>
    simp [Decoder.optional, decode, Decoder.list_value_array, Decoder.firstOf, Except.map,
      Json.kind]
  | object members =>
    obtain ⟨d, hd⟩ := Decoder.exists_valueDict_object members
    simp [Decoder.optional, decode, hd, Decoder.list, Decoder.refuse, Decoder.firstOf, Except.map,
      Json.kind]
  | null | bool _ | int _ | float _ | string _ =>
    simp [Decoder.optional, decode, Decoder.list, Decoder.valueDict, Decoder.dict, Decoder.string,
      Decoder.refuse, Decoder.firstOf, Except.map, Json.kind]

/-! ## Structured calls -/

namespace StructuredAction

/-- The members of an object make a structured call. -/
structure Fits (members : List (String × Json)) : Prop where
  once : Json.lookupLast "function" members = none ∨ Json.lookupLast "call" members = none
  function : ∀ key ∈ ["function", "call"], ∀ j, Json.lookupLast key members = some j →
    j.kind ∈ [.null, .string]
  args : ∀ j, Json.lookupLast "args" members = some j →
    j.kind ∈ [.null, .array, .object, .string]
  order : ∀ j, Json.lookupLast "order" members = some j → j.IsTexts

section Members

variable {members : List (String × Json)}

theorem exists_read_iff {key : String} {j : Json} :
    (∃ x, function?.read key j (fun x => .ok x) = .ok x) ↔ j.kind ∈ [.null, .string] := by
  rw [← Decoder.exists_optional_string_iff, function?.read]
  cases Decoder.optional Decoder.string j <;> simp

theorem exists_function?_iff :
    (∃ x, function? members = .ok x) ↔
      (Json.lookupLast "function" members = none ∨ Json.lookupLast "call" members = none) ∧
        ∀ key ∈ ["function", "call"], ∀ j, Json.lookupLast key members = some j →
          j.kind ∈ [.null, .string] := by
  simp only [List.forall_mem_cons, List.not_mem_nil, false_implies, implies_true, and_true]
  rw [function?]
  cases hcall : Json.lookupLast "call" members with
  | none =>
    cases hfunction : Json.lookupLast "function" members with
    | none => simp
    | some j => simp [exists_read_iff]
  | some i =>
    cases hfunction : Json.lookupLast "function" members with
    | none => simp [exists_read_iff]
    | some j =>
      simp only [function?.read]
      cases Decoder.optional Decoder.string i <;> simp

theorem ofMembers_eq_ok {function : Option String} {args : Option ArgumentSource}
    {order : List String} (hfunction : function? members = .ok function)
    (hargs : (Shape.optional "args" ArgumentSource.decode).Reads members args)
    (horder : (Shape.withDefault "order" [] (Decoder.list Decoder.string)).Reads members order) :
    ofMembers members = .ok ⟨function, args, order⟩ := by
  rw [ofMembers, hfunction, hargs, horder]
  rfl

theorem exists_ofMembers_iff : (∃ a, ofMembers members = .ok a) ↔ Fits members := by
  constructor
  · rintro ⟨a, ha⟩
    obtain ⟨_, order, htoArgs, horder, -⟩ := Outcome.exists_of_apply ha
    obtain ⟨_, args, htoFunction, hargs, -⟩ := Outcome.exists_of_apply htoArgs
    obtain ⟨_, function, -, hfunction, -⟩ := Outcome.exists_of_apply htoFunction
    obtain ⟨honce, hoptional⟩ := exists_function?_iff.1 ⟨_, hfunction⟩
    refine ⟨honce, hoptional, fun j hj => ?_, fun j hj => ?_⟩
    · exact ArgumentSource.exists_optional_decode_iff.1 (exists_reads_withDefault_iff.1 ⟨_, hargs⟩ j hj)
    · exact Decoder.exists_list_string_iff.1 (exists_reads_withDefault_iff.1 ⟨_, horder⟩ j hj)
  · rintro ⟨honce, hoptional, hargs, horder⟩
    obtain ⟨function, hfunction⟩ := exists_function?_iff.2 ⟨honce, hoptional⟩
    have hreadArgs : ∃ x, (Shape.optional "args" ArgumentSource.decode).Reads members x :=
      exists_reads_withDefault_iff.2 fun j hj =>
        ArgumentSource.exists_optional_decode_iff.2 (hargs j hj)
    have hreadOrder :
        ∃ x, (withDefault "order" [] (Decoder.list Decoder.string)).Reads members x :=
      exists_reads_withDefault_iff.2 fun j hj => Decoder.exists_list_string_iff.2 (horder j hj)
    obtain ⟨args, hargs⟩ := hreadArgs
    obtain ⟨order, horder⟩ := hreadOrder
    exact ⟨_, ofMembers_eq_ok hfunction hargs horder⟩

end Members

/-- That the members are written again as values changes nothing. -/
theorem fits_normal_iff {members normals : List (String × Json)}
    (h : ∀ key, Json.lookupLast key normals = (Json.lookupLast key members).map Json.normal) :
    Fits normals ↔ Fits members := by
  have hmember {key : String} {P : Json → Prop} (hP : ∀ j : Json, P j.normal ↔ P j) :
      (∀ j, Json.lookupLast key normals = some j → P j) ↔
        ∀ j, Json.lookupLast key members = some j → P j := by
    rw [h]
    cases Json.lookupLast key members <;> simp [hP]
  have hkinds (kinds : List Json.Kind) (j : Json) : j.normal.kind ∈ kinds ↔ j.kind ∈ kinds := by
    rw [Json.kind_normal]
  have hnone (key : String) :
      Json.lookupLast key normals = none ↔ Json.lookupLast key members = none := by
    rw [h, Option.map_eq_none_iff]
  constructor
  · rintro ⟨honce, hfunction, hargs, horder⟩
    rw [hnone, hnone] at honce
    exact ⟨honce, fun key hkey => (hmember (hkinds _)).1 (hfunction key hkey),
      (hmember (hkinds _)).1 hargs, (hmember fun _ => Json.isTexts_normal).1 horder⟩
  · rintro ⟨honce, hfunction, hargs, horder⟩
    rw [← hnone, ← hnone] at honce
    exact ⟨honce, fun key hkey => (hmember (hkinds _)).2 (hfunction key hkey),
      (hmember (hkinds _)).2 hargs, (hmember fun _ => Json.isTexts_normal).2 horder⟩

end StructuredAction

/-! ## Reading back -/

theorem ArgumentSource.decode_sorted_toJson {args : ArgumentSource} (h : args.Ordered) :
    Decoder.optional ArgumentSource.decode args.toJson.sorted = .ok (some args) := by
  cases args with
  | positional values =>
    have hback := Decoder.list_value_sorted_toJson h
    rw [toJson, Value.toJson, Json.sorted] at *
    simp only [Decoder.optional, decode, hback]
    rfl
  | named values =>
    have hback := Dict.Ordered.decode_sorted_toJson h
    rw [toJson, Dict.toJson, Json.sorted] at *
    simp only [Decoder.optional, decode, hback]
    rfl
  | text text => rfl

theorem StructuredAction.exists_sorted_toJson {a : StructuredAction}
    (h : ∀ args, a.args = some args → args.Ordered) :
    ∃ members, a.toJson.sorted = .object members ∧ ofMembers members = .ok a := by
  rw [toJson]
  refine Json.exists_sorted_record (by simp) fun members hfield => ?_
  have hcall : Json.lookupLast "call" members = none := by
    simp [hfield, findEntry]
  have hfunction : Json.lookupLast "function" members = a.function.map .string := by
    simp [hfield, findEntry, Json.sorted, Function.comp_def]
  have hargs : Json.lookupLast "args" members = a.args.map fun args => args.toJson.sorted := by
    simp [hfield, findEntry, Function.comp_def]
  have horder : Json.lookupLast "order" members = Json.unlessEmpty a.order := by
    simp [hfield, findEntry, Json.sorted_unlessEmpty]
  refine ofMembers_eq_ok ?_ (reads_optional hargs fun args hsome => ?_) (reads_strings horder)
  · rw [function?, hcall, hfunction]
    cases a.function <;> rfl
  · exact ArgumentSource.decode_sorted_toJson (h args hsome)

/-! ## What is read -/

namespace Action

/-- A text is read as a call, and an object that fits as a structured call. Everything else is kept
as the value that it is. -/
inductive ReadFrom : Json → Action → Prop where
  | call {text : String} : ReadFrom (.string text) (.call text)
  | structured {members : List (String × Json)} {a : StructuredAction} :
      StructuredAction.ofMembers members = .ok a → ReadFrom (.object members) (.structured a)
  | other {j : Json} : j.kind ≠ .string →
      (∀ members, j = .object members → ¬StructuredAction.Fits members) →
      ReadFrom j (.other (Value.ofJson j))

theorem exists_readFrom (j : Json) : ∃ a, ReadFrom j a := by
  cases j with
  | string text => exact ⟨_, .call⟩
  | object members =>
    by_cases hfits : StructuredAction.Fits members
    · obtain ⟨a, ha⟩ := StructuredAction.exists_ofMembers_iff.2 hfits
      exact ⟨_, .structured ha⟩
    · refine ⟨_, .other (by simp [Json.kind]) fun others h => ?_⟩
      rw [← Json.object.inj h]
      exact hfits
  | null | bool _ | int _ | float _ | array _ =>
    exact ⟨_, .other (by simp [Json.kind]) fun _ h => by cases h⟩

theorem decode_of_readFrom {j : Json} {a : Action} (h : ReadFrom j a) : decode j = .ok a := by
  cases h with
  | call => rfl
  | structured hmembers =>
    simp only [decode, StructuredAction.decode, hmembers]
    rfl
  | other hkind hfits =>
    have hvalue := Value.decode_eq_ok j
    cases j with
    | string text => exact absurd rfl hkind
    | object members =>
      cases hmembers : StructuredAction.ofMembers members with
      | ok a => exact absurd (StructuredAction.exists_ofMembers_iff.1 ⟨a, hmembers⟩) (hfits _ rfl)
      | refused _ _ | missing _ =>
        simp only [decode, StructuredAction.decode, hmembers, hvalue]
        rfl
    | null | bool _ | int _ | float _ | array _ =>
      simp only [decode, hvalue]
      rfl

theorem decode_eq_ok_iff {j : Json} {a : Action} : decode j = .ok a ↔ ReadFrom j a :=
  Decoder.eq_ok_iff_of_total exists_readFrom fun _ _ => decode_of_readFrom

section Read

variable {j : Json} {a : Action}

/-- What was read is written as a tree that it is read from, and of the same kind. -/
theorem ReadFrom.sorted_toJson (h : ReadFrom j a) :
    ReadFrom a.toJson.sorted a ∧ a.toJson.sorted.kind = j.kind := by
  cases h with
  | call => exact ⟨.call, rfl⟩
  | @structured members a hmembers =>
    have hordered := StructuredAction.yields_decode (.object members) a (by
      rw [StructuredAction.decode, hmembers]
      rfl)
    obtain ⟨written, hobject, hwritten⟩ := StructuredAction.exists_sorted_toJson hordered
    rw [toJson, hobject]
    exact ⟨.structured hwritten, rfl⟩
  | other hkind hfits =>
    have hnormal : (Action.other (Value.ofJson j)).toJson.sorted = j.normal := j.sorted_normal
    rw [hnormal, ← j.ofJson_normal]
    refine ⟨.other (by rwa [Json.kind_normal]) fun normals hnormals => ?_, Json.kind_normal j⟩
    obtain ⟨members, rfl⟩ := Json.kind_eq_object_iff.1 (by
      rw [← Json.kind_normal, hnormals, Json.kind])
    obtain ⟨others, hothers, hlookup⟩ := Json.exists_normal_object members
    obtain rfl := Json.object.inj (hothers.symm.trans hnormals)
    rw [StructuredAction.fits_normal_iff hlookup]
    exact hfits members rfl

/-- The kind of an action is the kind of the tree: texts are calls, objects that fit are structured
calls, and the value of everything else is kept. -/
structure Classifies (a : Action) (j : Json) : Prop where
  call : ∀ text, a = .call text ↔ j = .string text
  structured : (∃ s, a = .structured s) ↔
    ∃ members, j = .object members ∧ StructuredAction.Fits members
  other : (∃ v, a = .other v) ↔
    j.kind ≠ .string ∧ ∀ members, j = .object members → ¬StructuredAction.Fits members
  value : ∀ v, a = .other v → Value.decode j = .ok v

theorem ReadFrom.classifies (h : ReadFrom j a) : a.Classifies j := by
  cases h with
  | call => exact ⟨by simp, by simp, by simp [Json.kind], by simp⟩
  | @structured members s hmembers =>
    have hfits : StructuredAction.Fits members :=
      StructuredAction.exists_ofMembers_iff.1 ⟨s, hmembers⟩
    exact ⟨by simp, by simp [hfits], by simp [hfits], by simp⟩
  | other hkind hfits =>
    have hstring (text : String) : j ≠ .string text := fun h => hkind (by rw [h, Json.kind])
    refine ⟨by simp [hstring], ?_, ⟨fun _ => ⟨hkind, hfits⟩, fun _ => ⟨_, rfl⟩⟩, fun v hv => ?_⟩
    · simp only [reduceCtorEq, exists_false, false_iff]
      rintro ⟨members, hobject, hmembers⟩
      exact hfits members hobject hmembers
    · rw [Value.decode_eq_ok, Action.other.inj hv]

end Read
end Action
end CaseIntake
