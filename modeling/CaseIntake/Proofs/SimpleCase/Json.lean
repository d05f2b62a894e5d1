import CaseIntake.Proofs.Action.Json

/-!
# CaseIntake.Proofs.SimpleCase.Json

What was decoded is decoded again from what is written for it: `SimpleCase.decode_stable`.

* `Payload.ReadFrom`: what each tree is read as (`Payload.decode_eq_ok_iff`), and that it is written
  as a tree of the same kind (`Payload.ReadFrom.sorted_toJson`).
* `SimpleCase.Decoded.decode_sorted_toJson`: no field of a decoded case is lost.
-/

namespace CaseIntake

open Shape

/-! ## Payloads -/

namespace Payload

/-- Texts, lists and maps are read as what they are, and everything else as a scalar. -/
inductive ReadFrom : Json → Payload → Prop where
  | text {text : String} : ReadFrom (.string text) (.text text)
  | list {items : List Json} : ReadFrom (.array items) (.list (Value.ofJsonItems items))
  | map {members : List (String × Json)} {entries : Dict Value} :
      Decoder.valueDict (.object members) = .ok entries → ReadFrom (.object members) (.map entries)
  | scalar {j : Json} : j.kind ∈ [.null, .boolean, .number] → ReadFrom j (.scalar (Value.ofJson j))

theorem exists_readFrom (j : Json) : ∃ p, ReadFrom j p := by
  cases j with
  | string text => exact ⟨_, .text⟩
  | array items => exact ⟨_, .list⟩
  | object members =>
    obtain ⟨entries, hentries⟩ := Decoder.exists_valueDict_object members
    exact ⟨_, .map hentries⟩
  | null | bool _ | int _ | float _ => exact ⟨_, .scalar (by simp [Json.kind])⟩

theorem decode_of_readFrom {j : Json} {p : Payload} (h : ReadFrom j p) : decode j = .ok p := by
  cases h with
  | text => rfl
  | list =>
    simp only [decode, Decoder.list_value_array]
    rfl
  | map hentries =>
    simp only [decode, hentries]
    rfl
  | scalar hkind =>
    have hvalue := Value.decode_eq_ok j
    cases j with
    | string _ | array _ | object _ => simp [Json.kind] at hkind
    | null | bool _ | int _ | float _ =>
      simp only [decode, hvalue]
      rfl

theorem decode_eq_ok_iff {j : Json} {p : Payload} : decode j = .ok p ↔ ReadFrom j p :=
  Decoder.eq_ok_iff_of_total exists_readFrom fun _ _ => decode_of_readFrom

/-- What was read is written as a tree that it is read from, and of the same kind. -/
theorem ReadFrom.sorted_toJson {j : Json} {p : Payload} (h : ReadFrom j p) :
    ReadFrom p.toJson.sorted p ∧ p.toJson.sorted.kind = j.kind := by
  cases h with
  | text => exact ⟨.text, rfl⟩
  | @list items =>
    have hordered := Value.ordered_ofJson (.array items)
    have hback := Value.ofJsonItems_toJsonItems _ hordered
    have hsorted : (Payload.list (Value.ofJsonItems items)).toJson.sorted =
        .array (Value.toJsonItems (Value.ofJsonItems items)) := Value.sorted_toJson _ hordered
    rw [hsorted]
    refine ⟨?_, rfl⟩
    nth_rewrite 2 [← hback]
    exact .list
  | @map members entries hentries =>
    have hordered := Dict.yields_valueDict _ _ hentries
    have hback := hordered.decode_sorted_toJson
    rw [toJson]
    rw [Dict.toJson, Json.sorted] at hback ⊢
    exact ⟨.map hback, rfl⟩
  | scalar hkind =>
    have hnormal : (Payload.scalar (Value.ofJson j)).toJson.sorted = j.normal := j.sorted_normal
    rw [hnormal, ← j.ofJson_normal]
    exact ⟨.scalar (by rwa [Json.kind_normal]), Json.kind_normal j⟩

end Payload

/-! ## Cases -/

theorem Json.ne_null_of_kind_eq {written j : Json} (hkind : written.kind = j.kind) (hj : j ≠ .null) :
    written ≠ .null := by
  rwa [ne_eq, ← kind_eq_null_iff, hkind, kind_eq_null_iff]

theorem SimpleCase.Decoded.decode_sorted_toJson {c : SimpleCase} (h : c.Decoded) :
    SimpleCase.decode c.toJson.sorted = .ok c := by
  rw [toJson, SimpleCase.decode]
  refine Shape.decoder_sorted_record (by simp) fun members hfield => ?_
  have hname : Json.lookupLast "name" members = some (.string c.name) := by
    simp [hfield, findEntry, Json.sorted]
  have hdescription : Json.lookupLast "description" members = c.description.map .string := by
    simp [hfield, findEntry, Json.sorted, Function.comp_def]
  have hsetup : Json.lookupLast "setup" members = some c.setup.toJson.sorted := by
    simp [hfield, findEntry]
  have haction : Json.lookupLast "action" members = c.action.map fun a => a.toJson.sorted := by
    simp [hfield, findEntry, Function.comp_def]
  have htags : Json.lookupLast "tags" members = some (Json.strings c.tags) := by
    simp [hfield, findEntry, Json.sorted_strings]
  have hreadSetup : Decoder.orDefault .empty Decoder.valueDict c.setup.toJson.sorted =
      .ok c.setup :=
    Decoder.orDefault_eq_ok h.setup.decode_sorted_toJson (by simp [Dict.toJson, Json.sorted])
  have hreadAction : (Shape.optional "action" Action.decode).Reads members c.action := by
    refine reads_optional haction fun a ha => ?_
    obtain ⟨j, hj, hdecode⟩ := h.action a ha
    obtain ⟨hread, hkind⟩ := (Action.decode_eq_ok_iff.1 hdecode).sorted_toJson
    exact Decoder.optional_eq_ok (Action.decode_of_readFrom hread) (Json.ne_null_of_kind_eq hkind hj)
  have hreadTags : Decoder.orDefault [] (Decoder.list Decoder.string) (Json.strings c.tags) =
      .ok c.tags :=
    Decoder.orDefault_eq_ok (Decoder.list_strings c.tags) (by simp [Json.strings])
  have hpayload {key : String} {field : Option Payload} (hmem : field ∈ c.payloads)
      (hlookup : Json.lookupLast key members = field.map fun p => p.toJson.sorted) :
      (Shape.optional key Payload.decode).Reads members field := by
    refine reads_optional hlookup fun p hp => ?_
    obtain ⟨j, hj, hdecode⟩ := h.payload field hmem p hp
    obtain ⟨hread, hkind⟩ := (Payload.decode_eq_ok_iff.1 hdecode).sorted_toJson
    exact Decoder.optional_eq_ok (Payload.decode_of_readFrom hread)
      (Json.ne_null_of_kind_eq hkind hj)
  exact (((((((((Shape.Reads.map SimpleCase.mk (reads_withDefault hname rfl)).seq
    (reads_optional_string hdescription)).seq
    (reads_withDefault hsetup hreadSetup)).seq
    hreadAction).seq
    (hpayload (by simp [payloads]) (by simp [hfield, findEntry, Function.comp_def]))).seq
    (hpayload (by simp [payloads]) (by simp [hfield, findEntry, Function.comp_def]))).seq
    (hpayload (by simp [payloads]) (by simp [hfield, findEntry, Function.comp_def]))).seq
    (hpayload (by simp [payloads]) (by simp [hfield, findEntry, Function.comp_def]))).seq
    (hpayload (by simp [payloads]) (by simp [hfield, findEntry, Function.comp_def]))).seq
    (reads_withDefault htags hreadTags)

/-- Whatever is decoded as a simplified case is written as a tree that is decoded as the same case.
Every tree is read as an action, of a kind that the tree tells (`Action.Classifies`); lists are kept
as values. Actions and payloads too are read again as they were read, so that none changes its
kind. -/
theorem SimpleCase.decode_stable :
    (∀ j c, SimpleCase.decode j = .ok c → SimpleCase.decode c.toJson.sorted = .ok c) ∧
    (∀ j, ∃ a, Action.decode j = .ok a ∧ a.Classifies j) ∧
    (∀ items, Action.decode (.array items) = .ok (.other (Value.ofJson (.array items)))) ∧
    (∀ j a, Action.decode j = .ok a → Action.decode a.toJson.sorted = .ok a) ∧
    ∀ j p, Payload.decode j = .ok p → Payload.decode p.toJson.sorted = .ok p := by
  refine ⟨fun j c h => ?_, fun j => ?_, fun items => ?_, fun j a h => ?_, fun j p h => ?_⟩
  · exact (SimpleCase.decoded_of_decode h).decode_sorted_toJson
  · obtain ⟨a, ha⟩ := Action.exists_readFrom j
    exact ⟨a, Action.decode_of_readFrom ha, ha.classifies⟩
  · exact Action.decode_of_readFrom (.other (by simp [Json.kind]) fun _ h => by cases h)
  · exact Action.decode_of_readFrom (Action.decode_eq_ok_iff.1 h).sorted_toJson.1
  · exact Payload.decode_of_readFrom (Payload.decode_eq_ok_iff.1 h).sorted_toJson.1

/-- A function under its other key, keys that mean nothing, a whole number beyond 64 bits, and fields
that are `null`. The second action is kept as a value, since its order is `null`. -/
theorem SimpleCase.decode_stable_aliases :
    let args : Json := .object [("b", .int 18446744073709551616), ("a", .null)]
    let action : Json := .object [("call", .string "F"), ("args", args), ("x", .bool true)]
    let j : Json := .object [("setup", .null), ("action", action), ("expect", .array [.null]),
      ("assert", .null), ("extra", .string "x")]
    let c : SimpleCase := ⟨"", none, .empty,
      some (.structured ⟨some "F", some (.named (.ofList [("a", .null),
        ("b", .float (Binary64.ofInt 18446744073709551616))])), []⟩),
      none, none, none, none, some (.list [.null]), []⟩
    let other : Json := .object [("function", .string "F"), ("order", .null)]
    SimpleCase.decode j = .ok c ∧ SimpleCase.decode c.toJson.sorted = .ok c ∧
      Action.decode other = .ok (.other (Value.ofJson other)) ∧
      Action.decode (Value.ofJson other).toJson.sorted = .ok (.other (Value.ofJson other)) := by
  intro args action j c other
  have hcase : SimpleCase.decode j = .ok c := by decide +kernel
  have hother : Action.decode other = .ok (.other (Value.ofJson other)) := by decide +kernel
  obtain ⟨hstable, -, -, haction, -⟩ := SimpleCase.decode_stable
  exact ⟨hcase, hstable j c hcase, hother, haction other _ hother⟩

end CaseIntake
