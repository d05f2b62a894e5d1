import CaseIntake.Proofs.Suite.Json

/-!
# CaseIntake.Proofs.Suite.Decoded

What is known of canonical cases that come out of a document: their values have ascending keys, no
variable has the value `null` and no check expects it, since there a `null` is read as no value. So
these cases lose nothing when they are written and read again (`TestCase.Decoded.withoutNulls_eq`).
-/

namespace CaseIntake

open Shape

structure TestCase.Decoded (c : TestCase) : Prop where
  ordered : c.Ordered
  given : ∀ v ∈ c.given, v.value ≠ some .null
  present : ∀ k ∈ c.checks, k.expected ≠ some .null

theorem Variable.yields_decode :
    Decoder.Yields Variable.decode fun v => ∀ x, v.value = some x → x.Ordered ∧ x ≠ .null := by
  intro j v h
  obtain ⟨_, hint, htoValue, -, rfl⟩ := exists_of_makes_seq (makes_of_decoder h)
  obtain ⟨_, value, htoName, hvalue, rfl⟩ := exists_of_makes_seq htoValue
  obtain ⟨name, -, rfl⟩ := exists_of_makes_map htoName
  exact of_makes_optional hvalue fun j x hj hx => Value.ordered_of_decode hj hx

theorem Check.yields_decode :
    Decoder.Yields Check.decode fun k => ∀ x, k.expected = some x → x.Ordered ∧ x ≠ .null := by
  intro j k h
  obtain ⟨_, message, htoExpected, -, rfl⟩ := exists_of_makes_seq (makes_of_decoder h)
  obtain ⟨_, expected, htoActual, hexpected, rfl⟩ := exists_of_makes_seq htoExpected
  obtain ⟨_, actual, htoType, -, rfl⟩ := exists_of_makes_seq htoActual
  obtain ⟨type, -, rfl⟩ := exists_of_makes_map htoType
  exact of_makes_optional hexpected fun j x hj hx => Value.ordered_of_decode hj hx

theorem TestCase.yields_decode : Decoder.Yields TestCase.decode TestCase.Decoded := by
  intro j c h
  -- The fields are taken off from the last one on; what is left is named for its last field.
  obtain ⟨_, tags, htoChecks, -, rfl⟩ := exists_of_makes_seq (makes_of_decoder h)
  obtain ⟨_, checks, htoAction, hchecks, rfl⟩ := exists_of_makes_seq htoChecks
  obtain ⟨_, action, htoGiven, -, rfl⟩ := exists_of_makes_seq htoAction
  obtain ⟨_, given, htoDescription, hgiven, rfl⟩ := exists_of_makes_seq htoGiven
  obtain ⟨_, description, htoName, -, rfl⟩ := exists_of_makes_seq htoDescription
  obtain ⟨name, -, rfl⟩ := exists_of_makes_map htoName
  have hvariables : ∀ v ∈ given, ∀ x, v.value = some x → x.Ordered ∧ x ≠ .null :=
    of_makes_withDefault hgiven (Decoder.yields_list Variable.yields_decode) (by simp)
  have hexpected : ∀ k ∈ checks, ∀ x, k.expected = some x → x.Ordered ∧ x ≠ .null :=
    of_makes_withDefault hchecks (Decoder.yields_list Check.yields_decode) (by simp)
  refine ⟨⟨fun v hv x hx => (hvariables v hv x hx).1, fun k hk x hx => (hexpected k hk x hx).1⟩,
    fun v hv hnull => ?_, fun k hk hnull => ?_⟩
  · exact (hvariables v hv .null hnull).2 rfl
  · exact (hexpected k hk .null hnull).2 rfl

theorem Suite.yields_decode : Decoder.Yields Suite.decode fun s => ∀ c ∈ s.tests, c.Decoded := by
  intro j s h
  obtain ⟨_, tests, htoDescription, htests, rfl⟩ := exists_of_makes_seq (makes_of_decoder h)
  obtain ⟨_, description, htoName, -, rfl⟩ := exists_of_makes_seq htoDescription
  obtain ⟨name, -, rfl⟩ := exists_of_makes_map htoName
  exact of_makes_withDefault htests (Decoder.yields_list TestCase.yields_decode) (by simp)

/-! ## What is lost -/

theorem Variable.withoutNull_of_ne {v : Variable} (h : v.value ≠ some .null) :
    v.withoutNull = v := by
  rw [withoutNull, Value.filter_isNull_eq_self_iff.2 h]

theorem Check.withoutNull_of_ne {k : Check} (h : k.expected ≠ some .null) : k.withoutNull = k := by
  rw [withoutNull, Value.filter_isNull_eq_self_iff.2 h]

theorem TestCase.Decoded.withoutNulls_eq {c : TestCase} (h : c.Decoded) : c.withoutNulls = c := by
  have hgiven : c.given.map Variable.withoutNull = c.given :=
    map_eq_self_iff.2 fun v hv => Variable.withoutNull_of_ne (h.given v hv)
  have hchecks : c.checks.map Check.withoutNull = c.checks :=
    map_eq_self_iff.2 fun k hk => Check.withoutNull_of_ne (h.present k hk)
  rw [withoutNulls, hgiven, hchecks]

theorem Suite.decode_of_decoded {s : Suite} (h : ∀ c ∈ s.tests, c.Decoded) :
    Suite.decode s.toJson.sorted = .ok s := by
  have htests : s.tests.map TestCase.withoutNulls = s.tests :=
    map_eq_self_iff.2 fun c hc => (h c hc).withoutNulls_eq
  rw [Suite.decode_sorted_toJson fun c hc => (h c hc).ordered, withoutNulls, htests]

end CaseIntake
