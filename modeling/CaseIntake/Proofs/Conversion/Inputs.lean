import CaseIntake.Conversion
import CaseIntake.Proofs.Dict

/-!
# CaseIntake.Proofs.Conversion.Inputs

The inputs of a canonical case.

* `declareAll_eq_ok`: variables with different names are all declared, and each keeps its value.
* `inputsOfTest_eq_ok`: with arguments that name variables besides, the case has its inputs.
* `exists_inputsOfTest_iff`: these are the only cases that have inputs.
-/

namespace CaseIntake

/-- A variable as an entry of the inputs. -/
def Variable.entry (v : Variable) : String × Value :=
  (v.name, v.value.getD .null)

/-- The map from the names of the variables to their values. -/
def Variable.table (given : List Variable) : Dict Value :=
  Dict.ofList (given.map Variable.entry)

theorem Variable.map_fst_entry (given : List Variable) :
    (given.map Variable.entry).map Prod.fst = given.map Variable.name := by
  simp [Variable.entry, Function.comp_def]

theorem Variable.find?_table {given : List Variable} {name : String} {value : Value}
    (hnd : (given.map Variable.name).Nodup) :
    (table given).find? name = some value ↔
      ∃ v ∈ given, v.name = name ∧ v.value.getD .null = value := by
  have hnd' : ((given.map Variable.entry).map Prod.fst).Nodup := by rwa [map_fst_entry]
  rw [table, Dict.find?_ofList_of_nodup hnd', findEntry_eq_some hnd']
  simp [Variable.entry]

theorem Variable.contains_table {given : List Variable} {name : String}
    (hnd : (given.map Variable.name).Nodup) :
    (table given).contains name = true ↔ ∃ v ∈ given, v.name = name := by
  rw [Dict.contains_iff]
  constructor
  · rintro ⟨value, h⟩
    obtain ⟨v, hmem, hname, _⟩ := (find?_table hnd).1 h
    exact ⟨v, hmem, hname⟩
  · rintro ⟨v, hmem, hname⟩
    exact ⟨_, (find?_table hnd).2 ⟨v, hmem, hname, rfl⟩⟩

namespace Conversion

theorem declareAll_eq_ok {given : List Variable} (hnd : (given.map Variable.name).Nodup) :
    declareAll given .empty = .ok (Variable.table given) := by
  suffices h : ∀ d : Dict Value, (∀ v ∈ given, d.contains v.name = false) →
      ∃ values, declareAll given d = .ok values ∧
        values.entries = (given.map Variable.entry).foldl
          (fun sorted entry => insertEntry entry.1 entry.2 sorted) d.entries by
    obtain ⟨values, hok, hentries⟩ := h .empty fun _ _ => rfl
    rw [hok]
    exact congrArg _ (Dict.ext_entries hentries)
  induction given with
  | nil => exact fun d _ => ⟨d, rfl, rfl⟩
  | cons v rest ih =>
    intro d hfresh
    obtain ⟨hv, hrest⟩ := List.nodup_cons.1 hnd
    have hfresh' : ∀ u ∈ rest, (d.insert v.name (v.value.getD .null)).contains u.name = false := by
      intro u hu
      have hne : v.name ≠ u.name := fun h => hv (h ▸ List.mem_map_of_mem hu)
      simp [Dict.contains_insert, hne, hfresh u (List.mem_cons_of_mem _ hu)]
    obtain ⟨values, hok, hentries⟩ := ih hrest _ hfresh'
    refine ⟨values, ?_, hentries⟩
    rw [declareAll, hfresh v List.mem_cons_self]
    exact hok

theorem inputsOfTest_eq_ok {c : TestCase} (hnd : (c.given.map Variable.name).Nodup)
    (hargs : ∀ arg ∈ c.action.args, ∃ v ∈ c.given, v.name = Reference.name arg) :
    inputsOfTest c = .ok ⟨Variable.table c.given, hints c.given, c.action.args⟩ := by
  have hnone : (c.action.args.find? fun arg =>
      !(Variable.table c.given).contains (Reference.name arg)) = none := by
    rw [List.find?_eq_none]
    intro arg harg
    simpa using (Variable.contains_table hnd).2 (hargs arg harg)
  rw [inputsOfTest, declareAll_eq_ok hnd]
  simp only [hnone]

/-- Variables that are all declared have different names, none of which was taken before. -/
theorem nodup_of_declareAll {given : List Variable} {d values : Dict Value}
    (h : declareAll given d = .ok values) :
    (given.map Variable.name).Nodup ∧ ∀ v ∈ given, d.contains v.name = false := by
  induction given generalizing d with
  | nil => exact ⟨List.nodup_nil, fun v hv => absurd hv List.not_mem_nil⟩
  | cons v rest ih =>
    rw [declareAll] at h
    split at h
    · cases h
    · rename_i hfresh
      obtain ⟨hrest, hlater⟩ := ih h
      have hother : ∀ u ∈ rest, v.name ≠ u.name ∧ d.contains u.name = false := by
        intro u hu
        simpa [Dict.contains_insert] using hlater u hu
      constructor
      · refine List.nodup_cons.2 ⟨fun hmem => ?_, hrest⟩
        obtain ⟨u, hu, hname⟩ := List.mem_map.1 hmem
        exact (hother u hu).1 hname.symm
      · exact List.forall_mem_cons.2 ⟨Bool.eq_false_iff.2 hfresh, fun u hu => (hother u hu).2⟩

theorem exists_inputsOfTest_iff {c : TestCase} :
    (∃ inputs, inputsOfTest c = .ok inputs) ↔
      (c.given.map Variable.name).Nodup ∧
        ∀ arg ∈ c.action.args, ∃ v ∈ c.given, v.name = Reference.name arg := by
  refine ⟨fun ⟨inputs, h⟩ => ?_, fun ⟨hnd, hargs⟩ => ⟨_, inputsOfTest_eq_ok hnd hargs⟩⟩
  rw [inputsOfTest] at h
  split at h
  · cases h
  · rename_i values hvalues
    split at h
    · cases h
    · rename_i hnone
      obtain ⟨hnd, -⟩ := nodup_of_declareAll hvalues
      obtain rfl := Except.ok.inj ((declareAll_eq_ok hnd).symm.trans hvalues)
      refine ⟨hnd, fun arg harg => (Variable.contains_table hnd).1 ?_⟩
      simpa using List.find?_eq_none.1 hnone arg harg

end Conversion
end CaseIntake
