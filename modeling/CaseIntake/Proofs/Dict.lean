import CaseIntake.Dict

/-!
# CaseIntake.Proofs.Dict

Lookup laws of dictionaries.

* `Dict.find?_insert`: an entry is found under its own name, and no other lookup changes.
* `Dict.ext_find?`: a dictionary is its lookups, because its entries are ascending.
* `Dict.find?_ofList`: of several entries with one name the last is found.
* `perm_findEntry`: entries with different names are those found under some names, and the others.
-/

namespace CaseIntake

theorem findEntry_eq_none_of_lt {α : Type} {name : String} {entries : List (String × α)}
    (h : ∀ e ∈ entries, name < e.1) : findEntry name entries = none := by
  induction entries with
  | nil => rfl
  | cons e rest ih =>
    have hne : e.1 ≠ name := fun heq => String.lt_irrefl name (by simpa [heq] using h e)
    rw [findEntry, if_neg hne]
    exact ih fun x hx => h x (List.mem_cons_of_mem _ hx)

theorem findEntry_append {α : Type} (name : String) (xs ys : List (String × α)) :
    findEntry name (xs ++ ys) = (findEntry name xs).or (findEntry name ys) := by
  induction xs with
  | nil => rfl
  | cons e rest ih =>
    by_cases he : e.1 = name
    · simp [findEntry, he]
    · simp [findEntry, he, ih]

theorem findEntry_map {α β : Type} (f : α → β) (name : String) (entries : List (String × α)) :
    findEntry name (entries.map fun entry => (entry.1, f entry.2)) =
      (findEntry name entries).map f := by
  induction entries with
  | nil => rfl
  | cons e rest ih => by_cases he : e.1 = name <;> simp [findEntry, he, ih]

theorem findEntry_insertEntry {α : Type} (name other : String) (value : α)
    (entries : List (String × α)) :
    findEntry other (insertEntry name value entries) =
      if name = other then some value else findEntry other entries := by
  induction entries with
  | nil => simp [insertEntry, findEntry]
  | cons e rest ih =>
    rw [insertEntry]
    split
    · simp [findEntry]
    · split
      · rename_i heq
        by_cases hne : name = other
        · simp [findEntry, hne]
        · have hne' : e.1 ≠ other := fun h => hne (heq.trans h)
          simp [findEntry, hne, hne']
      · rename_i hne
        by_cases he : e.1 = other
        · have hne' : name ≠ other := fun h => hne (h.trans he.symm)
          simp [findEntry, he, hne']
        · simp [findEntry, he, ih]

theorem mem_of_findEntry {α : Type} {name : String} {value : α} {entries : List (String × α)}
    (h : findEntry name entries = some value) : (name, value) ∈ entries := by
  induction entries with
  | nil => simp [findEntry] at h
  | cons e rest ih =>
    by_cases he : e.1 = name
    · simp only [findEntry, if_pos he, Option.some.injEq] at h
      rw [← he, ← h]
      exact List.mem_cons_self
    · rw [findEntry, if_neg he] at h
      exact List.mem_cons_of_mem _ (ih h)

theorem exists_findEntry_of_mem {α : Type} {name : String} {value : α}
    {entries : List (String × α)} (h : (name, value) ∈ entries) :
    ∃ found, findEntry name entries = some found := by
  induction entries with
  | nil => cases h
  | cons e rest ih =>
    by_cases he : e.1 = name
    · exact ⟨e.2, by rw [findEntry, if_pos he]⟩
    · rw [findEntry, if_neg he]
      rcases List.mem_cons.1 h with heq | h
      · exact absurd (congrArg Prod.fst heq).symm he
      · exact ih h

/-- With each name once, a lookup is membership. -/
theorem findEntry_eq_some {α : Type} {name : String} {value : α} {entries : List (String × α)}
    (hnd : (entries.map Prod.fst).Nodup) :
    findEntry name entries = some value ↔ (name, value) ∈ entries := by
  refine ⟨mem_of_findEntry, fun hmem => ?_⟩
  induction entries with
  | nil => simp at hmem
  | cons e rest ih =>
    obtain ⟨hfresh, hrest⟩ := List.nodup_cons.1 hnd
    rcases List.mem_cons.1 hmem with heq | hmem
    · simp [findEntry, ← heq]
    · have hne : e.1 ≠ name := fun h => hfresh (h ▸ List.mem_map_of_mem hmem)
      rw [findEntry, if_neg hne]
      exact ih hrest hmem

/-- One more name takes its entries from the others. -/
theorem perm_filter_cons {α : Type} (entries : List (String × α)) {name : String}
    {names : List String} (hname : name ∉ names) :
    ((entries.filter fun entry => entry.1 = name) ++
        entries.filter fun entry => !(name :: names).contains entry.1).Perm
      (entries.filter fun entry => !names.contains entry.1) := by
  let others := entries.filter fun entry => !names.contains entry.1
  have hhere : others.filter (fun entry => entry.1 = name) =
      entries.filter fun entry => entry.1 = name := by
    rw [List.filter_filter]
    refine List.filter_congr fun entry _ => ?_
    by_cases he : entry.1 = name <;> simp [he, hname]
  have hbeyond : others.filter (fun entry => !decide (entry.1 = name)) =
      entries.filter fun entry => !(name :: names).contains entry.1 := by
    rw [List.filter_filter]
    refine List.filter_congr fun entry _ => ?_
    simp
  rw [← hhere, ← hbeyond]
  exact List.filter_append_perm _ others

section Distinct

variable {α : Type} {entries : List (String × α)} (hnd : (entries.map Prod.fst).Nodup)

include hnd

theorem filter_fst_eq (name : String) :
    entries.filter (fun entry => entry.1 = name) =
      ((findEntry name entries).map fun v => (name, v)).toList := by
  induction entries with
  | nil => rfl
  | cons e rest ih =>
    obtain ⟨hfresh, hrest⟩ := List.nodup_cons.1 hnd
    by_cases he : e.1 = name
    · subst he
      have hnone : rest.filter (fun entry => entry.1 = e.1) = [] := by
        rw [List.filter_eq_nil_iff]
        intro entry hentry
        have hne : entry.1 ≠ e.1 := fun h => hfresh (h ▸ List.mem_map_of_mem hentry)
        simpa using hne
      simp [findEntry, hnone]
    · simp [findEntry, he, ih hrest]

/-- With each name once, the entries are those found under some names, and the others. -/
theorem perm_findEntry {names : List String} (hnames : names.Nodup) :
    entries.Perm
      ((names.filterMap fun name => (findEntry name entries).map fun v => (name, v)) ++
        entries.filter fun entry => !names.contains entry.1) := by
  induction names with
  | nil =>
    have hall : (entries.filter fun entry => !([] : List String).contains entry.1) = entries :=
      List.filter_eq_self.2 fun _ _ => rfl
    rw [hall]
    exact .refl _
  | cons name names ih =>
    obtain ⟨hname, hnames⟩ := List.nodup_cons.1 hnames
    let here := entries.filter fun entry => entry.1 = name
    let found := names.filterMap fun name => (findEntry name entries).map fun v => (name, v)
    let others := entries.filter fun entry => !names.contains entry.1
    let beyond := entries.filter fun entry => !(name :: names).contains entry.1
    have hcons : ((name :: names).filterMap fun name =>
        (findEntry name entries).map fun v => (name, v)) = here ++ found := by
      have hfound : here = ((findEntry name entries).map fun v => (name, v)).toList :=
        filter_fst_eq hnd name
      rw [hfound, List.filterMap_cons]
      cases findEntry name entries <;> rfl
    have hothers : others.Perm (here ++ beyond) := (perm_filter_cons entries hname).symm
    rw [hcons, List.append_assoc]
    calc entries
      List.Perm _ (found ++ others) := ih hnames
      List.Perm _ (found ++ (here ++ beyond)) := hothers.append_left found
      List.Perm _ (here ++ (found ++ beyond)) := List.perm_append_comm_assoc _ _ _

end Distinct

theorem findEntry_reverse {α : Type} {entries : List (String × α)}
    (hnd : (entries.map Prod.fst).Nodup) (name : String) :
    findEntry name entries.reverse = findEntry name entries := by
  have hrev : (entries.reverse.map Prod.fst).Nodup := by
    rw [List.map_reverse]
    exact List.pairwise_reverse.2 (hnd.imp Ne.symm)
  refine Option.ext fun value => ?_
  rw [findEntry_eq_some hrev, findEntry_eq_some hnd, List.mem_reverse]

theorem findEntry_sortEntries {α : Type} (name : String) (entries : List (String × α)) :
    findEntry name (sortEntries entries) = findEntry name entries.reverse := by
  suffices h : ∀ sorted : List (String × α),
      findEntry name
        (entries.foldl (fun sorted entry => insertEntry entry.1 entry.2 sorted) sorted) =
      (findEntry name entries.reverse).or (findEntry name sorted) by
    rw [sortEntries, h]
    simp [findEntry]
  induction entries with
  | nil => intro sorted; simp [findEntry]
  | cons e rest ih =>
    intro sorted
    rw [List.foldl_cons, ih, findEntry_insertEntry, List.reverse_cons, findEntry_append]
    by_cases he : e.1 = name <;> simp [findEntry, he]

/-- Ascending entries are determined by their lookups. -/
theorem eq_of_findEntry_eq {α : Type} :
    ∀ {xs ys : List (String × α)}, Ascending xs → Ascending ys →
      (∀ name, findEntry name xs = findEntry name ys) → xs = ys
  | [], [], _, _, _ => rfl
  | [], y :: ys, _, _, h => by simpa [findEntry] using h y.1
  | x :: xs, [], _, _, h => by simpa [findEntry] using h x.1
  | (a, u) :: xs, (b, w) :: ys, hx, hy, h => by
    obtain ⟨hxl, hxs⟩ := List.pairwise_cons.1 hx
    obtain ⟨hyl, hys⟩ := List.pairwise_cons.1 hy
    have hab : ¬a < b := fun hlt => by
      have hnone : findEntry a ((b, w) :: ys) = none := findEntry_eq_none_of_lt fun e he => by
        rcases List.mem_cons.1 he with rfl | he
        · exact hlt
        · exact String.lt_trans hlt (hyl e he)
      simpa [findEntry] using (h a).trans hnone
    have hba : ¬b < a := fun hlt => by
      have hnone : findEntry b ((a, u) :: xs) = none := findEntry_eq_none_of_lt fun e he => by
        rcases List.mem_cons.1 he with rfl | he
        · exact hlt
        · exact String.lt_trans hlt (hxl e he)
      simpa [findEntry] using (h b).symm.trans hnone
    have heq : a = b := String.le_antisymm (String.not_lt.1 hba) (String.not_lt.1 hab)
    subst heq
    have huw : u = w := by simpa [findEntry] using h a
    subst huw
    congr 1
    refine eq_of_findEntry_eq hxs hys fun name => ?_
    by_cases hn : a = name
    · subst hn
      rw [findEntry_eq_none_of_lt hxl, findEntry_eq_none_of_lt hyl]
    · simpa [findEntry, hn] using h name

theorem nodup_of_ascending {α : Type} {entries : List (String × α)} (h : Ascending entries) :
    (entries.map Prod.fst).Nodup := by
  refine List.pairwise_map.2 (h.imp ?_)
  intro a b hab heq
  rw [heq] at hab
  exact String.lt_irrefl b.1 hab

/-- Entries that are ascending already stay as they are. -/
theorem sortEntries_of_ascending {α : Type} {entries : List (String × α)}
    (h : Ascending entries) : sortEntries entries = entries :=
  eq_of_findEntry_eq (ascending_sortEntries entries) h fun name => by
    rw [findEntry_sortEntries, findEntry_reverse (nodup_of_ascending h)]

theorem mem_sortEntries {α : Type} {entry : String × α} {entries : List (String × α)}
    (h : entry ∈ sortEntries entries) : entry ∈ entries := by
  have hnd := nodup_of_ascending (ascending_sortEntries entries)
  have hfind := (findEntry_eq_some hnd).2 h
  rw [findEntry_sortEntries] at hfind
  exact List.mem_reverse.1 (mem_of_findEntry hfind)

namespace Dict

variable {α : Type}

@[simp] theorem find?_empty (name : String) : (empty : Dict α).find? name = none := rfl

theorem find?_insert (d : Dict α) (name other : String) (value : α) :
    (d.insert name value).find? other = if name = other then some value else d.find? other :=
  findEntry_insertEntry name other value d.entries

theorem contains_insert (d : Dict α) (name other : String) (value : α) :
    (d.insert name value).contains other = (decide (name = other) || d.contains other) := by
  by_cases h : name = other <;> simp [contains, find?_insert, h]

theorem contains_iff {d : Dict α} {name : String} :
    d.contains name = true ↔ ∃ value, d.find? name = some value :=
  Option.isSome_iff_exists

theorem contains_eq_false {d : Dict α} {name : String} :
    d.contains name = false ↔ d.find? name = none := by
  simp [contains]

theorem mem_names {d : Dict α} {name : String} : name ∈ d.names ↔ d.contains name = true := by
  rw [names, List.mem_map, contains_iff]
  constructor
  · rintro ⟨⟨_, value⟩, hmem, rfl⟩
    exact exists_findEntry_of_mem hmem
  · rintro ⟨value, hfind⟩
    exact ⟨_, mem_of_findEntry hfind, rfl⟩

/-- Dictionaries with the same lookups are equal. -/
theorem ext_find? {d e : Dict α} (h : ∀ name, d.find? name = e.find? name) : d = e :=
  ext_entries (eq_of_findEntry_eq d.ascending e.ascending h)

theorem find?_ofList (entries : List (String × α)) (name : String) :
    (ofList entries).find? name = findEntry name entries.reverse :=
  findEntry_sortEntries name entries

theorem find?_ofList_of_nodup {entries : List (String × α)}
    (hnd : (entries.map Prod.fst).Nodup) (name : String) :
    (ofList entries).find? name = findEntry name entries := by
  rw [find?_ofList, findEntry_reverse hnd]

/-- With each name once, the order of the entries does not count. -/
theorem ofList_perm {xs ys : List (String × α)} (h : xs.Perm ys)
    (hnd : (ys.map Prod.fst).Nodup) : ofList xs = ofList ys := by
  have hnd' : (xs.map Prod.fst).Nodup := (h.map Prod.fst).nodup_iff.2 hnd
  refine ext_find? fun name => Option.ext fun value => ?_
  rw [find?_ofList_of_nodup hnd', find?_ofList_of_nodup hnd, findEntry_eq_some hnd',
    findEntry_eq_some hnd, h.mem_iff]

theorem contains_ofList {entries : List (String × α)} {name : String} :
    (ofList entries).contains name = true ↔ ∃ value, (name, value) ∈ entries := by
  rw [contains_iff]
  constructor
  · rintro ⟨value, h⟩
    rw [find?_ofList] at h
    exact ⟨value, List.mem_reverse.1 (mem_of_findEntry h)⟩
  · rintro ⟨value, h⟩
    rw [find?_ofList]
    exact exists_findEntry_of_mem (List.mem_reverse.2 h)

theorem find?_map {β : Type} (f : α → β) (d : Dict α) (name : String) :
    (d.map f).find? name = (d.find? name).map f :=
  findEntry_map f name d.entries

theorem ofList_map {β : Type} (f : α → β) (entries : List (String × α)) :
    (ofList entries).map f = ofList (entries.map fun entry => (entry.1, f entry.2)) := by
  refine ext_find? fun name => ?_
  rw [find?_map, find?_ofList, find?_ofList, ← List.map_reverse, findEntry_map]

end Dict
end CaseIntake
