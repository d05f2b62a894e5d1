/-!
# Dictionaries

A `Dict α` maps names to values. Its entries stand in ascending order of their names, each name
once, so two dictionaries with the same lookups are equal, and the order in which entries were
added never shows. The order of names is the order of their code points.
-/

namespace CaseIntake

/-- Entries in ascending order of names, each name once. -/
def Ascending {α : Type} (entries : List (String × α)) : Prop :=
  entries.Pairwise fun a b => a.1 < b.1

/-- Adds an entry at its place in ascending entries; an entry of the same name gives way. -/
def insertEntry {α : Type} (name : String) (value : α) :
    List (String × α) → List (String × α)
  | [] => [(name, value)]
  | (other, old) :: rest =>
    if name < other then (name, value) :: (other, old) :: rest
    else if name = other then (name, value) :: rest
    else (other, old) :: insertEntry name value rest

/-- Ascending entries from entries in any order; of several with one name the last counts. -/
def sortEntries {α : Type} (entries : List (String × α)) : List (String × α) :=
  entries.foldl (fun sorted entry => insertEntry entry.1 entry.2 sorted) []

def findEntry {α : Type} (name : String) : List (String × α) → Option α
  | [] => none
  | (other, value) :: rest => if other = name then some value else findEntry name rest

theorem mem_insertEntry {α : Type} {name : String} {value : α} {entry : String × α}
    {entries : List (String × α)} (h : entry ∈ insertEntry name value entries) :
    entry = (name, value) ∨ entry ∈ entries := by
  induction entries with
  | nil => simpa [insertEntry] using h
  | cons e rest ih =>
    rw [insertEntry] at h
    split at h
    · simpa using h
    · split at h
      · rcases List.mem_cons.1 h with h | h
        · exact Or.inl h
        · exact Or.inr (List.mem_cons_of_mem _ h)
      · rcases List.mem_cons.1 h with h | h
        · exact Or.inr (h ▸ List.mem_cons_self)
        · exact (ih h).imp_right (List.mem_cons_of_mem _)

theorem lt_of_not_lt_of_ne {a b : String} (h : ¬a < b) (hne : a ≠ b) : b < a := by
  rcases Classical.em (b < a) with hb | hb
  · exact hb
  · exact absurd (String.le_antisymm (String.not_lt.1 hb) (String.not_lt.1 h)) hne

theorem ascending_insertEntry {α : Type} (name : String) (value : α)
    {entries : List (String × α)} (h : Ascending entries) :
    Ascending (insertEntry name value entries) := by
  induction entries with
  | nil => simp [insertEntry, Ascending]
  | cons e rest ih =>
    have hr : Ascending rest := List.Pairwise.of_cons h
    have he : ∀ x ∈ rest, e.1 < x.1 := (List.pairwise_cons.1 h).1
    rw [insertEntry]
    split
    · rename_i hlt
      refine List.Pairwise.cons ?_ h
      intro x hx
      rcases List.mem_cons.1 hx with rfl | hx
      · exact hlt
      · exact String.lt_trans hlt (he x hx)
    · rename_i hnlt
      split
      · rename_i heq
        exact List.Pairwise.cons (fun x hx => heq ▸ he x hx) hr
      · rename_i hne
        refine List.Pairwise.cons ?_ (ih hr)
        intro x hx
        rcases mem_insertEntry hx with rfl | hx
        · exact lt_of_not_lt_of_ne hnlt hne
        · exact he x hx

theorem ascending_foldl_insertEntry {α : Type} (entries : List (String × α)) :
    ∀ {sorted : List (String × α)}, Ascending sorted →
      Ascending
        (entries.foldl (fun sorted entry => insertEntry entry.1 entry.2 sorted) sorted) := by
  induction entries with
  | nil => exact fun h => h
  | cons e rest ih => exact fun h => ih (ascending_insertEntry e.1 e.2 h)

theorem ascending_sortEntries {α : Type} (entries : List (String × α)) :
    Ascending (sortEntries entries) :=
  ascending_foldl_insertEntry entries List.Pairwise.nil

/-- A map from names to values with its entries in ascending order. -/
structure Dict (α : Type) where
  entries : List (String × α)
  ascending : Ascending entries

namespace Dict

variable {α : Type}

theorem ext_entries {d e : Dict α} (h : d.entries = e.entries) : d = e := by
  cases d; cases e; cases h; rfl

instance [DecidableEq α] : DecidableEq (Dict α) := fun d e =>
  if h : d.entries = e.entries then isTrue (ext_entries h)
  else isFalse fun heq => h (congrArg entries heq)

def empty : Dict α :=
  ⟨[], List.Pairwise.nil⟩

instance : Inhabited (Dict α) := ⟨empty⟩

def ofList (entries : List (String × α)) : Dict α :=
  ⟨sortEntries entries, ascending_sortEntries entries⟩

def insert (d : Dict α) (name : String) (value : α) : Dict α :=
  ⟨insertEntry name value d.entries, ascending_insertEntry name value d.ascending⟩

def find? (d : Dict α) (name : String) : Option α :=
  findEntry name d.entries

def contains (d : Dict α) (name : String) : Bool :=
  (d.find? name).isSome

def names (d : Dict α) : List String :=
  d.entries.map Prod.fst

def isEmpty (d : Dict α) : Bool :=
  d.entries.isEmpty

/-- Every value replaced by its image; the names stay. -/
def map {β : Type} (f : α → β) (d : Dict α) : Dict β where
  entries := d.entries.map fun entry => (entry.1, f entry.2)
  ascending := by
    unfold Ascending
    exact List.pairwise_map.2 d.ascending

end Dict

/-- A set of names, in ascending order. -/
abbrev NameSet := Dict Unit

namespace NameSet

def ofNames (names : List String) : NameSet :=
  Dict.ofList (names.map fun name => (name, ()))

end NameSet
end CaseIntake
