/-!
# Maps from names

The entries of a map are sorted by name. Names are compared by code points, which is also the order
of their UTF-8 bytes.
-/

namespace Transect

structure NameMap (α : Type) where
  entries : List (String × α)
  sorted : (entries.map (·.1)).Pairwise (· < ·)

namespace NameMap

variable {α β : Type}

def empty : NameMap α := ⟨[], .nil⟩

/-- The sorted entries with one more, which replaces an entry of the same name. -/
def place (name : String) (a : α) : List (String × α) → List (String × α)
  | [] => [(name, a)]
  | (other, b) :: rest =>
    if name < other then (name, a) :: (other, b) :: rest
    else if name = other then (name, a) :: rest
    else (other, b) :: place name a rest

theorem mem_names_place {name x : String} {a : α} {entries : List (String × α)}
    (h : x ∈ (place name a entries).map (·.1)) : x = name ∨ x ∈ entries.map (·.1) := by
  induction entries with
  | nil => simpa [place] using h
  | cons entry rest ih =>
    obtain ⟨other, b⟩ := entry
    rw [place] at h
    split at h
    · simpa using h
    · split at h
      · simp only [List.map_cons, List.mem_cons] at h ⊢
        exact h.imp_right .inr
      · simp only [List.map_cons, List.mem_cons] at h ⊢
        rcases h with h | h
        · exact .inr (.inl h)
        · exact (ih h).imp_right .inr

theorem sorted_place {name : String} {a : α} {entries : List (String × α)}
    (h : (entries.map (·.1)).Pairwise (· < ·)) :
    ((place name a entries).map (·.1)).Pairwise (· < ·) := by
  induction entries with
  | nil => simp [place]
  | cons entry rest ih =>
    obtain ⟨other, b⟩ := entry
    simp only [List.map_cons, List.pairwise_cons] at h
    rw [place]
    split
    next lt =>
      simp only [List.map_cons, List.pairwise_cons, List.mem_cons]
      refine ⟨?_, h⟩
      rintro x (rfl | hx)
      · exact lt
      · exact String.lt_trans lt (h.1 x hx)
    next le =>
      split
      next eq =>
        subst eq
        simpa using h
      next ne =>
        simp only [List.map_cons, List.pairwise_cons]
        refine ⟨fun x hx => ?_, ih h.2⟩
        rcases mem_names_place hx with rfl | hx
        · exact Std.lt_of_le_of_ne (String.not_lt.1 le) (Ne.symm ne)
        · exact h.1 x hx

/-- Puts a value under a name, in place of the value that is there. -/
def insert (m : NameMap α) (name : String) (a : α) : NameMap α :=
  ⟨place name a m.entries, sorted_place m.sorted⟩

def find? (m : NameMap α) (name : String) : Option α := m.entries.lookup name

def names (m : NameMap α) : List String := m.entries.map (·.1)

def size (m : NameMap α) : Nat := m.entries.length

/-- The map of a list of entries. The last one of a name counts. -/
def ofList (entries : List (String × α)) : NameMap α :=
  entries.foldl (fun m (name, a) => m.insert name a) empty

end NameMap

end Transect
