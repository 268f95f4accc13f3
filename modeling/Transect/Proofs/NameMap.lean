import Mathlib.Tactic
import Transect.NameMap

/-!
# Names and their entries

Of several entries under one name the last one is found. The names stand in the order of their
UTF-8 bytes.
-/

namespace Transect

/-! ## The order of names -/

/-- The first byte that differs decides, and it decides as the characters do. -/
theorem utf8EncodeChar_lt {c d : Char} (h : c < d) (xs ys : List UInt8) :
    String.utf8EncodeChar c ++ xs < String.utf8EncodeChar d ++ ys := by
  have hlt : c.val.toNat < d.val.toNat := h
  have hd : d.val.toNat < 0x110000 := by
    have := d.valid
    unfold UInt32.isValidChar Nat.isValidChar at this
    omega
  unfold String.utf8EncodeChar
  simp only
  generalize c.val.toNat = v at *
  generalize d.val.toNat = w at *
  -- The bytes after the first are digits to the base of 64.
  have hv : v / 4096 / 64 = v / 262144 := Nat.div_div_eq_div_mul v 4096 64
  have hw : w / 4096 / 64 = w / 262144 := Nat.div_div_eq_div_mul w 4096 64
  have hv' : v / 64 / 64 = v / 4096 := Nat.div_div_eq_div_mul v 64 64
  have hw' : w / 64 / 64 = w / 4096 := Nat.div_div_eq_div_mul w 64 64
  have hbyte (n : ℕ) : (n % 64 + 128) % 256 = n % 64 + 128 := by omega
  have hfirst (n : ℕ) (h : n < 0x110000) : (n / 262144 % 8 + 240) % 256 = n / 262144 + 240 := by
    omega
  split_ifs <;>
    simp only [List.cons_append, List.nil_append, List.cons_lt_cons_iff, UInt8.lt_iff_toNat_lt,
      ← UInt8.toNat_inj, UInt8.toNat_ofNat', Nat.reducePow, hbyte, hfirst v (hlt.trans hd),
      hfirst w hd] <;> omega

theorem append_lt_append_left {xs ys : List UInt8} (h : xs < ys) (front : List UInt8) :
    front ++ xs < front ++ ys := by
  induction front with
  | nil => exact h
  | cons b front ih => exact List.cons_lt_cons_iff.2 (.inr ⟨rfl, ih⟩)

theorem flatMap_utf8EncodeChar_lt {cs ds : List Char} (h : cs < ds) :
    cs.flatMap String.utf8EncodeChar < ds.flatMap String.utf8EncodeChar := by
  induction h with
  | nil =>
    rename_i d ds
    rw [List.flatMap_nil, List.flatMap_cons]
    obtain ⟨b, bytes, hb⟩ := List.exists_cons_of_ne_nil (String.utf8EncodeChar_ne_nil (c := d))
    rw [hb]
    exact List.nil_lt_cons b _
  | rel h => exact utf8EncodeChar_lt h _ _
  | cons _ ih => exact append_lt_append_left ih _

def utf8Bytes (s : String) : List UInt8 := s.toUTF8.data.toList

theorem utf8Bytes_eq (s : String) : utf8Bytes s = s.toList.flatMap String.utf8EncodeChar := by
  have h : s.toUTF8 = s.toList.utf8Encode := String.utf8Encode_toList.symm
  rw [utf8Bytes, h, List.utf8Encode, List.toList_data_toByteArray]

theorem utf8Bytes_lt {s t : String} (h : s < t) : utf8Bytes s < utf8Bytes t := by
  rw [utf8Bytes_eq, utf8Bytes_eq]
  exact flatMap_utf8EncodeChar_lt h

theorem lookup_map_snd {α β γ : Type} [BEq α] (f : β → γ) (entries : List (α × β)) (key : α) :
    (entries.map fun entry => (entry.1, f entry.2)).lookup key = (entries.lookup key).map f := by
  induction entries with
  | nil => rfl
  | cons entry entries ih =>
    obtain ⟨name, value⟩ := entry
    rw [List.map_cons, List.lookup_cons, List.lookup_cons, ih]
    cases key == name <;> rfl

namespace NameMap

variable {α : Type} {m : NameMap α} {name x : String} {a : α} {entries : List (String × α)}

/-- **Names are in the order of their bytes.** -/
theorem names_pairwise_bytes (m : NameMap α) :
    m.names.Pairwise fun s t => utf8Bytes s < utf8Bytes t :=
  m.sorted.imp utf8Bytes_lt

/-! ## Entries -/

theorem lookup_cons_eq (name x : String) (a : α) (rest : List (String × α)) :
    ((name, a) :: rest).lookup x = if x = name then some a else rest.lookup x := by
  rw [List.lookup_cons]
  split_ifs with h
  · simp [h]
  · rw [beq_eq_false_iff_ne.2 h]

theorem lookup_place (name x : String) (a : α) (entries : List (String × α)) :
    (place name a entries).lookup x = if x = name then some a else entries.lookup x := by
  induction entries with
  | nil => simp [place, lookup_cons_eq]
  | cons entry rest ih =>
    obtain ⟨other, b⟩ := entry
    rw [place]
    split_ifs with hlt heq <;> simp only [lookup_cons_eq, ih] <;> grind

theorem find?_insert (m : NameMap α) (name x : String) (a : α) :
    (m.insert name a).find? x = if x = name then some a else m.find? x :=
  lookup_place name x a m.entries

theorem find?_foldl_insert (m : NameMap α) (entries : List (String × α)) (x : String) :
    (entries.foldl (fun m (name, a) => m.insert name a) m).find? x =
      (entries.reverse.lookup x).or (m.find? x) := by
  induction entries generalizing m with
  | nil => rfl
  | cons entry rest ih =>
    obtain ⟨name, a⟩ := entry
    rw [List.foldl_cons, ih, find?_insert, List.reverse_cons, List.lookup_append, lookup_cons_eq]
    split_ifs <;> simp

/-- Of several entries under one name the last one counts. -/
theorem find?_ofList (entries : List (String × α)) (x : String) :
    (ofList entries).find? x = entries.reverse.lookup x := by
  rw [ofList, find?_foldl_insert]
  exact Option.or_none

theorem lookup_isSome_iff : (entries.lookup x).isSome ↔ x ∈ entries.map (·.1) := by
  induction entries with
  | nil => simp
  | cons entry rest ih =>
    obtain ⟨name, a⟩ := entry
    rw [lookup_cons_eq]
    split_ifs with h <;> simp [h, ih]

theorem mem_names_iff : x ∈ m.names ↔ (m.find? x).isSome := lookup_isSome_iff.symm

theorem mem_names_ofList : x ∈ (ofList entries).names ↔ x ∈ entries.map (·.1) := by
  rw [mem_names_iff, find?_ofList, lookup_isSome_iff]
  simp

theorem lookup_of_mem (honce : (entries.map (·.1)).Nodup) (h : (name, a) ∈ entries) :
    entries.lookup name = some a := by
  induction entries with
  | nil => simp at h
  | cons entry rest ih =>
    obtain ⟨other, b⟩ := entry
    rw [List.map_cons, List.nodup_cons] at honce
    rw [lookup_cons_eq]
    rcases List.mem_cons.1 h with heq | hmem
    · cases heq
      simp
    · have hne : name ≠ other := by
        rintro rfl
        exact honce.1 (List.mem_map.2 ⟨_, hmem, rfl⟩)
      rw [if_neg hne, ih honce.2 hmem]

theorem find?_of_mem (h : (name, a) ∈ m.entries) : m.find? name = some a :=
  lookup_of_mem (m.sorted.imp Std.ne_of_lt) h

/-- Where every name is there once, its entry is found. -/
theorem find?_ofList_of_mem (honce : (entries.map (·.1)).Nodup) (h : (name, a) ∈ entries) :
    (ofList entries).find? name = some a := by
  rw [find?_ofList]
  apply lookup_of_mem
  · rw [List.map_reverse]
    exact List.nodup_reverse.2 honce
  · simpa using h

/-! ## Entries that are sorted already -/

theorem place_of_lt (h : ∀ x ∈ entries.map (·.1), x < name) :
    place name a entries = entries ++ [(name, a)] := by
  induction entries with
  | nil => rfl
  | cons entry rest ih =>
    obtain ⟨other, b⟩ := entry
    have hother : other < name := h other List.mem_cons_self
    rw [place, if_neg (String.lt_asymm hother), if_neg (Std.ne_of_lt hother).symm,
      ih fun x hx => h x (List.mem_cons_of_mem _ hx), List.cons_append]

theorem entries_foldl_insert (m : NameMap α)
    (h : ((m.entries ++ entries).map (·.1)).Pairwise (· < ·)) :
    (entries.foldl (fun m (name, a) => m.insert name a) m).entries = m.entries ++ entries := by
  induction entries generalizing m with
  | nil => simp
  | cons entry rest ih =>
    obtain ⟨name, a⟩ := entry
    have hplace : (m.insert name a).entries = m.entries ++ [(name, a)] := by
      apply place_of_lt
      intro x hx
      rw [List.map_append, List.pairwise_append] at h
      exact h.2.2 x hx name List.mem_cons_self
    have hsplit : m.entries ++ (name, a) :: rest = (m.insert name a).entries ++ rest := by
      rw [hplace, List.append_assoc, List.singleton_append]
    rw [hsplit] at h ⊢
    exact ih _ h

theorem entries_ofList (h : (entries.map (·.1)).Pairwise (· < ·)) :
    (ofList entries).entries = entries :=
  entries_foldl_insert empty h

theorem eq_of_entries {m m' : NameMap α} (h : m.entries = m'.entries) : m = m' := by
  obtain ⟨entries, sorted⟩ := m
  obtain ⟨entries', sorted'⟩ := m'
  cases h
  rfl

/-- **A map is the map of its entries.** -/
theorem ofList_entries (m : NameMap α) : ofList m.entries = m :=
  eq_of_entries (entries_ofList m.sorted)

/-! ## Entries in any order -/

theorem place_perm (h : name ∉ entries.map (·.1)) :
    (place name a entries).Perm ((name, a) :: entries) := by
  induction entries with
  | nil => exact .refl _
  | cons entry rest ih =>
    obtain ⟨other, b⟩ := entry
    simp only [List.map_cons, List.mem_cons, not_or] at h
    rw [place, if_neg h.1]
    split_ifs
    · exact .refl _
    · exact ((ih h.2).cons _).trans (.swap _ _ _)

theorem entries_foldl_perm (m : NameMap α) (h : ((entries ++ m.entries).map (·.1)).Nodup) :
    (entries.foldl (fun m (name, a) => m.insert name a) m).entries.Perm
      (entries ++ m.entries) := by
  induction entries generalizing m with
  | nil => exact .refl _
  | cons entry rest ih =>
    obtain ⟨name, a⟩ := entry
    rw [List.cons_append, List.map_cons, List.nodup_cons] at h
    have hnew : name ∉ m.entries.map (·.1) := fun hmem => h.1 (by simp [hmem])
    have hplace : (rest ++ (m.insert name a).entries).Perm ((name, a) :: (rest ++ m.entries)) :=
      ((place_perm hnew).append_left rest).trans List.perm_middle
    have hnodup : ((rest ++ (m.insert name a).entries).map (·.1)).Nodup := by
      refine (hplace.map _).nodup_iff.2 ?_
      rw [List.map_cons, List.nodup_cons]
      exact h
    exact (ih _ hnodup).trans hplace

/-- **The order in which entries are given does not matter** if every name is there once. -/
theorem ofList_of_perm (h : entries.Perm m.entries) : ofList entries = m := by
  have honce : (entries.map (·.1)).Nodup := (h.map _).nodup_iff.2 (m.sorted.imp Std.ne_of_lt)
  have hentries : (ofList entries).entries.Perm entries := by
    have hempty : entries ++ (empty : NameMap α).entries = entries := List.append_nil _
    have hfold := entries_foldl_perm empty (hempty.symm ▸ honce)
    rwa [hempty] at hfold
  have hsorted (m : NameMap α) : m.entries.Pairwise fun x y => x.1 < y.1 := by
    rw [← List.pairwise_map]
    exact m.sorted
  refine eq_of_entries (List.Perm.eq_of_pairwise ?_ (hsorted _) (hsorted m) (hentries.trans h))
  intro x y _ _ hxy hyx
  exact absurd hyx (String.lt_asymm hxy)

/-! ## Entries one by one -/

/-- The map with other values under the same names. -/
def map {β : Type} (f : α → β) (m : NameMap α) : NameMap β :=
  ⟨m.entries.map fun entry => (entry.1, f entry.2), by
    rw [List.map_map]
    exact m.sorted⟩

end NameMap

end Transect
