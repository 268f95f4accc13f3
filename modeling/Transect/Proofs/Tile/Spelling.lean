import Transect.Proofs.Tile.Cache

/-!
# The spellings of a tile's name

A name has room for any number of digits, so no two squares have a name in common, in upper case, in
lower case or in one of each. In every directory the name of a square leads back to that square, or
is refused if it is longer than names may be.
-/

namespace Transect.Square

variable {s t : Square} {name name' directory : String}

/-! ## Names are different -/

/-- A number ends where the next letter stands. -/
theorem takeDigits_padZeros {c : Char} (hc : c.isDigit = false) (width n : Nat) (rest : List Char) :
    (takeDigits 0 0 (padZeros width (digitsOf n) ++ c :: rest)).1 = n ∧
      (takeDigits 0 0 (padZeros width (digitsOf n) ++ c :: rest)).2.2 = c :: rest := by
  rw [takeDigits_append fun _ => isDigit_of_mem_padZeros, ofDigitChars_padZeros]
  simp [takeDigits, digit?, hc]

theorem letter_inj {plus minus : Char} (hne : plus ≠ minus) {i j : Int}
    (h : (if i < 0 then minus else plus) = if j < 0 then minus else plus)
    (habs : i.natAbs = j.natAbs) : i = j := by
  split_ifs at h
  · omega
  · exact absurd h.symm hne
  · exact absurd h hne
  · omega

theorem stem_injective : Function.Injective stem := by
  intro s t h
  simp only [stem, List.cons_append, List.cons.injEq] at h
  obtain ⟨hnorth, hrest⟩ := h
  have hletter (i : Int) : (if i < 0 then 'W' else 'E').isDigit = false := by
    split <;> decide
  -- Both sides are read up to the second letter.
  have hs := takeDigits_padZeros (hletter s.lon.toInt) 2 s.lat.toInt.natAbs
  have ht := takeDigits_padZeros (hletter t.lon.toInt) 2 t.lat.toInt.natAbs
  have hread := congrArg (takeDigits 0 0) hrest
  have hlat := congrArg Prod.fst hread
  have hlon := congrArg (fun r => r.2.2) hread
  simp only [(hs _).1, (ht _).1] at hlat
  simp only [(hs _).2, (ht _).2, List.cons.injEq] at hlon
  obtain ⟨heast, hdigits⟩ := hlon
  have hdigits := congrArg (Nat.ofDigitChars 10 · 0) hdigits
  simp only [ofDigitChars_padZeros] at hdigits
  have hlat := letter_inj (by decide) hnorth hlat
  have hlon := letter_inj (by decide) heast hdigits
  obtain ⟨lon, lat⟩ := s
  obtain ⟨lon', lat'⟩ := t
  rw [Int16.toInt_inj] at hlat hlon
  simp only at hlat hlon
  rw [hlat, hlon]

/-- The names that the file of a tile may have. -/
def Spells (name : String) (s : Square) : Prop := name = s.fileName ∨ name = s.lowerName

theorem upper_of_spells (h : Spells name s) :
    name.toList.map Char.toUpper = s.stem ++ ['.', 'H', 'G', 'T'] := by
  rcases h with rfl | rfl
  · rw [fileName_eq, String.toList_ofList, List.map_append, map_toUpper_stem]
    rfl
  · rw [lowerName_eq, String.toList_ofList, List.map_append, map_toUpper_toLower_stem]
    rfl

/-- No name belongs to two squares. -/
theorem eq_of_spells (hs : Spells name s) (ht : Spells name t) : s = t := by
  have h := upper_of_spells hs
  rw [upper_of_spells ht] at h
  exact stem_injective (List.append_cancel_right h).symm

/-! ## Names in a directory -/

theorem Spells.plain (h : Spells name s) : Path.Plain name := by
  rcases h with rfl | rfl
  · exact plain_fileName s
  · exact plain_lowerName s

theorem Spells.ofPath? (h : Spells name s) (directory : String) :
    ofPath? (Path.join directory name) = if s.HasName then some s else none := by
  rcases h with rfl | rfl
  · exact ofPath?_join_fileName directory s
  · exact ofPath?_join_lowerName directory s

theorem join_injective (h : Path.Plain name) (h' : Path.Plain name')
    (heq : Path.join directory name = Path.join directory name') : name = name' := by
  have hname := Path.name?_join h directory
  rw [heq, Path.name?_join h' directory] at hname
  exact (Option.some.inj hname).symm

/-- A name that is too long is refused, whatever the file is. -/
theorem Spells.load_eq_error (h : Spells name s) (hlong : ¬ s.HasName) (tree : FileTree)
    (storage : Storage) :
    Tile.load tree storage (Path.join directory name) =
      .error (.name (Path.join directory name)) := by
  rw [Tile.load_eq, h.ofPath?, if_neg hlong]

theorem exists_spells_pathOf (tree : FileTree) (store : TileStore) (s : Square) :
    ∃ name, Spells name s ∧ store.pathOf tree s = Path.join store.directory name := by
  unfold TileStore.pathOf
  simp only
  split
  · exact ⟨_, .inl rfl, rfl⟩
  · exact ⟨_, .inr rfl, rfl⟩

/-- **Names are read back.** Two squares with the same name in one of the cases are the same. In any
directory the name of a square stands for that square if its degrees have at most two and three
digits, and else it is refused. So a store looks for different squares in different files, and a
tile that it loads is that of the square asked for. -/
theorem names_readBack (directory : String) (s : Square) :
    (∀ t, s.fileName = t.fileName ∨ s.lowerName = t.lowerName → s = t) ∧
    (∀ name, Spells name s →
      (s.HasName → ofPath? (Path.join directory name) = some s) ∧
      (¬ s.HasName → ofPath? (Path.join directory name) = none ∧
        ∀ tree storage, Tile.load tree storage (Path.join directory name) =
          .error (.name (Path.join directory name)))) ∧
    (∀ t tree tree' (store store' : TileStore), store.directory = store'.directory →
      store.pathOf tree s = store'.pathOf tree' t → s = t) ∧
    ∀ tree (store : TileStore) tile, store.load tree s = .ok tile → tile.square = s := by
  refine ⟨?_, ?_, ?_, fun tree store tile h => TileStore.load_square h⟩
  · rintro t (h | h)
    · exact eq_of_spells (.inl rfl) (.inl h)
    · exact eq_of_spells (.inr rfl) (.inr h)
  · intro name h
    refine ⟨fun hname => ?_, fun hlong => ⟨?_, fun tree storage => h.load_eq_error hlong tree storage⟩⟩
    · rw [h.ofPath?, if_pos hname]
    · rw [h.ofPath?, if_neg hlong]
  · intro t tree tree' store store' hdirectory hpath
    obtain ⟨name, hs, hjoin⟩ := exists_spells_pathOf tree store s
    obtain ⟨name', ht, hjoin'⟩ := exists_spells_pathOf tree' store' t
    rw [hjoin, hjoin', hdirectory] at hpath
    obtain rfl := join_injective hs.plain ht.plain hpath
    exact eq_of_spells hs ht

/-- The longest name, of the square in the corner of all of them. -/
example : fileName ⟨-32768, -32768⟩ = "S32768W32768.hgt" := by decide +kernel

end Transect.Square
