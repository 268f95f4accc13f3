import Transect.FileTree
import Transect.Proofs.Path

/-!
# Finding a file in a directory

A path that joins a plain name to a directory leads to the entry of that name, if there is one.
`find_join` says what comes of it in every case.
-/

namespace Transect.FileTree

variable {tree : FileTree} {here there : Location} {directory name : String}

theorem walk_append (here : Location) (ps qs : List String) :
    tree.walk here (ps ++ qs) = (tree.walk here ps).bind fun there => tree.walk there qs := by
  induction ps generalizing here with
  | nil => rfl
  | cons p ps ih =>
    rw [List.cons_append, walk, walk]
    split
    · split
      · rfl
      · split
        · rfl
        · exact ih _
    · rfl
    · rfl

/-- A walk that leads somewhere and on over an empty piece leads there without the piece. -/
theorem walk_of_append_empty {ps : List String} (h : tree.walk here (ps ++ [""]) = .ok there) :
    tree.walk here ps = .ok there := by
  rw [walk_append] at h
  cases hw : tree.walk here ps with
  | error cause =>
    rw [hw] at h
    cases h
  | ok loc =>
    rw [hw] at h
    change tree.walk loc [""] = .ok there at h
    have hf : follow loc "" = loc := by simp [follow]
    rw [walk, hf] at h
    split at h
    · split at h
      · cases h
      · split at h
        · cases h
        · exact h
    · cases h
    · cases h

theorem locate_eq_ok (h : tree.locate directory = .ok here) :
    '\x00' ∉ directory.toList ∧ directory ≠ "" ∧
      tree.walk (start directory) (Path.pieces directory) = .ok here := by
  unfold locate at h
  split at h
  · cases h
  · rename_i hz
    split at h
    · cases h
    · rename_i he
      split at h
      · cases h
      · exact ⟨by simpa using hz, he, h⟩

theorem start_join (hd : directory ≠ "") (name : String) :
    start (Path.join directory name) = start directory := by
  rw [start, start, Path.isAbsolute_join hd]

theorem toList_join_subset (directory name : String) :
    ∀ c ∈ (Path.join directory name).toList, c ∈ directory.toList ∨ c = '/' ∨ c ∈ name.toList := by
  intro c hc
  unfold Path.join at hc
  split at hc <;> simp at hc <;> grind

theorem follow_plain (h : Path.Plain name) (here : Location) :
    follow here name = here ++ [name] := by
  simp [follow, h.ne_empty, h.ne_dot, h.ne_dotdot]

theorem walk_plain (h : Path.Plain name) (hdir : tree.node? here = some .directory)
    (hlen : name.utf8ByteSize ≤ maxName) :
    tree.walk here [name] =
      if (tree.node? (here ++ [name])).isNone then .error .notFound else .ok (here ++ [name]) := by
  rw [walk, hdir]
  simp only [follow_plain h, walk]
  rw [if_neg (by omega)]

theorem walk_join (h : Path.Plain name) (hloc : tree.locate directory = .ok here)
    (hdir : tree.node? here = some .directory) (hlen : name.utf8ByteSize ≤ maxName) :
    tree.walk (start (Path.join directory name)) (Path.pieces (Path.join directory name)) =
      if (tree.node? (here ++ [name])).isNone then .error .notFound else .ok (here ++ [name]) := by
  obtain ⟨-, hd, hwalk⟩ := locate_eq_ok hloc
  obtain ⟨before, hb, hbefore⟩ := Path.pieces_join hd h.noSlash
  have hw : tree.walk (start directory) before = .ok here := by
    rcases hbefore with heq | heq
    · rwa [heq] at hwalk
    · rw [heq] at hwalk
      exact walk_of_append_empty hwalk
  rw [start_join hd, hb, walk_append, hw]
  exact walk_plain h hdir hlen

theorem find_of_locate_error {path : String} {cause : FileError}
    (h : tree.locate path = .error cause) : tree.find path = .error cause := by
  unfold find
  rw [h]
  rfl

theorem find_of_locate {path : String} (h : tree.locate path = .ok here) :
    tree.find path = match tree.node? here with
      | some node => .ok node
      | none => .error .notFound := by
  unfold find
  rw [h]
  change (match tree.node? here with | some node => _ | none => _) = _
  split <;> rfl

theorem find_join (h : Path.Plain name) (hloc : tree.locate directory = .ok here)
    (hdir : tree.node? here = some .directory) (hlen : name.utf8ByteSize ≤ maxName) :
    tree.find (Path.join directory name) =
      if maxPath < (Path.join directory name).utf8ByteSize then .error .nameTooLong
      else match tree.node? (here ++ [name]) with
        | some node => .ok node
        | none => .error .notFound := by
  obtain ⟨hzero, hd, -⟩ := locate_eq_ok hloc
  have hz : ¬ (Path.join directory name).toList.contains '\x00' = true := by
    intro hc
    rcases toList_join_subset _ _ _ (by simpa using hc) with hm | hm | hm
    · exact hzero hm
    · exact absurd hm (by decide)
    · exact h.noZero hm
  have hne : Path.join directory name ≠ "" := by
    unfold Path.join
    split <;> simp [hd]
  have hlocate : tree.locate (Path.join directory name) =
      if maxPath < (Path.join directory name).utf8ByteSize then .error .nameTooLong
      else if (tree.node? (here ++ [name])).isNone then .error .notFound
      else .ok (here ++ [name]) := by
    rw [locate, if_neg hz, if_neg hne, walk_join h hloc hdir hlen]
  by_cases hlong : maxPath < (Path.join directory name).utf8ByteSize
  · rw [if_pos hlong] at hlocate ⊢
    exact find_of_locate_error hlocate
  · rw [if_neg hlong] at hlocate ⊢
    cases hnode : tree.node? (here ++ [name]) with
    | none =>
      rw [hnode] at hlocate
      exact find_of_locate_error hlocate
    | some node =>
      rw [hnode] at hlocate
      rw [find_of_locate hlocate, hnode]

/-! ## Listing -/

def names (tree : FileTree) (here : Location) : List String :=
  tree.entries.filterMap fun (loc, _) =>
    if loc ≠ [] ∧ loc.dropLast = here then loc.getLast? else none

theorem list_of_locate {path : String} (h : tree.locate path = .ok here) :
    tree.list path = match tree.node? here with
      | some .directory => .ok (tree.names here)
      | some (.file _) => .error .notADirectory
      | none => .error .notFound := by
  unfold list
  rw [h]
  change (match tree.node? here with
    | some .directory => _
    | some (.file _) => _
    | none => _) = _
  split <;> rfl

theorem list_eq_ok {found : List String} (h : tree.list directory = .ok found) :
    ∃ here, tree.locate directory = .ok here ∧ tree.node? here = some .directory ∧
      found = tree.names here := by
  cases hloc : tree.locate directory with
  | error cause =>
    unfold list at h
    rw [hloc] at h
    cases h
  | ok here =>
    rw [list_of_locate hloc] at h
    refine ⟨here, rfl, ?_⟩
    split at h
    · rename_i hnode
      exact ⟨hnode, (Except.ok.inj h).symm⟩
    · cases h
    · cases h

theorem node?_eq_none_of_not_mem (h : name ∉ tree.names here) (hdd : name ≠ "..")
    (hslash : name ≠ "/") : tree.node? (here ++ [name]) = none := by
  have habove : ¬ (isAbove (here ++ [name]) = true ∨ here ++ [name] = ["/"]) := by
    simp [isAbove, hdd, List.append_eq_cons_iff, hslash]
  rw [node?, if_neg habove, List.lookup_eq_none_iff]
  intro entry hentry
  simp only [bne_iff_ne, ne_eq]
  intro heq
  apply h
  rw [names, List.mem_filterMap]
  exact ⟨entry, hentry, by simp [← heq]⟩

theorem node?_of_mem (h : name ∈ tree.names here) (hplain : Path.Plain name) :
    ∃ node, tree.node? (here ++ [name]) = some node := by
  have hslash : name ≠ "/" := by
    rintro rfl
    exact hplain.noSlash (by decide)
  have habove : ¬ (isAbove (here ++ [name]) = true ∨ here ++ [name] = ["/"]) := by
    simp [isAbove, hplain.ne_dotdot, List.append_eq_cons_iff, hslash]
  rw [node?, if_neg habove, ← Option.isSome_iff_exists, List.lookup_isSome_iff]
  obtain ⟨⟨loc, node⟩, hentry, hlast⟩ := List.mem_filterMap.1 h
  refine ⟨(loc, node), hentry, ?_⟩
  by_cases hloc : loc ≠ [] ∧ loc.dropLast = here
  · obtain ⟨hne, rfl⟩ := hloc
    have hname : loc.getLast hne = name := by
      simpa [hne, List.getLast?_eq_some_getLast] using hlast
    rw [beq_iff_eq, ← hname, List.dropLast_concat_getLast]
  · simp [hloc] at hlast

/-- What a directory lists is found in it, if its path is not too long. -/
theorem find_of_mem {names : List String} (h : tree.list directory = .ok names)
    (hplain : Path.Plain name) (hlen : name.utf8ByteSize ≤ maxName) (hname : name ∈ names)
    (hshort : (Path.join directory name).utf8ByteSize ≤ maxPath) :
    ∃ node, tree.find (Path.join directory name) = .ok node := by
  obtain ⟨here, hloc, hdir, rfl⟩ := list_eq_ok h
  obtain ⟨node, hnode⟩ := node?_of_mem hname hplain
  exact ⟨node, by rw [find_join hplain hloc hdir hlen, if_neg (by omega), hnode]⟩

theorem utf8ByteSize_le_of_find {path : String} {node : Node} (h : tree.find path = .ok node) :
    path.utf8ByteSize ≤ maxPath := by
  refine Nat.le_of_not_lt fun hlong => ?_
  have hlocate : ∃ cause, tree.locate path = .error cause := by
    unfold locate
    rw [if_pos hlong]
    split
    · exact ⟨_, rfl⟩
    · split <;> exact ⟨_, rfl⟩
  obtain ⟨cause, hcause⟩ := hlocate
  rw [find_of_locate_error hcause] at h
  cases h

end Transect.FileTree
