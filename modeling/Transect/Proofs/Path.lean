import Transect.Path
import Transect.Proofs.Text.Split

/-!
# The path of a file in a directory

Joining a plain name to a directory adds one piece at the end of the path, apart from the empty
piece that a slash at the end of the directory leaves. The name of the file is the name joined.
-/

namespace Transect

namespace Path

/-- A name that is one piece of a path and leads to something of that name. -/
structure Plain (name : String) : Prop where
  noSlash : '/' ∉ name.toList
  noZero : '\x00' ∉ name.toList
  ne_empty : name ≠ ""
  ne_dot : name ≠ "."
  ne_dotdot : name ≠ ".."

theorem pieces_of_noSlash {name : String} (h : '/' ∉ name.toList) : pieces name = [name] := by
  simp [pieces, splitAt_of_not_mem h]

theorem join_empty (name : String) : join "" name = name := by
  simp [join]

/-- A directory other than the empty text, with the slash at its end if there is one apart. -/
theorem join_cases {directory : String} (hd : directory ≠ "") (name : String) :
    (∃ front : String, directory.toList = front.toList ++ ['/'] ∧
        (join directory name).toList = front.toList ++ '/' :: name.toList) ∨
      (join directory name).toList = directory.toList ++ '/' :: name.toList := by
  have hne : directory.toList ≠ [] := by simpa using hd
  obtain ⟨front, last, hlast⟩ : ∃ front last, directory.toList = front ++ [last] :=
    ⟨_, _, (List.dropLast_concat_getLast hne).symm⟩
  by_cases h : last = '/'
  · left
    refine ⟨.ofList front, by simp [hlast, h], ?_⟩
    simp [join, hlast, h]
  · right
    simp [join, hlast, h]

theorem isAbsolute_join {directory : String} (hd : directory ≠ "") (name : String) :
    isAbsolute (join directory name) = isAbsolute directory := by
  have hne : directory.toList ≠ [] := by simpa using hd
  rcases join_cases hd name with ⟨front, hfront, h⟩ | h
  · rw [isAbsolute, isAbsolute, h, hfront]
    cases front.toList <;> rfl
  · obtain ⟨c, cs, hc⟩ := List.exists_cons_of_ne_nil hne
    rw [isAbsolute, isAbsolute, h, hc]
    rfl

/-- The pieces of a joined path are those of the directory and the name. An empty last piece of the
directory gives way. -/
theorem pieces_join {directory name : String} (hd : directory ≠ "") (hn : '/' ∉ name.toList) :
    ∃ before, pieces (join directory name) = before ++ [name] ∧
      (pieces directory = before ∨ pieces directory = before ++ [""]) := by
  rcases join_cases hd name with ⟨front, hfront, h⟩ | h
  · refine ⟨pieces front, ?_, .inr ?_⟩
    · simp [pieces, h, splitAt_append_cons, splitAt_of_not_mem hn]
    · simp [pieces, hfront, splitAt_append_cons, splitAt]
  · refine ⟨pieces directory, ?_, .inl rfl⟩
    simp [pieces, h, splitAt_append_cons, splitAt_of_not_mem hn]

/-- What is joined adds its own size to that of the directory. -/
theorem utf8ByteSize_join (directory name : String) :
    (join directory name).utf8ByteSize =
      (join directory "").utf8ByteSize + name.utf8ByteSize := by
  unfold join
  split <;> simp [String.utf8ByteSize_append]

/-! ## The name of the file -/

theorem name?_join {name : String} (h : Plain name) (directory : String) :
    name? (join directory name) = some name := by
  obtain ⟨before, hb⟩ : ∃ before, pieces (join directory name) = before ++ [name] := by
    by_cases hd : directory = ""
    · exact ⟨[], by rw [hd, join_empty, pieces_of_noSlash h.noSlash]; rfl⟩
    · obtain ⟨before, hb, -⟩ := pieces_join hd h.noSlash
      exact ⟨before, hb⟩
  have hlast : ((pieces (join directory name)).filter
      fun p => p != "" && p != ".").getLast? = some name := by
    simp [hb, h.ne_empty, h.ne_dot]
  unfold name?
  rw [hlast]
  split
  · rename_i heq
    exact absurd (Option.some.inj heq) h.ne_dotdot
  · rename_i heq
    cases heq
  · rename_i heq
    exact heq.symm

theorem splitName_ofList {stem extension : List Char} (hs : stem ≠ []) (he : '.' ∉ extension) :
    splitName (.ofList (stem ++ '.' :: extension)) = (.ofList stem, some (.ofList extension)) := by
  have hall : ∀ c ∈ extension.reverse, (c != '.') = true := by
    intro c hc
    simp only [bne_iff_ne, ne_eq]
    rintro rfl
    exact he (List.mem_reverse.1 hc)
  have hrev : (stem ++ '.' :: extension).reverse = extension.reverse ++ '.' :: stem.reverse := by
    simp
  have hdrop : (extension.reverse ++ '.' :: stem.reverse).dropWhile (· != '.') =
      '.' :: stem.reverse := by
    rw [List.dropWhile_append_of_pos hall]
    simp
  have htake : (extension.reverse ++ '.' :: stem.reverse).takeWhile (· != '.') =
      extension.reverse := by
    rw [List.takeWhile_append_of_pos hall]
    simp
  unfold splitName
  simp only [String.toList_ofList, hrev, hdrop, htake, List.reverse_reverse]
  split
  · rename_i heq
    cases heq
  · rename_i heq
    have := (List.cons.inj heq).2
    simp [hs] at this
  · rename_i heq
    rw [← (List.cons.inj heq).2, List.reverse_reverse]

theorem stem?_join {stem extension : List Char} {directory : String}
    (h : Plain (.ofList (stem ++ '.' :: extension))) (hs : stem ≠ []) (he : '.' ∉ extension) :
    stem? (join directory (.ofList (stem ++ '.' :: extension))) = some (.ofList stem) := by
  rw [stem?, name?_join h, Option.map_some, splitName_ofList hs he]

/-- What a name with an extension is made of. -/
theorem splitName_eq_some {name extension : String} (h : (splitName name).2 = some extension) :
    ∃ stem, name.toList = stem ++ '.' :: extension.toList ∧ stem ≠ [] ∧
      '.' ∉ extension.toList := by
  have hparts : (name.toList.reverse.takeWhile (· != '.')) ++
      (name.toList.reverse.dropWhile (· != '.')) = name.toList.reverse :=
    List.takeWhile_append_dropWhile
  have hdot := List.head?_dropWhile_not (· != '.') name.toList.reverse
  unfold splitName at h
  simp only at h
  split at h
  · cases h
  · cases h
  · rename_i c before hne heq
    cases h
    rw [heq] at hparts hdot
    obtain rfl : c = '.' := by simpa using hdot
    have hname := congrArg List.reverse hparts
    refine ⟨before.reverse, by simpa using hname.symm, fun hnil => hne (by simpa using hnil), ?_⟩
    rw [String.toList_ofList, List.mem_reverse]
    intro hmem
    have hall := List.all_takeWhile (p := (· != '.')) (l := name.toList.reverse)
    exact absurd (List.all_eq_true.1 hall _ hmem) (by decide)

theorem splitName_length_le (name : String) :
    (splitName name).1.toList.length ≤ name.toList.length := by
  have hdrop := (List.dropWhile_sublist (l := name.toList.reverse) (· != '.')).length_le
  unfold splitName
  simp only
  split
  · exact Nat.le_refl _
  · exact Nat.le_refl _
  · rename_i heq
    rw [heq] at hdrop
    simp at hdrop ⊢
    omega

/-- The part of a text behind its last slash. -/
theorem exists_behind_slash (cs : List Char) :
    ∃ front last, cs = front ++ last ∧ '/' ∉ last ∧ (front = [] ∨ ∃ start, front = start ++ ['/']) := by
  induction cs with
  | nil => exact ⟨[], [], rfl, by simp, .inl rfl⟩
  | cons c cs ih =>
    obtain ⟨front, last, rfl, hlast, rfl | ⟨start, rfl⟩⟩ := ih
    · by_cases hc : c = '/'
      · exact ⟨['/'], last, by simp [hc], hlast, .inr ⟨[], rfl⟩⟩
      · exact ⟨[], c :: last, rfl, by simp [Ne.symm hc, hlast], .inl rfl⟩
    · exact ⟨c :: start ++ ['/'], last, by simp, hlast, .inr ⟨c :: start, rfl⟩⟩

/-- A text of three characters or more behind the last slash of a path is the name of its file. -/
theorem name?_of_behind_slash {path : String} {start last : List Char}
    (h : path.toList = start ++ '/' :: last) (hslash : '/' ∉ last) (hlong : 2 < last.length) :
    name? path = some (.ofList last) := by
  have hpieces : pieces path = pieces (.ofList start) ++ [.ofList last] := by
    simp [pieces, h, splitAt_append_cons, splitAt_of_not_mem hslash]
  have hlength (text : String) (ht : text.toList.length ≤ 2) : String.ofList last ≠ text := by
    rintro rfl
    rw [String.toList_ofList] at ht
    omega
  have hlast : ((pieces path).filter fun p => p != "" && p != ".").getLast? =
      some (.ofList last) := by
    rw [hpieces, List.filter_append, List.filter_cons_of_pos, List.filter_nil, List.getLast?_concat]
    simp only [Bool.and_eq_true, bne_iff_ne]
    exact ⟨hlength "" (by decide), hlength "." (by decide)⟩
  unfold name?
  rw [hlast]
  split
  · rename_i heq
    exact absurd (Option.some.inj heq) (hlength ".." (by decide))
  · rename_i heq
    cases heq
  · rename_i heq
    exact heq.symm

/-- The name of the file ends as what is joined to the directory, be that a plain name or not. -/
theorem name?_join_of_extension {directory name : String} {stem extension : List Char}
    (hd : directory ≠ "") (hname : name.toList = stem ++ '.' :: extension)
    (hslash : '/' ∉ extension) (hlong : 1 < extension.length) :
    ∃ front last, stem = front ++ last ∧
      name? (join directory name) = some (.ofList (last ++ '.' :: extension)) := by
  obtain ⟨front, last, rfl, hlast, hfront⟩ := exists_behind_slash stem
  refine ⟨front, last, rfl, ?_⟩
  obtain ⟨start, hstart⟩ : ∃ start : List Char,
      (join directory name).toList = start ++ '/' :: (front ++ last ++ '.' :: extension) := by
    rcases join_cases hd name with ⟨start, -, h⟩ | h
    · exact ⟨start.toList, by rw [h, hname]⟩
    · exact ⟨directory.toList, by rw [h, hname]⟩
  have hpiece : '/' ∉ last ++ '.' :: extension := by simp [hlast, hslash]
  have hlength : 2 < (last ++ '.' :: extension).length := by simp; omega
  rcases hfront with rfl | ⟨middle, rfl⟩
  · exact name?_of_behind_slash hstart hpiece hlength
  · have hbehind : (join directory name).toList =
        (start ++ '/' :: middle) ++ '/' :: (last ++ '.' :: extension) := by
      simp [hstart]
    exact name?_of_behind_slash hbehind hpiece hlength

end Path

end Transect
