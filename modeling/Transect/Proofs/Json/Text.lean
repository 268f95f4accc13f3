import Transect.Json.Basic
import Transect.Json.Writer
import Transect.Proofs.Decimal.Text
import Transect.Proofs.Text.Split

/-!
# What written JSON means

A reader for JSON without blanks, which leaves numbers as they are written. Texts that mean values
are put together to texts that mean arrays and objects of these values.
-/

namespace Transect.Json

/-! ## Strings -/

def hexValue? (c : Char) : Option Nat :=
  if c.isDigit then some (c.toNat - '0'.toNat)
  else if 'a' ≤ c ∧ c ≤ 'f' then some (10 + (c.toNat - 'a'.toNat))
  else if 'A' ≤ c ∧ c ≤ 'F' then some (10 + (c.toNat - 'A'.toNat))
  else none

def meaning? : Char → Option Char
  | '"' => some '"'
  | '\\' => some '\\'
  | '/' => some '/'
  | 'b' => some '\x08'
  | 'f' => some '\x0c'
  | 'n' => some '\n'
  | 'r' => some '\r'
  | 't' => some '\t'
  | _ => none

/-- The characters up to the closing quote, and what follows it. -/
def takeQuoted : List Char → Option (List Char × List Char)
  | [] => none
  | '"' :: rest => some ([], rest)
  | '\\' :: 'u' :: a :: b :: c :: d :: rest => do
    let a ← hexValue? a
    let b ← hexValue? b
    let c ← hexValue? c
    let d ← hexValue? d
    let (cs, rest) ← takeQuoted rest
    return (Char.ofNat (((a * 16 + b) * 16 + c) * 16 + d) :: cs, rest)
  | '\\' :: c :: rest => do
    let c ← meaning? c
    let (cs, rest) ← takeQuoted rest
    return (c :: cs, rest)
  | c :: rest => (takeQuoted rest).map fun (cs, rest) => (c :: cs, rest)

theorem hexValue?_digitChar : ∀ n < 16, hexValue? (Nat.digitChar n) = some n := by decide

theorem takeQuoted_escapeChar (c : Char) (rest : List Char) :
    takeQuoted (escapeChar c ++ rest) =
      (takeQuoted rest).map fun (cs, rest) => (c :: cs, rest) := by
  unfold escapeChar
  split
  case h_8 =>
    split_ifs with hcontrol
    · have hhigh := hexValue?_digitChar (c.toNat / 16) (by omega)
      have hlow := hexValue?_digitChar (c.toNat % 16) (by omega)
      have hzero : hexValue? '0' = some 0 := rfl
      have hchar : Char.ofNat (((0 * 16 + 0) * 16 + c.toNat / 16) * 16 + c.toNat % 16) = c := by
        rw [show ((0 * 16 + 0) * 16 + c.toNat / 16) * 16 + c.toNat % 16 = c.toNat by omega]
        exact Char.ofNat_toNat c
      simp only [List.cons_append, List.nil_append, takeQuoted, hhigh, hlow, hzero,
        Option.bind_eq_bind, Option.bind_some, hchar]
      cases takeQuoted rest <;> rfl
    · rename_i hquote hbackslash _ _ _ _ _
      rw [List.singleton_append, takeQuoted.eq_def]
      split <;> simp_all
  all_goals
    simp [takeQuoted, meaning?]
    cases takeQuoted rest <;> rfl

theorem takeQuoted_eq (cs rest : List Char) :
    takeQuoted (cs.flatMap escapeChar ++ '"' :: rest) = some (cs, rest) := by
  induction cs with
  | nil => rfl
  | cons c cs ih => rw [List.flatMap_cons, List.append_assoc, takeQuoted_escapeChar, ih]; rfl

/-! ## Values -/

/-- What follows a word, if the text starts with it. -/
def after? : List Char → List Char → Option (List Char)
  | [], cs => some cs
  | _ :: _, [] => none
  | w :: word, c :: cs => if c = w then after? word cs else none

mutual

/-- A value and what follows it. The fuel is the number of characters. -/
def takeValue : Nat → List Char → Option (Json × List Char)
  | 0, _ => none
  | _, [] => none
  | fuel + 1, c :: cs =>
    if c = 'n' then (after? ['u', 'l', 'l'] cs).map (.null, ·)
    else if c = 't' then (after? ['r', 'u', 'e'] cs).map (.bool true, ·)
    else if c = 'f' then (after? ['a', 'l', 's', 'e'] cs).map (.bool false, ·)
    else if c = '"' then (takeQuoted cs).map fun (s, rest) => (.string (.ofList s), rest)
    else if c = '[' then
      if cs.head? = some ']' then some (.array [], cs.tail)
      else (takeItems fuel cs).map fun (items, rest) => (.array items, rest)
    else if c = '\x7b' then
      if cs.head? = some '\x7d' then some (.object [], cs.tail)
      else (takeMembers fuel cs).map fun (members, rest) => (.object members, rest)
    else if isNumeric c then
      some (.number ((c :: cs).takeWhile isNumeric), (c :: cs).dropWhile isNumeric)
    else none

def takeItems : Nat → List Char → Option (List Json × List Char)
  | 0, _ => none
  | fuel + 1, cs =>
    match takeValue fuel cs with
    | some (item, ',' :: rest) =>
      (takeItems fuel rest).map fun (items, rest) => (item :: items, rest)
    | some (item, ']' :: rest) => some ([item], rest)
    | _ => none

def takeMembers : Nat → List Char → Option (List (String × Json) × List Char)
  | fuel + 1, '"' :: cs =>
    match takeQuoted cs with
    | some (name, ':' :: rest) =>
      match takeValue fuel rest with
      | some (value, ',' :: rest) =>
        (takeMembers fuel rest).map fun (members, rest) => ((.ofList name, value) :: members, rest)
      | some (value, '\x7d' :: rest) => some ([(.ofList name, value)], rest)
      | _ => none
    | _ => none
  | _, _ => none

end

/-- The value of a whole text. -/
def parse? (cs : List Char) : Option Json :=
  match takeValue cs.length cs with
  | some (value, []) => some value
  | _ => none

/-! ## Meaning -/

/-- What cannot go on with a number. -/
def Ends (rest : List Char) : Prop := ∀ c ∈ rest.head?, isNumeric c = false

/-- The text is read as the value, whatever follows it. -/
def Means (cs : List Char) (value : Json) : Prop :=
  ∀ fuel rest, cs.length ≤ fuel → Ends rest → takeValue fuel (cs ++ rest) = some (value, rest)

variable {cs rest : List Char} {value : Json}

theorem Means.parse?_eq (h : Means cs value) : parse? cs = some value := by
  have hread := h cs.length [] le_rfl (by simp [Ends])
  rw [List.append_nil] at hread
  unfold parse?
  rw [hread]

theorem means_null : Means ['n', 'u', 'l', 'l'] .null := by
  intro fuel rest hfuel hrest
  obtain ⟨fuel, rfl⟩ := Nat.exists_eq_add_of_le' hfuel
  rfl

theorem means_string (s : String) : Means (writeString s) (.string s) := by
  intro fuel rest hfuel hrest
  obtain ⟨fuel, rfl⟩ : ∃ k, fuel = k + 1 := Nat.exists_eq_add_of_le' (by
    unfold writeString at hfuel
    simp at hfuel
    omega)
  have hquoted := takeQuoted_eq s.toList rest
  simp [writeString, takeValue, hquoted]

theorem takeWhile_numeric (h : Numeric cs) (hrest : Ends rest) :
    (cs ++ rest).takeWhile isNumeric = cs ∧ (cs ++ rest).dropWhile isNumeric = rest := by
  rw [List.takeWhile_append_of_pos h, List.dropWhile_append_of_pos h]
  cases rest with
  | nil => simp
  | cons d rest =>
    have hd : isNumeric d = false := hrest d rfl
    simp [hd]

theorem means_number (hne : cs ≠ []) (h : Numeric cs) : Means cs (.number cs) := by
  intro fuel rest hfuel hrest
  obtain ⟨htake, hdrop⟩ := takeWhile_numeric h hrest
  obtain ⟨c, cs, rfl⟩ := List.exists_cons_of_ne_nil hne
  obtain ⟨fuel, rfl⟩ := Nat.exists_eq_add_of_le' (Nat.le_of_add_left_le hfuel)
  have hc := h c List.mem_cons_self
  have hother : ∀ w, isNumeric w = false → c ≠ w := by
    rintro w hw rfl
    rw [hc] at hw
    cases hw
  rw [List.cons_append] at htake hdrop ⊢
  rw [takeValue, if_neg (hother _ rfl), if_neg (hother _ rfl), if_neg (hother _ rfl),
    if_neg (hother _ rfl), if_neg (hother _ rfl), if_neg (hother _ rfl), if_pos hc, htake, hdrop]

theorem ends_comma (rest : List Char) : Ends (',' :: rest) := by
  simp [Ends]
  decide

theorem ends_bracket (rest : List Char) : Ends (']' :: rest) := by
  simp [Ends]
  decide

theorem ends_brace (rest : List Char) : Ends ('\x7d' :: rest) := by
  simp [Ends]
  decide

/-! ## Arrays -/

theorem takeItems_closing (fuel : ℕ) (cs : List Char) : takeItems fuel (']' :: cs) = none := by
  rcases fuel with _ | _ | fuel
  · rfl
  · rfl
  · rfl

theorem takeItems_joinWith {α : Type} {xs : List α} {text : α → List Char} {item : α → Json}
    (hne : xs ≠ []) (h : ∀ x ∈ xs, Means (text x) (item x)) (rest : List Char) {fuel : ℕ}
    (hfuel : (joinWith ',' (xs.map text)).length < fuel) :
    takeItems fuel (joinWith ',' (xs.map text) ++ ']' :: rest) = some (xs.map item, rest) := by
  induction xs generalizing fuel with
  | nil => exact absurd rfl hne
  | cons x xs ih =>
    obtain ⟨fuel, rfl⟩ := Nat.exists_eq_add_of_le' (Nat.succ_le_of_lt (Nat.zero_lt_of_lt hfuel))
    have hx := h x List.mem_cons_self
    cases xs with
    | nil =>
      simp only [List.map_cons, List.map_nil, joinWith, List.intercalate_singleton] at hfuel ⊢
      rw [takeItems, hx fuel _ (by omega) (ends_bracket rest)]
      rfl
    | cons y ys =>
      rw [List.map_cons, List.map_cons, joinWith_cons_cons] at hfuel ⊢
      rw [List.length_append, List.length_cons] at hfuel
      have hshort : (joinWith ',' ((y :: ys).map text)).length < fuel := by
        rw [List.map_cons]
        omega
      have hrest := ih (by simp) (fun z hz => h z (List.mem_cons_of_mem _ hz)) hshort
      rw [List.map_cons] at hrest
      rw [List.append_assoc, List.cons_append, takeItems, hx fuel _ (by omega) (ends_comma _)]
      simp only
      rw [hrest]
      rfl

theorem means_array {α : Type} {xs : List α} {text : α → List Char} {item : α → Json}
    (h : ∀ x ∈ xs, Means (text x) (item x)) :
    Means (writeArray (xs.map text)) (.array (xs.map item)) := by
  intro fuel rest hfuel hrest
  unfold writeArray at hfuel ⊢
  simp only [List.cons_append, List.length_cons, List.length_append, List.append_assoc,
    List.nil_append] at hfuel ⊢
  obtain ⟨fuel, rfl⟩ := Nat.exists_eq_add_of_le' (show 1 ≤ fuel by omega)
  by_cases hne : xs = []
  · subst hne
    rfl
  · have hitems := takeItems_joinWith hne h rest (show _ < fuel by omega)
    -- No item starts with a bracket, so the array is not taken for an empty one.
    have hopen : (joinWith ',' (xs.map text) ++ ']' :: rest).head? ≠ some ']' := by
      intro hhead
      obtain ⟨cs, hcs⟩ := List.head?_eq_some_iff.1 hhead
      rw [hcs, takeItems_closing] at hitems
      cases hitems
    rw [takeValue]
    simp only [Char.reduceEq, if_false, if_true]
    rw [if_neg hopen, hitems]
    rfl

/-! ## Objects -/

theorem takeMembers_closing (fuel : ℕ) (cs : List Char) :
    takeMembers fuel ('\x7d' :: cs) = none := by
  cases fuel <;> rfl

/-- A member is read before the next one or the end. -/
theorem takeMembers_member {text : List Char} (h : Means text value) (name : String) {fuel : ℕ}
    (hfuel : text.length ≤ fuel) (rest : List Char) :
    takeMembers (fuel + 1) (writeString name ++ ':' :: text ++ ',' :: rest) =
        (takeMembers fuel rest).map (fun (members, rest) => ((name, value) :: members, rest)) ∧
      takeMembers (fuel + 1) (writeString name ++ ':' :: text ++ '\x7d' :: rest) =
        some ([(name, value)], rest) := by
  have hname (tail : List Char) := takeQuoted_eq name.toList (':' :: (text ++ tail))
  unfold writeString
  simp only [List.cons_append, List.append_assoc, List.nil_append]
  constructor
  · rw [takeMembers, hname]
    simp only
    rw [h fuel _ hfuel (ends_comma rest), String.ofList_toList]
    rfl
  · rw [takeMembers, hname]
    simp only
    rw [h fuel _ hfuel (ends_brace rest), String.ofList_toList]
    rfl

theorem takeMembers_joinWith {α : Type} {xs : List α} {name : α → String} {text : α → List Char}
    {item : α → Json} (hne : xs ≠ []) (h : ∀ x ∈ xs, Means (text x) (item x)) (rest : List Char)
    {fuel : ℕ}
    (hfuel : (joinWith ',' (xs.map fun x => writeString (name x) ++ ':' :: text x)).length < fuel) :
    takeMembers fuel (joinWith ',' (xs.map fun x => writeString (name x) ++ ':' :: text x) ++
      '\x7d' :: rest) = some (xs.map fun x => (name x, item x), rest) := by
  induction xs generalizing fuel with
  | nil => exact absurd rfl hne
  | cons x xs ih =>
    obtain ⟨fuel, rfl⟩ := Nat.exists_eq_add_of_le' (Nat.succ_le_of_lt (Nat.zero_lt_of_lt hfuel))
    have hx := h x List.mem_cons_self
    cases xs with
    | nil =>
      simp only [List.map_cons, List.map_nil, joinWith, List.intercalate_singleton,
        List.length_append, List.length_cons] at hfuel ⊢
      exact (takeMembers_member hx (name x) (by omega) rest).2
    | cons y ys =>
      rw [List.map_cons, List.map_cons, joinWith_cons_cons] at hfuel ⊢
      simp only [List.length_append, List.length_cons] at hfuel
      have hshort : (joinWith ',' ((y :: ys).map fun x =>
          writeString (name x) ++ ':' :: text x)).length < fuel := by
        rw [List.map_cons]
        omega
      have hrest := ih (by simp) (fun z hz => h z (List.mem_cons_of_mem _ hz)) hshort
      rw [List.map_cons] at hrest
      rw [List.append_assoc, List.cons_append, (takeMembers_member hx (name x) (by omega) _).1,
        hrest]
      rfl

theorem means_object {α : Type} {xs : List α} {name : α → String} {text : α → List Char}
    {item : α → Json} (h : ∀ x ∈ xs, Means (text x) (item x)) :
    Means (writeObject (xs.map fun x => (name x, text x)))
      (.object (xs.map fun x => (name x, item x))) := by
  intro fuel rest hfuel hrest
  unfold writeObject at hfuel ⊢
  simp only [List.cons_append, List.length_cons, List.length_append, List.append_assoc,
    List.nil_append, List.map_map] at hfuel ⊢
  obtain ⟨fuel, rfl⟩ := Nat.exists_eq_add_of_le' (show 1 ≤ fuel by omega)
  by_cases hne : xs = []
  · subst hne
    rfl
  · have hshort : (joinWith ',' (xs.map fun x =>
        writeString (name x) ++ ':' :: text x)).length < fuel := by
      simp only [Function.comp_def] at hfuel
      omega
    have hmembers := takeMembers_joinWith hne h rest hshort
    have hopen : (joinWith ',' (xs.map fun x => writeString (name x) ++ ':' :: text x) ++
        '\x7d' :: rest).head? ≠ some '\x7d' := by
      intro hhead
      obtain ⟨cs, hcs⟩ := List.head?_eq_some_iff.1 hhead
      rw [hcs, takeMembers_closing] at hmembers
      cases hmembers
    rw [takeValue]
    simp only [Char.reduceEq, if_false, if_true, Function.comp_def]
    rw [if_neg hopen, hmembers]
    rfl

/-- An object of members that are given one by one, each with its text and the value of it. -/
theorem means_record (members : List (String × List Char × Json))
    (h : ∀ m ∈ members, Means m.2.1 m.2.2) :
    Means (writeObject (members.map fun m => (m.1, m.2.1)))
      (.object (members.map fun m => (m.1, m.2.2))) :=
  means_object h

end Transect.Json
