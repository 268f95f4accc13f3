import Transect.Json.Reader
import Transect.Proofs.Json.Text

/-!
# JSON texts

What may be written for a value. Blanks may stand around every part, a character of a string may be
written as itself or as an escape, and arrays and objects are nested up to a depth.
-/

namespace Transect.Json

def BlankText (cs : List Char) : Prop := ∀ c ∈ cs, c ∈ [' ', '\t', '\n', '\r']

theorem blankText_nil : BlankText [] := List.forall_mem_nil _

/-! ## Numbers -/

def DigitsText (cs : List Char) : Prop := cs ≠ [] ∧ ∀ c ∈ cs, c.isDigit = true

inductive FractionText : List Char → Prop
  | absent : FractionText []
  | present {digits : List Char} (h : DigitsText digits) : FractionText ('.' :: digits)

inductive ExponentText : List Char → Prop
  | absent : ExponentText []
  | present {e : Char} {sign digits : List Char} (he : e = 'e' ∨ e = 'E')
    (hsign : sign ∈ [[], ['+'], ['-']]) (h : DigitsText digits) : ExponentText (e :: sign ++ digits)

/-- The text of a number. Only a lone zero starts with zero. -/
inductive NumberText : List Char → Prop
  | mk {sign whole fraction exponent : List Char} (hsign : sign ∈ [[], ['-']])
    (hwhole : DigitsText whole) (hzero : whole.head? = some '0' → whole = ['0'])
    (hfraction : FractionText fraction) (hexponent : ExponentText exponent) :
    NumberText (sign ++ whole ++ fraction ++ exponent)

/-! ## Strings -/

/-- The number that four hexadecimal digits stand for. -/
def unitValue? : List Char → Option ℕ
  | [a, b, c, d] => do
    let a ← hexValue? a
    let b ← hexValue? b
    let c ← hexValue? c
    let d ← hexValue? d
    return ((a * 16 + b) * 16 + c) * 16 + d
  | _ => none

/-- What may be written for a character of a string. A character beyond four hexadecimal digits can
be escaped as two halves. -/
inductive Spells : Char → List Char → Prop
  | plain {c : Char} (hcontrol : ' ' ≤ c) (hquote : c ≠ '"') (hbackslash : c ≠ '\\') : Spells c [c]
  | letter {c e : Char} (h : meaning? e = some c) : Spells c ['\\', e]
  | unit {c : Char} {cs : List Char} (h : unitValue? cs = some c.toNat) :
    Spells c ('\\' :: 'u' :: cs)
  | pair {c : Char} {cs ds : List Char} {high low : ℕ} (hcs : unitValue? cs = some high)
    (hds : unitValue? ds = some low) (hhigh : 0xD800 ≤ high ∧ high < 0xDC00)
    (hlow : 0xDC00 ≤ low ∧ low < 0xE000)
    (h : c.toNat = 0x10000 + (high - 0xD800) * 0x400 + (low - 0xDC00)) :
    Spells c ('\\' :: 'u' :: cs ++ '\\' :: 'u' :: ds)

inductive StringText (s : String) : List Char → Prop
  | mk {pieces : List (List Char)} (h : List.Forall₂ Spells s.toList pieces) :
    StringText s ('"' :: pieces.flatten ++ ['"'])

/-! ## Values -/

/-- The values that have no others in them. A number has to be finite. -/
inductive ScalarText : Json → List Char → Prop
  | nullWord : ScalarText .null ['n', 'u', 'l', 'l']
  | trueWord : ScalarText (.bool true) ['t', 'r', 'u', 'e']
  | falseWord : ScalarText (.bool false) ['f', 'a', 'l', 's', 'e']
  | number {cs : List Char} (h : NumberText cs) (hfinite : (value? cs).isSome = true) :
    ScalarText (.number cs) cs
  | string {s : String} {cs : List Char} (h : StringText s cs) : ScalarText (.string s) cs

section Parts

variable (inner : Json → List Char → Prop)

/-- A value with blanks around it. -/
inductive PaddedText : Json → List Char → Prop
  | mk {v : Json} {before cs after : List Char} (hbefore : BlankText before) (h : inner v cs)
    (hafter : BlankText after) : PaddedText v (before ++ cs ++ after)

/-- A name and its value with a colon between them. -/
inductive MemberText : String × Json → List Char → Prop
  | mk {name : String} {v : Json} {before cs after ds : List Char} (hbefore : BlankText before)
    (hname : StringText name cs) (hafter : BlankText after) (hvalue : PaddedText inner v ds) :
    MemberText (name, v) (before ++ cs ++ after ++ ':' :: ds)

/-- One or more parts with commas between them. -/
inductive SeriesText {α : Type} (part : α → List Char → Prop) : List α → List Char → Prop
  | last {a : α} {cs : List Char} (h : part a cs) : SeriesText part [a] cs
  | more {a : α} {rest : List α} {cs ds : List Char} (h : part a cs)
    (hrest : SeriesText part rest ds) : SeriesText part (a :: rest) (cs ++ ',' :: ds)

inductive NestedText : Json → List Char → Prop
  | noItems {cs : List Char} (h : BlankText cs) : NestedText (.array []) ('[' :: cs ++ [']'])
  | items {items : List Json} {cs : List Char} (h : SeriesText (PaddedText inner) items cs) :
    NestedText (.array items) ('[' :: cs ++ [']'])
  | noMembers {cs : List Char} (h : BlankText cs) :
    NestedText (.object []) ('\x7b' :: cs ++ ['\x7d'])
  | members {members : List (String × Json)} {cs : List Char}
    (h : SeriesText (MemberText inner) members cs) :
    NestedText (.object members) ('\x7b' :: cs ++ ['\x7d'])

end Parts

/-- The text of a value, with arrays and objects nested at most as deep as the depth. -/
def ValueText : ℕ → Json → List Char → Prop
  | 0 => ScalarText
  | depth + 1 => fun v cs => ScalarText v cs ∨ NestedText (ValueText depth) v cs

theorem valueText_scalar {v : Json} {cs : List Char} (h : ScalarText v cs) (depth : ℕ) :
    ValueText depth v cs := by
  cases depth with
  | zero => exact h
  | succ depth => exact .inl h

/-- **A text that means a value**, with nothing but blanks around it. -/
def Writes (text : String) (v : Json) : Prop := PaddedText (ValueText maxDepth) v text.toList

/-! ## What the writer writes -/

variable {inner : Json → List Char → Prop}

theorem spells_escapeChar (c : Char) : Spells c (escapeChar c) := by
  unfold escapeChar
  split
  case h_8 =>
    rename_i hquote hbackslash _ _ _ _ _
    split_ifs with hcontrol
    · have hhigh := hexValue?_digitChar (c.toNat / 16) (by omega)
      have hlow := hexValue?_digitChar (c.toNat % 16) (by omega)
      have hzero : hexValue? '0' = some 0 := rfl
      refine .unit ?_
      simp only [unitValue?, hhigh, hlow, hzero, Option.bind_eq_bind, Option.bind_some]
      exact congrArg some (by omega)
    · exact .plain (Nat.le_of_not_lt hcontrol) hquote hbackslash
  all_goals exact .letter rfl

theorem stringText_writeString (s : String) : StringText s (writeString s) := by
  have hpieces : List.Forall₂ Spells s.toList (s.toList.map escapeChar) :=
    List.forall₂_map_right_iff.2 (List.forall₂_same.2 fun c _ => spells_escapeChar c)
  exact .mk hpieces

theorem seriesText_joinWith {α β : Type} {part : β → List Char → Prop} {xs : List α} {b : α → β}
    {text : α → List Char} (hne : xs ≠ []) (h : ∀ x ∈ xs, part (b x) (text x)) :
    SeriesText part (xs.map b) (joinWith ',' (xs.map text)) := by
  induction xs with
  | nil => exact absurd rfl hne
  | cons x xs ih =>
    obtain ⟨hx, hxs⟩ := List.forall_mem_cons.1 h
    cases xs with
    | nil => simpa [joinWith] using SeriesText.last hx
    | cons y ys =>
      have hrest := ih (by simp) hxs
      simp only [List.map_cons] at hrest ⊢
      rw [joinWith_cons_cons]
      exact .more hx hrest

/-- An object of members that are given one by one, each with its text and the value of it. -/
theorem nestedText_writeObject (parts : List (String × List Char × Json))
    (h : ∀ part ∈ parts, inner part.2.2 part.2.1) :
    NestedText inner (.object (parts.map fun part => (part.1, part.2.2)))
      (writeObject (parts.map fun part => (part.1, part.2.1))) := by
  rw [writeObject, List.map_map]
  cases parts with
  | nil => exact .noMembers blankText_nil
  | cons part parts =>
    refine .members (seriesText_joinWith (by simp) fun other hother => ?_)
    have hmember := MemberText.mk blankText_nil (stringText_writeString other.1) blankText_nil
      (.mk blankText_nil (h other hother) blankText_nil)
    simpa using hmember

end Transect.Json
