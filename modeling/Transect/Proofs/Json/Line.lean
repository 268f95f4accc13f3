import Transect.Proofs.Point
import Transect.Proofs.Profile.Json

/-!
# JSON stands on one line

Control characters in names are escaped, and nothing else that is written has any. So no line break
is inside of a text, whatever the names are.
-/

namespace Transect

/-- A text without control characters. -/
def Visible (cs : List Char) : Prop := ∀ c ∈ cs, 0x20 ≤ c.toNat

variable {c : Char} {cs ds : List Char}

@[simp]
theorem visible_nil : Visible [] := by simp [Visible]

@[simp]
theorem visible_cons : Visible (c :: cs) ↔ 0x20 ≤ c.toNat ∧ Visible cs := List.forall_mem_cons

@[simp]
theorem visible_append : Visible (cs ++ ds) ↔ Visible cs ∧ Visible ds := List.forall_mem_append

theorem visible_of_numeric (h : Numeric cs) : Visible cs := fun c hc => by
  have := toNat_of_isNumeric (h c hc)
  omega

theorem visible_joinWith {parts : List (List Char)} (h : ∀ part ∈ parts, Visible part) :
    Visible (joinWith ',' parts) := by
  intro c hc
  by_cases heq : c = ','
  · rw [heq]
    decide
  · by_contra hcontrol
    exact not_mem_joinWith heq (fun part hpart hmem => hcontrol (h part hpart c hmem)) hc

namespace Json

theorem toNat_digitChar : ∀ n < 16, 0x20 ≤ (Nat.digitChar n).toNat := by decide

theorem visible_escapeChar (c : Char) : Visible (escapeChar c) := by
  unfold escapeChar
  split
  case h_8 =>
    split_ifs with hcontrol
    · simp [toNat_digitChar (c.toNat / 16) (by omega), toNat_digitChar (c.toNat % 16) (by omega)]
    · simpa using hcontrol
  all_goals simp

theorem visible_writeString (s : String) : Visible (writeString s) := by
  have hbody : Visible (s.toList.flatMap escapeChar) := by
    intro c hc
    obtain ⟨d, -, hd⟩ := List.mem_flatMap.1 hc
    exact visible_escapeChar d c hd
  simp [writeString, hbody]

theorem visible_writeArray {items : List (List Char)} (h : ∀ item ∈ items, Visible item) :
    Visible (writeArray items) := by
  simp [writeArray, visible_joinWith h]

theorem visible_writeObject {members : List (String × List Char)}
    (h : ∀ m ∈ members, Visible m.2) : Visible (writeObject members) := by
  have hmembers : ∀ part ∈ members.map fun m => writeString m.1 ++ ':' :: m.2, Visible part := by
    rw [List.forall_mem_map]
    intro m hm
    simp [visible_writeString, h m hm]
  simp [writeObject, visible_joinWith hmembers]

end Json

open Json

theorem visible_jsonFloat (x : Float) : Visible (jsonFloat x).toList := by
  have hsigned (negative : Bool) (d : Decimal) : Visible (signed negative d.json) :=
    visible_of_numeric (numeric_signed negative d.numeric_json)
  unfold jsonFloat
  rw [String.toList_ofList]
  split
  · simp
  · simp
  · exact hsigned _ _
  · exact hsigned _ _

theorem visible_valueJson (v : Option Float) : Visible (valueJson v) := by
  cases v with
  | none => simp [valueJson]
  | some x => exact visible_jsonFloat x

theorem Values.visible_json (values : Values) : Visible values.json := by
  apply visible_writeObject
  rw [List.forall_mem_map]
  exact fun entry _ => visible_valueJson entry.2

theorem Sample.visible_json (s : Sample) : Visible s.json := by
  apply visible_writeObject
  simp only [List.forall_mem_cons, List.not_mem_nil, false_imp_iff, implies_true, and_true]
  exact ⟨visible_jsonFloat _, s.values.visible_json, visible_jsonFloat _, visible_jsonFloat _⟩

/-- **The samples stand on one line,** whatever characters their names have. -/
theorem Profile.visible_report (p : Profile) : Visible p.report.toList := by
  unfold report samplesJson
  rw [String.toList_ofList]
  apply visible_writeObject
  simp only [List.forall_mem_cons, List.not_mem_nil, false_imp_iff, implies_true, and_true]
  apply visible_writeArray
  rw [List.forall_mem_map]
  exact fun s _ => s.visible_json

end Transect
