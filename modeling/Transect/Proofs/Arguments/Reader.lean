import Transect.Arguments.Reader
import Transect.Proofs.Except
import Transect.Proofs.GeoJson
import Transect.Proofs.Text.Split

/-!
# What arguments hold

Every word that is read keeps what is given sound: a line has finite points, a number of points is
within its bound, and no name in a list of layers has a comma in it. So the arguments of a command
are sound.
-/

namespace Transect

/-- A line as it can be asked for. -/
def SoundLine (line : List Point) : Prop := line ≠ [] ∧ ∀ p ∈ line, p.Finite

/-- A list of layers as it can be asked for. -/
def SoundLayers (layers : List String) : Prop := layers ≠ [] ∧ ∀ layer ∈ layers, ',' ∉ layer.toList

structure Given.Sound (g : Given) : Prop where
  config : ∀ path, g.config = some path → path ≠ ""
  line : ∀ line, g.line = some line → SoundLine line
  count : ∀ n, g.count = some n → n ≤ maxPoints
  layers : ∀ layers, g.layers = some layers → SoundLayers layers

variable {g g' : Given} {s t : Scan} {scope : Scope}

/-! ## Values -/

namespace Given

theorem readPoints_le {value : String} {n : ℕ} (h : readPoints value = .ok n) : n ≤ maxPoints := by
  unfold readPoints at h
  obtain ⟨m, -, h⟩ := bind_eq_ok.1 h
  by_cases hm : m ≤ maxPoints
  · rw [if_pos hm] at h
    exact pure_eq_ok.1 h ▸ hm
  · rw [if_neg hm] at h
    cases h

theorem readNames_sound (value : String) : SoundLayers (readNames value) := by
  constructor
  · simp [readNames, splitAt_ne_nil]
  · intro layer hlayer
    obtain ⟨part, hpart, rfl⟩ := List.mem_map.1 hlayer
    rw [String.toList_ofList]
    exact not_mem_of_mem_splitAt hpart

theorem sound_nothing : nothing.Sound := by
  constructor <;> intro _ h <;> cases h

/-- More layers are appended to those that are given. -/
theorem Sound.append_layers (h : g.Sound) {layers : List String} (hlayers : SoundLayers layers) :
    SoundLayers (g.layers.getD [] ++ layers) := by
  refine ⟨by simp [hlayers.1], fun layer hlayer => ?_⟩
  rcases List.mem_append.1 hlayer with hlayer | hlayer
  · cases hgiven : g.layers with
    | none => simp [hgiven] at hlayer
    | some given =>
      rw [hgiven, Option.getD_some] at hlayer
      exact (h.layers given hgiven).2 layer hlayer
  · exact hlayers.2 layer hlayer

theorem Sound.read (h : g.Sound) {flag : Flag} {value : String}
    (hvalue : flag = .config → value ≠ "") (hread : g.read flag value = .ok g') : g'.Sound := by
  cases flag with
  | config =>
    cases hread
    exact { h with config := fun path hpath => Option.some.inj hpath ▸ hvalue rfl }
  | line =>
    obtain ⟨line, hline, rfl⟩ := map_eq_ok.1 hread
    have hline := GeoJson.readLine_spec (mapError_eq_ok.1 hline)
    exact { h with line := fun other hother => Option.some.inj hother ▸ hline }
  | count =>
    obtain ⟨n, hn, rfl⟩ := map_eq_ok.1 hread
    exact { h with count := fun m hm => Option.some.inj hm ▸ readPoints_le hn }
  | layers =>
    cases hread
    have hlayers := h.append_layers (readNames_sound value)
    exact { h with layers := fun other hother => Option.some.inj hother ▸ hlayers }
  | location =>
    obtain ⟨p, -, rfl⟩ := map_eq_ok.1 hread
    exact { h with }
  | parallel | help | version =>
    cases hread
    exact h

theorem Sound.accept (h : g.Sound) {flag : Flag} {value : Option String}
    (haccept : g.accept flag value = .ok g') : g'.Sound := by
  cases value with
  | none => cases haccept
  | some value =>
    unfold Given.accept at haccept
    simp only at haccept
    split_ifs at haccept with hrepeated hempty
    exact h.read (fun hconfig hvalue => hempty ⟨hconfig, hvalue⟩) (mapError_eq_ok.1 haccept)

theorem Sound.turnOn (h : g.Sound) {flag : Flag} (hturn : g.turnOn flag = .ok g') : g'.Sound := by
  cases flag with
  | parallel =>
    unfold Given.turnOn at hturn
    simp only at hturn
    split_ifs at hturn
    cases hturn
    exact { h with }
  | _ => cases hturn

end Given

/-! ## Words -/

namespace Scan

theorem sound_settle (h : s.given.Sound) (hsettle : s.settle = .ok g) : g.Sound := by
  unfold settle at hsettle
  split at hsettle
  · exact h.accept hsettle
  · cases hsettle
    exact h

theorem sound_takeFlag (h : s.given.Sound) {flag : Flag} {attached : Option String}
    (htake : s.takeFlag flag attached = .ok t) : t.given.Sound := by
  unfold takeFlag at htake
  obtain ⟨given, hgiven, htake⟩ := bind_eq_ok.1 htake
  have hsound := sound_settle h hgiven
  split_ifs at htake
  · split at htake
    · obtain ⟨given', hgiven', htake⟩ := bind_eq_ok.1 htake
      cases htake
      exact hsound.accept hgiven'
    · cases htake
      exact hsound
  · obtain ⟨given', hgiven', htake⟩ := bind_eq_ok.1 htake
    cases htake
    exact hsound.turnOn hgiven'

theorem sound_takeLong (h : s.given.Sound) {name : String} {attached : Option String}
    (htake : s.takeLong scope name attached = .ok t) : t.given.Sound := by
  unfold takeLong at htake
  split at htake
  · cases htake
  · split_ifs at htake
    exact sound_takeFlag h htake

theorem sound_takeLetters (h : s.given.Sound) {cs : List Char}
    (htake : takeLetters scope s cs = .ok t) : t.given.Sound := by
  induction cs generalizing s with
  | nil =>
    cases htake
    exact h
  | cons c cs ih =>
    rw [takeLetters] at htake
    split at htake
    · cases htake
    · split_ifs at htake
      · exact sound_takeFlag h htake
      · obtain ⟨between, hbetween, htake⟩ := bind_eq_ok.1 htake
        exact ih (sound_takeFlag h hbetween) htake

end Scan

/-! ## Scopes -/

namespace Scope

theorem sound_scan (h : s.given.Sound) {words : List String}
    {found : Option (CommandName × List String)} (hscan : scope.scan s words = .ok (t, found)) :
    t.given.Sound := by
  induction words generalizing s with
  | nil =>
    cases hscan
    exact h
  | cons word rest ih =>
    rw [scan.eq_def] at hscan
    simp only at hscan
    split at hscan
    · split at hscan
      · cases hscan
        exact h
      · cases hscan
    · obtain ⟨between, hbetween, hscan⟩ := bind_eq_ok.1 hscan
      exact ih (Scan.sound_takeLong h hbetween) hscan
    · obtain ⟨between, hbetween, hscan⟩ := bind_eq_ok.1 hscan
      exact ih (Scan.sound_takeLetters h hbetween) hscan
    · split at hscan
      · refine ih ?_ hscan
        exact h
      · split at hscan
        · cases hscan
          exact h
        · cases hscan

theorem sound_readFlags {words : List String} (hread : scope.readFlags words = .ok g) :
    g.Sound := by
  unfold readFlags at hread
  obtain ⟨⟨t, found⟩, hscan, hsettle⟩ := bind_eq_ok.1 hread
  exact Scan.sound_settle (sound_scan Given.sound_nothing hscan) hsettle

end Scope

/-! ## Commands -/

namespace Command

/-- What is known of a command that is read. -/
def Sound : Command → Prop
  | .profile _ a => SoundLine a.line ∧ a.count ≤ maxPoints ∧
      ∀ layers, a.layers = some layers → SoundLayers layers
  | .raster _ chosen => ∀ layers, chosen = some layers → SoundLayers layers

theorem sound_read {words : List String} {name : CommandName} {command : Command}
    (hread : Command.read words name = .ok command) : command.Sound := by
  cases name with
  | help => cases hread
  | profile format =>
    obtain ⟨given, hgiven, hread⟩ := bind_eq_ok.1 hread
    have hsound := Scope.sound_readFlags hgiven
    split at hread
    · rename_i line hline
      cases hread
      refine ⟨hsound.line line hline, ?_, hsound.layers⟩
      cases hcount : given.count with
      | none => exact (by decide : defaultCount ≤ maxPoints)
      | some n => exact hsound.count n hcount
    · cases hread
  | raster =>
    obtain ⟨given, hgiven, hread⟩ := bind_eq_ok.1 hread
    have hsound := Scope.sound_readFlags hgiven
    split at hread
    · cases hread
      exact hsound.layers
    · cases hread

end Command

/-- **Arguments that are read are sound.** -/
theorem Arguments.sound_read {words : List String} {arguments : Arguments}
    (hread : Arguments.read words = .ok arguments) :
    arguments.config ≠ "" ∧ arguments.command.Sound := by
  unfold Arguments.read at hread
  obtain ⟨⟨s, found⟩, hscan, hread⟩ := bind_eq_ok.1 hread
  have hsound := Scope.sound_scan Given.sound_nothing hscan
  cases found with
  | none =>
    obtain ⟨given, -, hread⟩ := bind_eq_ok.1 hread
    cases hread
  | some found =>
    obtain ⟨command, hcommand, hread⟩ := bind_eq_ok.1 hread
    obtain ⟨given, hgiven, hread⟩ := bind_eq_ok.1 hread
    split at hread
    · rename_i config hconfig
      cases hread
      exact ⟨(Scan.sound_settle hsound hgiven).config config hconfig, Command.sound_read hcommand⟩
    · cases hread

end Transect
