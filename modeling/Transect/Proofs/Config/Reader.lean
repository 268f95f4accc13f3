import Transect.Proofs.Config.Raster

/-!
# Configurations are read as they are written

A configuration is read as what it says, in whatever order its rasters and their members stand. It
is not read at all if there is a member too many at the top or if the object of a raster is spoiled.
-/

namespace Transect

variable {name : String} {v : Json} {members members' front back : List (String × Json)}
  {cause : JsonFault}

namespace Config

open RasterConfig (Settings)

/-! ## All rasters -/

/-- Reads one raster with its name. -/
def readEntry (raster : String × Json) : Except JsonFault (String × RasterConfig) :=
  (RasterConfig.ofDraft (.ofJson raster.2)).map (raster.1, ·)

theorem ofRasters_object (rasters : List (String × Json)) :
    ofRasters (.ofJson (.object rasters)) = (rasters.mapM readEntry).map .ofList := by
  rw [Draft.ofJson, Draft.ofMembers_eq, ofRasters, List.mapM_map]
  change (do
    let rasters ← rasters.mapM readEntry
    Draft.closing none
    return NameMap.ofList rasters) = _
  cases rasters.mapM readEntry <;> rfl

theorem ofRasters_error (h : ofRasters (.ofJson v) = .error cause) : cause = .mismatched := by
  cases v with
  | object rasters =>
    rw [ofRasters_object, map_eq_error, mapM_eq_error_iff] at h
    obtain ⟨front, raster, back, -, -, h⟩ := h
    exact RasterConfig.ofDraft_error (map_eq_error.1 h)
  | _ =>
    cases h
    rfl

/-! ## The whole -/

theorem take_error {config : Option Config} (h : take config (name, .ofJson v) = .error cause) :
    cause = .mismatched := by
  unfold take at h
  split at h
  · rename_i heq
    cases heq
    exact ofRasters_error (map_eq_error.1 h)
  · cases h
    rfl

theorem take_none_eq_ok {found : Option Config} :
    take none (name, .ofJson v) = .ok found ↔
      name = "rasters" ∧ ∃ config, ofRasters (.ofJson v) = .ok config ∧ some config = found := by
  constructor
  · intro h
    unfold take at h
    split at h
    · rename_i heq
      cases heq
      exact ⟨rfl, map_eq_ok.1 h⟩
    · cases h
  · rintro ⟨rfl, h⟩
    exact map_eq_ok.2 h

theorem ofDraft_object (members : List (String × Json)) :
    ofDraft (.ofJson (.object members)) = (do
      match ← (Draft.ofMembers members).foldlM take none with
      | some config => return config
      | none => throw .mismatched) := rfl

theorem ofDraft_error (h : ofDraft (.ofJson (.object members)) = .error cause) :
    cause = .mismatched := by
  rw [ofDraft_object, Draft.ofMembers_eq] at h
  rcases bind_eq_error.1 h with h | ⟨config, -, h⟩
  · obtain ⟨config, draft, hdraft, h⟩ := exists_of_foldlM_eq_error h
    obtain ⟨member, -, rfl⟩ := List.mem_map.1 hdraft
    exact take_error h
  · split at h
    · cases h
    · cases h
      rfl

/-- There is one member and no other. -/
theorem ofDraft_eq_ok {config : Config} :
    ofDraft (.ofJson (.object members)) = .ok config ↔
      ∃ v, members = [("rasters", v)] ∧ ofRasters (.ofJson v) = .ok config := by
  rw [ofDraft_object, bind_eq_ok]
  constructor
  · rintro ⟨found, hfold, h⟩
    rcases members with _ | ⟨⟨name, v⟩, _ | ⟨other, rest⟩⟩
    · cases hfold
      cases h
    · obtain ⟨next, hnext, hlast⟩ := bind_eq_ok.1 hfold
      obtain ⟨rfl, config', hread, rfl⟩ := take_none_eq_ok.1 hnext
      cases hlast
      cases h
      exact ⟨v, rfl, hread⟩
    · obtain ⟨next, hnext, hrest⟩ := bind_eq_ok.1 hfold
      obtain ⟨-, config', -, rfl⟩ := take_none_eq_ok.1 hnext
      obtain ⟨next, hnext, -⟩ := bind_eq_ok.1 hrest
      cases hnext
  · rintro ⟨v, rfl, h⟩
    exact ⟨some config, bind_eq_ok.2 ⟨_, take_none_eq_ok.2 ⟨rfl, config, h, rfl⟩, rfl⟩, rfl⟩

theorem ofText_of_writes {text : String} {doc : Json} (h : Json.Writes text doc) :
    ofText text = (ofDraft (.ofJson doc)).mapError .config := by
  rw [ofText, read, Json.readDocument_of_writes h]
  cases ofDraft (.ofJson doc) <;> rfl

/-- The member of a raster says what its settings are. -/
def EntryWrittenAs (entry : String × Settings) (raster : String × Json) : Prop :=
  raster.1 = entry.1 ∧ ∃ members, raster.2 = .object members ∧ entry.2.WrittenAs members

/-- The document says what the rasters are, which may stand in any order. -/
def WrittenAs (wanted : NameMap Settings) (doc : Json) : Prop :=
  ∃ order rasters, order.Perm wanted.entries ∧ List.Forall₂ EntryWrittenAs order rasters ∧
    doc = .object [("rasters", .object rasters)]

/-- A change of a document after which it says nothing: there is one more member at the top, known
or not, or the object of one raster is spoiled. -/
inductive Spoils : Json → Json → Prop
  | added {front back : List (String × Json)} {name : String} {v : Json} :
    Spoils (.object (front ++ back)) (.object (front ++ (name, v) :: back))
  | raster {front back members members' : List (String × Json)} {name : String}
    (h : RasterConfig.Spoils members members') :
    Spoils (.object [("rasters", .object (front ++ (name, .object members) :: back))])
      (.object [("rasters", .object (front ++ (name, .object members') :: back))])

variable {wanted : NameMap Settings} {doc spoiled : Json}

theorem ofDraft_of_writtenAs (h : WrittenAs wanted doc) :
    ofDraft (.ofJson doc) = .ok (wanted.map Settings.config) := by
  obtain ⟨order, rasters, hperm, hall, rfl⟩ := h
  refine ofDraft_eq_ok.2 ⟨_, rfl, ?_⟩
  rw [ofRasters_object, map_eq_ok]
  refine ⟨order.map fun entry => (entry.1, entry.2.config), ?_, ?_⟩
  · rw [mapM_eq_ok_iff, List.forall₂_map_right_iff]
    refine hall.flip.imp fun raster entry hentry => ?_
    obtain ⟨hname, members, hmembers, hwritten⟩ := hentry
    have hread := RasterConfig.ofDraft_eq_ok.2 hwritten.accepts
    rw [readEntry, hmembers, hname, hread]
    rfl
  · exact NameMap.ofList_of_perm (hperm.map _)

/-- A raster that is spoiled is not read, whatever the others are. -/
theorem ofRasters_of_spoils {order : List (String × Settings)}
    (h : List.Forall₂ EntryWrittenAs order (front ++ (name, .object members) :: back))
    (hspoils : RasterConfig.Spoils members members') (config : Config) :
    ofRasters (.ofJson (.object (front ++ (name, .object members') :: back))) ≠ .ok config := by
  intro hread
  rw [ofRasters_object, map_eq_ok] at hread
  obtain ⟨entries, hentries, -⟩ := hread
  obtain ⟨entry, hentry⟩ :=
    exists_of_mapM_eq_ok hentries (a := (name, .object members')) (by simp)
  obtain ⟨c, hc, -⟩ := map_eq_ok.1 hentry
  obtain ⟨wanted, -, ⟨-, written, heq, hwritten⟩, -⟩ :=
    List.forall₂_cons_right_iff.1 (List.forall₂_drop_append _ _ _ h)
  cases heq
  rw [RasterConfig.ofDraft_of_spoils hwritten hspoils] at hc
  cases hc

theorem ofDraft_of_spoils (h : WrittenAs wanted doc) (hspoils : Spoils doc spoiled) :
    ofDraft (.ofJson spoiled) = .error .mismatched := by
  obtain ⟨order, rasters, -, hall, hdoc⟩ := h
  cases hspoils with
  | @added front back name v =>
    have hlength : (front ++ back).length = 1 := by
      rw [Json.object.inj hdoc, List.length_singleton]
    cases hread : ofDraft (.ofJson (.object (front ++ (name, v) :: back))) with
    | ok config =>
      obtain ⟨w, hone, -⟩ := ofDraft_eq_ok.1 hread
      have := congrArg List.length hone
      simp only [List.length_append, List.length_cons, List.length_nil] at this hlength
      omega
    | error cause => rw [ofDraft_error hread]
  | @raster front back members members' name hraster =>
    obtain ⟨hrasters, -⟩ := List.cons.inj (Json.object.inj hdoc)
    obtain rfl : front ++ (name, .object members) :: back = rasters :=
      Json.object.inj (Prod.mk.inj hrasters).2
    cases hread : ofDraft (.ofJson (.object
        [("rasters", .object (front ++ (name, .object members') :: back))])) with
    | ok config =>
      obtain ⟨w, hone, hok⟩ := ofDraft_eq_ok.1 hread
      obtain ⟨hfirst, -⟩ := List.cons.inj hone
      obtain rfl := (Prod.mk.inj hfirst).2
      exact absurd hok (ofRasters_of_spoils hall hraster config)
    | error cause => rw [ofDraft_error hread]

/-- **A configuration is read exactly as it is written**, and not at all once it is spoiled. -/
theorem ofText_exact (h : WrittenAs wanted doc) :
    (∀ text, Json.Writes text doc → ofText text = .ok (wanted.map Settings.config)) ∧
      ∀ text spoiled, Spoils doc spoiled → Json.Writes text spoiled →
        ofText text = .error (.config .mismatched) := by
  constructor
  · intro text htext
    rw [ofText_of_writes htext, ofDraft_of_writtenAs h]
    rfl
  · intro text spoiled hspoils htext
    rw [ofText_of_writes htext, ofDraft_of_spoils h hspoils]
    rfl

/-! ## One raster -/

open Json (ScalarText ValueText writeObject writeString)

/-- The members of a raster, which are given with their texts. -/
def membersOf (parts : List (String × List Char × Json)) : List (String × Json) :=
  parts.map fun part => (part.1, part.2.2)

def document (parts : List (String × List Char × Json)) : Json :=
  .object [("rasters", .object [("srtm", .object (membersOf parts))])]

def documentText (parts : List (String × List Char × Json)) : String :=
  .ofList (writeObject [("rasters",
    writeObject [("srtm", writeObject (parts.map fun part => (part.1, part.2.1)))])])

theorem writes_document {parts : List (String × List Char × Json)}
    (h : ∀ part ∈ parts, ScalarText part.2.2 part.2.1) :
    Json.Writes (documentText parts) (document parts) := by
  have hraster : ValueText 125 _ _ :=
    .inr (Json.nestedText_writeObject parts fun part hpart =>
      Json.valueText_scalar (h part hpart) 124)
  have hrasters : ValueText 126 _ _ :=
    .inr (Json.nestedText_writeObject [("srtm", _, _)] (List.forall_mem_singleton.2 hraster))
  have hdocument : ValueText Json.maxDepth _ _ :=
    .inr (Json.nestedText_writeObject [("rasters", _, _)] (List.forall_mem_singleton.2 hrasters))
  have hwrites := Json.PaddedText.mk Json.blankText_nil hdocument Json.blankText_nil
  rw [List.nil_append, List.append_nil] at hwrites
  rw [Json.Writes, documentText, String.toList_ofList]
  exact hwrites

def srtm : NameMap Settings :=
  ⟨[("srtm", ⟨"data/3arcsecond", none, some 1, none⟩)], List.pairwise_singleton _ _⟩

def srtmParts : List (String × List Char × Json) := [
  ("type", writeString "hgt", .string "hgt"),
  ("dir", writeString "data/3arcsecond", .string "data/3arcsecond"),
  ("round", ['1'], .number ['1'])]

def roundAgain : String × List Char × Json := ("round", ['n', 'u', 'l', 'l'], .null)

theorem scalarText_srtmParts :
    ∀ part ∈ srtmParts ++ [roundAgain], ScalarText part.2.2 part.2.1 := by
  have hone : Json.NumberText ([] ++ ['1'] ++ [] ++ []) :=
    .mk List.mem_cons_self ⟨by simp, by simp⟩ (by simp) .absent .absent
  simp only [srtmParts, List.forall_mem_append, List.forall_mem_cons]
  exact ⟨⟨.string (Json.stringText_writeString _), .string (Json.stringText_writeString _),
    .number hone (by decide +kernel), by simp⟩, .nullWord, by simp⟩

theorem srtm_exact :
    WrittenAs srtm (document srtmParts) ∧
      ofText (documentText srtmParts) =
        .ok ⟨[("srtm", ⟨"data/3arcsecond", .mapped, some 1, none⟩)],
          List.pairwise_singleton _ _⟩ ∧
      ofText (documentText (srtmParts ++ [roundAgain])) = .error (.config .mismatched) := by
  have hwritten : WrittenAs srtm (document srtmParts) := by
    refine ⟨_, _, .refl _, .cons ⟨rfl, _, rfl, ?_⟩ .nil, rfl⟩
    exact ⟨rfl, rfl, rfl, .number (by decide +kernel), .absent⟩
  have hraster : RasterConfig.Spoils (membersOf srtmParts ++ [])
      (membersOf srtmParts ++ ("round", .null) :: []) := .repeated (by decide) (by decide)
  have hspoils : Spoils (.object [("rasters", .object ([] ++ [("srtm", _)]))])
      (.object [("rasters", .object ([] ++ [("srtm", _)]))]) := .raster hraster
  obtain ⟨hread, hspoiled⟩ := ofText_exact hwritten
  have hparts := List.forall_mem_append.1 scalarText_srtmParts
  exact ⟨hwritten, hread _ (writes_document hparts.1),
    hspoiled _ _ hspoils (writes_document scalarText_srtmParts)⟩

end Config

end Transect
