import Transect.Config.Reader
import Transect.Proofs.Except
import Transect.Proofs.Json.Completeness

/-!
# The object of a raster

Its members may stand in any order, and those that are not known are ignored. The two numbers are
taken while the object is read, the other members when all of them are there. A member that is
needed and missing, another type, or a known member that is there twice makes it no raster.
-/

namespace Transect

variable {name field : String} {v : Json} {members front back : List (String × Json)}
  {members' : List (String × Json)} {cause : JsonFault}

namespace Json

/-! ## Members -/

/-- The values of the members of a name. -/
def valuesOf (name : String) (members : List (String × Json)) : List Json :=
  (members.filter (·.1 == name)).map (·.2)

theorem valuesOf_cons (name field : String) (v : Json) (members : List (String × Json)) :
    valuesOf name ((field, v) :: members) =
      if field = name then v :: valuesOf name members else valuesOf name members := by
  unfold valuesOf
  split_ifs with h
  · rw [List.filter_cons_of_pos (by simpa using h), List.map_cons]
  · rw [List.filter_cons_of_neg (by simpa using h)]

theorem valuesOf_append (name : String) (front back : List (String × Json)) :
    valuesOf name (front ++ back) = valuesOf name front ++ valuesOf name back := by
  rw [valuesOf, List.filter_append, List.map_append]
  rfl

theorem valuesOf_insert (field : String) (v : Json) (front back : List (String × Json)) :
    valuesOf field (front ++ (field, v) :: back) =
      valuesOf field front ++ v :: valuesOf field back := by
  rw [valuesOf_append, valuesOf_cons, if_pos rfl]

theorem valuesOf_ne_nil (h : field ∈ members.map (·.1)) : valuesOf field members ≠ [] := by
  obtain ⟨member, hmember, rfl⟩ := List.mem_map.1 h
  have hmem : member ∈ members.filter (·.1 == member.1) := List.mem_filter.2 ⟨hmember, by simp⟩
  exact List.ne_nil_of_mem (List.mem_map.2 ⟨member, hmem, rfl⟩)

end Json

open Json (valuesOf)

namespace RasterConfig

/-! ## Members that are taken at once -/

/-- One more value of a number that may be given once. -/
def once (found : Option (Option Float)) (v : Json) : Except JsonFault (Option (Option Float)) :=
  if found.isSome then .error .mismatched else (readNumber (.ofJson v)).map some

theorem readNumber_error (h : readNumber (.ofJson v) = .error cause) : cause = .mismatched := by
  cases v <;> cases h <;> rfl

theorem once_error {found : Option (Option Float)} (h : once found v = .error cause) :
    cause = .mismatched := by
  rw [once] at h
  split_ifs at h
  · cases h
    rfl
  · exact readNumber_error (map_eq_error.1 h)

/-- A number is given by no value or by one. -/
def Gives (vs : List Json) (x : Option Float) : Prop :=
  (vs = [] ∧ x = none) ∨ ∃ v, vs = [v] ∧ readNumber (.ofJson v) = .ok x

theorem foldlM_once_some (x : Option Float) (vs : List Json) {found : Option (Option Float)} :
    vs.foldlM once (some x) = .ok found ↔ vs = [] ∧ found = some x := by
  cases vs with
  | nil =>
    rw [List.foldlM_nil, pure_eq_ok]
    simp [eq_comm]
  | cons v vs => simp [once, bind, Except.bind]

theorem foldlM_once {vs : List Json} {found : Option (Option Float)} :
    vs.foldlM once none = .ok found ↔
      (vs = [] ∧ found = none) ∨
        ∃ v x, vs = [v] ∧ readNumber (.ofJson v) = .ok x ∧ found = some x := by
  cases vs with
  | nil =>
    rw [List.foldlM_nil, pure_eq_ok]
    simp [eq_comm]
  | cons v vs =>
    rw [List.foldlM_cons, bind_eq_ok]
    constructor
    · rintro ⟨next, hnext, hrest⟩
      obtain ⟨x, hx, rfl⟩ := map_eq_ok.1 hnext
      obtain ⟨rfl, rfl⟩ := (foldlM_once_some x vs).1 hrest
      exact .inr ⟨v, x, rfl, hx, rfl⟩
    · rintro (⟨h, -⟩ | ⟨v', x, hvs, hx, rfl⟩)
      · cases h
      · cases hvs
        exact ⟨some x, map_eq_ok.2 ⟨x, hx, rfl⟩, (foldlM_once_some x []).2 ⟨rfl, rfl⟩⟩

theorem exists_foldlM_once {vs : List Json} {x : Option Float} :
    (∃ found, vs.foldlM once none = .ok found ∧ found.join = x) ↔ Gives vs x := by
  simp only [foldlM_once, Gives]
  constructor
  · rintro ⟨found, ⟨rfl, rfl⟩ | ⟨v, x, rfl, hx, rfl⟩, rfl⟩
    · exact .inl ⟨rfl, rfl⟩
    · exact .inr ⟨v, rfl, hx⟩
  · rintro (⟨rfl, rfl⟩ | ⟨v, rfl, hx⟩)
    · exact ⟨none, .inl ⟨rfl, rfl⟩, rfl⟩
    · exact ⟨some x, .inr ⟨v, x, rfl, hx, rfl⟩, rfl⟩

/-! ## All members -/

/-- Whether a member is kept for later. -/
def isOther (name : String) : Bool := name != "round" && name != "nodata"

theorem take_round (fields : Fields) (v : Json) :
    fields.take ("round", .ofJson v) =
      (once fields.round v).map fun x => { fields with round := x } := by
  rw [Fields.take, once]
  split_ifs
  · rfl
  · cases readNumber (.ofJson v) <;> rfl

theorem take_nodata (fields : Fields) (v : Json) :
    fields.take ("nodata", .ofJson v) =
      (once fields.nodata v).map fun x => { fields with nodata := x } := by
  rw [Fields.take, once]
  split_ifs
  · rfl
  · cases readNumber (.ofJson v) <;> rfl

theorem ne_of_isOther (h : isOther name = true) : name ≠ "round" ∧ name ≠ "nodata" := by
  simpa only [isOther, Bool.and_eq_true, bne_iff_ne] using h

theorem take_other (h : isOther name = true) (fields : Fields) (v : Json) :
    fields.take (name, .ofJson v) = .ok { fields with others := (name, v) :: fields.others } := by
  rw [Fields.take, Draft.complete_ofJson]
  · rfl
  · exact (ne_of_isOther h).1
  · exact (ne_of_isOther h).2

theorem isOther_cases (name : String) :
    name = "round" ∨ name = "nodata" ∨ isOther name = true := by
  by_cases hround : name = "round"
  · exact .inl hround
  · by_cases hnodata : name = "nodata"
    · exact .inr (.inl hnodata)
    · simp [isOther, hround, hnodata]

/-- The numbers are taken apart from each other and from the other members, which are all kept. -/
theorem foldlM_take_eq_ok {fields fields' : Fields} :
    (Draft.ofMembers members).foldlM Fields.take fields = .ok fields' ↔
      (valuesOf "round" members).foldlM once fields.round = .ok fields'.round ∧
        (valuesOf "nodata" members).foldlM once fields.nodata = .ok fields'.nodata ∧
        fields'.others = (members.filter (isOther ·.1)).reverse ++ fields.others := by
  induction members generalizing fields with
  | nil =>
    obtain ⟨round, nodata, others⟩ := fields
    obtain ⟨round', nodata', others'⟩ := fields'
    simp only [Draft.ofMembers, valuesOf, List.map_nil, List.filter_nil, List.foldlM_nil, pure_eq_ok,
      List.reverse_nil, List.nil_append, Fields.mk.injEq]
    tauto
  | cons member members ih =>
    obtain ⟨name, v⟩ := member
    rw [Draft.ofMembers, List.foldlM_cons, bind_eq_ok]
    simp only [Json.valuesOf_cons, ih]
    rcases isOther_cases name with rfl | rfl | hother
    · simp only [take_round, map_eq_ok, if_true, List.foldlM_cons, bind_eq_ok]
      constructor
      · rintro ⟨next, ⟨x, hx, rfl⟩, hround, hnodata, hothers⟩
        exact ⟨⟨x, hx, hround⟩, hnodata, hothers⟩
      · rintro ⟨⟨x, hx, hround⟩, hnodata, hothers⟩
        exact ⟨_, ⟨x, hx, rfl⟩, hround, hnodata, hothers⟩
    · simp only [take_nodata, map_eq_ok, if_true, List.foldlM_cons, bind_eq_ok]
      constructor
      · rintro ⟨next, ⟨x, hx, rfl⟩, hround, hnodata, hothers⟩
        exact ⟨hround, ⟨x, hx, hnodata⟩, hothers⟩
      · rintro ⟨hround, ⟨x, hx, hnodata⟩, hothers⟩
        exact ⟨_, ⟨x, hx, rfl⟩, hround, hnodata, hothers⟩
    · have hkept : ((name, v) :: members).filter (isOther ·.1) =
          (name, v) :: members.filter (isOther ·.1) := List.filter_cons_of_pos hother
      obtain ⟨hround, hnodata⟩ := ne_of_isOther hother
      rw [hkept, List.reverse_cons, List.append_assoc]
      simp only [take_other hother, if_neg hround, if_neg hnodata, Except.ok.injEq,
        exists_eq_left', List.singleton_append]

theorem take_error {fields : Fields} (h : fields.take (name, .ofJson v) = .error cause) :
    cause = .mismatched := by
  rcases isOther_cases name with rfl | rfl | hother
  · exact once_error (map_eq_error.1 (take_round fields v ▸ h))
  · exact once_error (map_eq_error.1 (take_nodata fields v ▸ h))
  · rw [take_other hother] at h
    cases h

theorem foldlM_take_error {fields : Fields}
    (h : (Draft.ofMembers members).foldlM Fields.take fields = .error cause) : cause = .mismatched := by
  rw [Draft.ofMembers_eq] at h
  obtain ⟨fields', draft, hdraft, h⟩ := exists_of_foldlM_eq_error h
  obtain ⟨member, -, rfl⟩ := List.mem_map.1 hdraft
  exact take_error h

/-! ## Rasters -/

/-- What the members of a raster are read as. -/
structure Accepts (members : List (String × Json)) (c : RasterConfig) : Prop where
  type : ∃ v, valuesOf "type" members = [v] ∧ isHeightType v = true
  directory : valuesOf "dir" members = [.string c.directory]
  storage : (valuesOf "mode" members = [] ∧ c.storage = .mapped) ∨
    ∃ v, valuesOf "mode" members = [v] ∧ readStorage? v = some c.storage
  round : Gives (valuesOf "round" members) c.round
  nodata : Gives (valuesOf "nodata" members) c.nodata

theorem config?_eq_some {fields : Fields} {c : RasterConfig} :
    fields.config? = some c ↔
      (∃ v, fields.named "type" = [v] ∧ isHeightType v = true) ∧
        fields.named "dir" = [.string c.directory] ∧
        ((fields.named "mode" = [] ∧ c.storage = .mapped) ∨
          ∃ v, fields.named "mode" = [v] ∧ readStorage? v = some c.storage) ∧
        fields.round.join = c.round ∧ fields.nodata.join = c.nodata := by
  obtain ⟨directory, storage, round, nodata⟩ := c
  unfold Fields.config?
  generalize fields.named "type" = types
  generalize fields.named "dir" = directories
  generalize fields.named "mode" = modes
  rcases types with _ | ⟨v, _ | ⟨w, vs⟩⟩
  · simp
  · rcases directories with _ | ⟨d, _ | ⟨d', ds⟩⟩
    · simp
    · cases d with
      | string s =>
        by_cases htype : isHeightType v = true
        · rcases modes with _ | ⟨m, _ | ⟨m', ms⟩⟩
          · simp [htype, @eq_comm _ storage]
          · cases hmode : readStorage? m <;> simp [htype, hmode]
          · simp [htype]
        · simp [htype]
      | _ => simp
    · simp
  · simp

theorem named_eq {fields : Fields} (h : fields.others = (members.filter (isOther ·.1)).reverse)
    (hname : isOther name = true) : fields.named name = (valuesOf name members).reverse := by
  rw [Fields.named, h, List.filter_reverse, List.filter_filter, List.map_reverse, valuesOf]
  congr 2
  refine List.filter_congr fun member _ => ?_
  by_cases heq : member.1 = name
  · rw [heq, hname, Bool.and_true]
  · simp [heq]

theorem config?_iff {fields : Fields} {c : RasterConfig}
    (h : fields.others = (members.filter (isOther ·.1)).reverse) :
    fields.config? = some c ↔
      (∃ v, valuesOf "type" members = [v] ∧ isHeightType v = true) ∧
        valuesOf "dir" members = [.string c.directory] ∧
        ((valuesOf "mode" members = [] ∧ c.storage = .mapped) ∨
          ∃ v, valuesOf "mode" members = [v] ∧ readStorage? v = some c.storage) ∧
        fields.round.join = c.round ∧ fields.nodata.join = c.nodata := by
  rw [config?_eq_some, named_eq h rfl, named_eq h rfl, named_eq h rfl]
  simp only [List.reverse_eq_iff, List.reverse_singleton, List.reverse_nil]

/-- The members are read to their end before they are looked at together. -/
theorem ofDraft_object (members : List (String × Json)) :
    ofDraft (.ofJson (.object members)) = (do
      let fields ← (Draft.ofMembers members).foldlM Fields.take ⟨none, none, []⟩
      match fields.config? with
      | some config => return config
      | none => throw .mismatched) := rfl

theorem ofDraft_eq_ok {c : RasterConfig} :
    ofDraft (.ofJson (.object members)) = .ok c ↔ Accepts members c := by
  have hconfig (fields : Fields) : (match fields.config? with
      | some config => return config
      | none => throw .mismatched : Except JsonFault RasterConfig) = .ok c ↔
        fields.config? = some c := by
    cases fields.config? <;> simp [pure, Except.pure, throw, throwThe, MonadExceptOf.throw]
  simp only [ofDraft_object, bind_eq_ok, hconfig, foldlM_take_eq_ok, List.append_nil]
  constructor
  · rintro ⟨fields, ⟨hround, hnodata, hothers⟩, h⟩
    obtain ⟨htype, hdirectory, hstorage, hjoin, hjoin'⟩ := (config?_iff hothers).1 h
    exact ⟨htype, hdirectory, hstorage, exists_foldlM_once.1 ⟨_, hround, hjoin⟩,
      exists_foldlM_once.1 ⟨_, hnodata, hjoin'⟩⟩
  · intro h
    obtain ⟨round, hround, hjoin⟩ := exists_foldlM_once.2 h.round
    obtain ⟨nodata, hnodata, hjoin'⟩ := exists_foldlM_once.2 h.nodata
    refine ⟨⟨round, nodata, (members.filter (isOther ·.1)).reverse⟩, ⟨hround, hnodata, rfl⟩, ?_⟩
    exact (config?_iff rfl).2 ⟨h.type, h.directory, h.storage, hjoin, hjoin'⟩

theorem ofDraft_error (h : ofDraft (.ofJson v) = .error cause) : cause = .mismatched := by
  cases v with
  | object members =>
    rw [ofDraft_object] at h
    rcases bind_eq_error.1 h with h | ⟨fields, -, h⟩
    · exact foldlM_take_error h
    · split at h
      · cases h
      · cases h
        rfl
  | _ =>
    cases h
    rfl

/-! ## What is written for a raster -/

/-- What a configuration says of a raster. -/
structure Settings where
  directory : String
  storage : Option Storage
  round : Option Float
  nodata : Option Float

/-- Files are mapped if nothing else is said. -/
def Settings.config (s : Settings) : RasterConfig :=
  ⟨s.directory, s.storage.getD .mapped, s.round, s.nodata⟩

def storageWord : Storage → String
  | .inMemory => "inmem"
  | .mapped => "memmap"

/-- The values of a number that may be left out. -/
inductive NumberValues : Option Float → List Json → Prop
  | absent : NumberValues none []
  | null : NumberValues none [.null]
  | number {literal : List Char} {x : Float} (h : Json.value? literal = some x) :
    NumberValues (some x) [.number literal]

/-- The members say what the settings are. They may stand in any order with any others. -/
structure Settings.WrittenAs (s : Settings) (members : List (String × Json)) : Prop where
  type : valuesOf "type" members = [.string "hgt"]
  directory : valuesOf "dir" members = [.string s.directory]
  storage : valuesOf "mode" members = (s.storage.map fun mode => .string (storageWord mode)).toList
  round : NumberValues s.round (valuesOf "round" members)
  nodata : NumberValues s.nodata (valuesOf "nodata" members)

theorem NumberValues.gives {x : Option Float} {vs : List Json} (h : NumberValues x vs) :
    Gives vs x := by
  cases h with
  | absent => exact .inl ⟨rfl, rfl⟩
  | null => exact .inr ⟨.null, rfl, rfl⟩
  | @number literal x h => exact .inr ⟨.number literal, rfl, congrArg Except.ok h⟩

variable {s : Settings} {c : RasterConfig}

theorem Settings.WrittenAs.accepts (h : s.WrittenAs members) : Accepts members s.config := by
  refine ⟨⟨_, h.type, rfl⟩, h.directory, ?_, h.round.gives, h.nodata.gives⟩
  have hmode := h.storage
  cases hs : s.storage with
  | none =>
    rw [hs] at hmode
    exact .inl ⟨hmode, by rw [config, hs]; rfl⟩
  | some mode =>
    rw [hs] at hmode
    refine .inr ⟨_, hmode, ?_⟩
    rw [config, hs]
    cases mode <;> rfl

/-! ## What is no raster -/

/-- The members that are looked at. -/
def knownFields : List String := ["type", "dir", "mode", "round", "nodata"]

/-- A change of the members after which they say nothing: a member that is needed is gone, the type
is another one, or a known member is there once more with any value. -/
inductive Spoils : List (String × Json) → List (String × Json) → Prop
  | removed {front back : List (String × Json)} {field : String} {v : Json}
    (h : field = "type" ∨ field = "dir") : Spoils (front ++ (field, v) :: back) (front ++ back)
  | retyped {front back : List (String × Json)} {v : Json} {other : String} (h : other ≠ "hgt") :
    Spoils (front ++ ("type", v) :: back) (front ++ ("type", .string other) :: back)
  | repeated {front back : List (String × Json)} {field : String} {v : Json}
    (hknown : field ∈ knownFields) (hthere : field ∈ (front ++ back).map (·.1)) :
    Spoils (front ++ back) (front ++ (field, v) :: back)

theorem Gives.length_le {vs : List Json} {x : Option Float} (h : Gives vs x) : vs.length ≤ 1 := by
  rcases h with ⟨rfl, -⟩ | ⟨v, rfl, -⟩ <;> simp

theorem Accepts.length_le (h : Accepts members c) (hfield : field ∈ knownFields) :
    (valuesOf field members).length ≤ 1 := by
  simp only [knownFields, List.mem_cons, List.not_mem_nil, or_false] at hfield
  rcases hfield with rfl | rfl | rfl | rfl | rfl
  · obtain ⟨v, hv, -⟩ := h.type
    simp [hv]
  · simp [h.directory]
  · rcases h.storage with ⟨hnil, -⟩ | ⟨v, hv, -⟩
    · simp [hnil]
    · simp [hv]
  · exact h.round.length_le
  · exact h.nodata.length_le

theorem not_accepts_of_spoils (h : s.WrittenAs members) (hspoils : Spoils members members') :
    ¬ Accepts members' c := by
  intro haccepts
  cases hspoils with
  | @removed front back field v hfield =>
    have hlength : (valuesOf field front ++ v :: valuesOf field back).length = 1 := by
      rw [← Json.valuesOf_insert]
      rcases hfield with rfl | rfl
      · rw [h.type, List.length_singleton]
      · rw [h.directory, List.length_singleton]
    have hleft : (valuesOf field (front ++ back)).length = 1 := by
      rcases hfield with rfl | rfl
      · obtain ⟨w, hw, -⟩ := haccepts.type
        rw [hw, List.length_singleton]
      · rw [haccepts.directory, List.length_singleton]
    simp only [Json.valuesOf_append, List.length_append, List.length_cons] at hlength hleft
    omega
  | @retyped front back v other hother =>
    have hlength : (valuesOf "type" front ++ v :: valuesOf "type" back).length = 1 := by
      rw [← Json.valuesOf_insert, h.type, List.length_singleton]
    simp only [List.length_append, List.length_cons] at hlength
    have hfront := List.eq_nil_of_length_eq_zero (show (valuesOf "type" front).length = 0 by omega)
    have hback := List.eq_nil_of_length_eq_zero (show (valuesOf "type" back).length = 0 by omega)
    obtain ⟨w, hw, htype⟩ := haccepts.type
    rw [Json.valuesOf_insert, hfront, hback, List.nil_append] at hw
    obtain ⟨rfl, -⟩ := List.cons.inj hw
    exact hother (by simpa [isHeightType] using htype)
  | @repeated front back field v hknown hthere =>
    have hlength := haccepts.length_le hknown
    have hpos := List.length_pos_of_ne_nil (Json.valuesOf_ne_nil hthere)
    rw [Json.valuesOf_insert] at hlength
    simp only [Json.valuesOf_append, List.length_append, List.length_cons] at hlength hpos
    omega

theorem ofDraft_of_spoils (h : s.WrittenAs members) (hspoils : Spoils members members') :
    ofDraft (.ofJson (.object members')) = .error .mismatched := by
  cases hread : ofDraft (.ofJson (.object members')) with
  | ok c => exact absurd (ofDraft_eq_ok.1 hread) (not_accepts_of_spoils h hspoils)
  | error cause => rw [ofDraft_error hread]

end RasterConfig

end Transect
