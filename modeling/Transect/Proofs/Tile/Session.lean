import Transect.Proofs.Tile.Cache
import Transect.Tile.Session

/-!
# The cache over whole runs

A store stays open through lookups and through changes of the files from outside.
`Session.KeepsTiles` says what holds of its cache at one moment for this step and all that can
follow. `after_keepsTiles` shows it at every moment of every run.
-/

namespace Transect

open Square (containing)

/-! ## Steps -/

namespace Step

/-- Whether the store stays open. -/
def keepsStore : Step → Bool
  | .openDirectory .. => false
  | _ => true

/-- The point that a lookup asks for, and what it answers with the tile there. -/
def lookup? : Step → Option (Point × (Tile → Answer))
  | .get p => some (p, .tile)
  | .value p => some (p, fun tile => .value ((tile.elevation? p).map fun e => floatOfInt e.toInt))
  | _ => none

variable {step : Step} {p : Point} {answer : Tile → Answer}

theorem answer_ne_failed (h : step.lookup? = some (p, answer)) (tile : Tile) (cause : Error) :
    answer tile ≠ .failed cause := by
  cases step <;> cases h <;> simp

end Step

namespace Session

variable {s : Session} {store : TileStore} {step : Step} {p : Point} {answer : Tile → Answer}

def after (s : Session) (steps : List Step) : Session := (s.run steps).2

theorem after_nil (s : Session) : s.after [] = s := rfl

theorem after_cons (s : Session) (step : Step) (steps : List Step) :
    s.after (step :: steps) = (s.step step).2.after steps := rfl

/-! ## One step -/

theorem step_lookup (hs : s.store = some store) (h : step.lookup? = some (p, answer)) :
    s.step step =
      (match store.tileAt s.tree (containing p) with
        | .ok tile => answer tile
        | .error cause => .failed cause,
        { s with store := some (store.keep s.tree (containing p)) }) := by
  cases step <;> cases h
  · simp only [Session.step, withStore, hs, TileStore.get_eq]
    cases store.tileAt s.tree (containing p) <;> rfl
  · simp only [Session.step, withStore, hs, TileStore.value_eq]
    cases store.tileAt s.tree (containing p) <;> rfl

theorem step_store_of_not_lookup (hk : step.keepsStore = true) (h : step.lookup? = none) :
    (s.step step).2.store = s.store := by
  cases step with
  | openDirectory => cases hk
  | get | value => cases h
  | write | makeDirectory | remove => rfl

/-- What one step can do to the store. -/
theorem step_store_cases (hs : s.store = some store) (hk : step.keepsStore = true) :
    (s.step step).2.store = some store ∨
      ∃ p answer tile, step.lookup? = some (p, answer) ∧
        store.loaded.lookup (containing p) = none ∧
        store.load s.tree (containing p) = .ok tile ∧
        (s.step step).2.store =
          some { store with loaded := (containing p, tile) :: store.loaded } := by
  cases hl : step.lookup? with
  | none =>
    left
    rw [step_store_of_not_lookup hk hl, hs]
  | some asked =>
    obtain ⟨p, answer⟩ := asked
    rw [step_lookup hs hl]
    rcases TileStore.keep_cases s.tree store (containing p) with h | ⟨tile, hnone, hload, h⟩
    · exact .inl (congrArg some h)
    · exact .inr ⟨p, answer, tile, rfl, hnone, hload, congrArg some h⟩

theorem step_sound (hs : s.store = some store) (hk : step.keepsStore = true) (h : store.Sound) :
    ∃ next, (s.step step).2.store = some next ∧ next.Sound ∧ store.loaded <:+ next.loaded := by
  cases hl : step.lookup? with
  | none =>
    exact ⟨store, by rw [step_store_of_not_lookup hk hl, hs], h, List.suffix_rfl⟩
  | some asked =>
    obtain ⟨p, answer⟩ := asked
    refine ⟨store.keep s.tree (containing p), by rw [step_lookup hs hl], h.keep _ _, ?_⟩
    rcases TileStore.keep_cases s.tree store (containing p) with heq | ⟨tile, -, -, heq⟩
    · rw [heq]
    · rw [heq]
      exact List.suffix_cons _ _

theorem step_tileAt (hs : s.store = some store) (h : step.lookup?.isSome) :
    (s.step step).2.tree = s.tree ∧ ∃ next, (s.step step).2.store = some next ∧
      ∀ square, next.tileAt s.tree square = store.tileAt s.tree square := by
  obtain ⟨⟨p, answer⟩, hl⟩ := Option.isSome_iff_exists.1 h
  rw [step_lookup hs hl]
  exact ⟨rfl, _, rfl, TileStore.tileAt_keep s.tree store (containing p)⟩

/-! ## Whole runs -/

/-- From a sound store every run leads to a sound store with all entries that were there. -/
theorem after_sound (hs : s.store = some store) (h : store.Sound) (steps : List Step)
    (hk : ∀ step ∈ steps, step.keepsStore = true) :
    ∃ last, (s.after steps).store = some last ∧ last.Sound ∧ store.loaded <:+ last.loaded := by
  induction steps generalizing s store with
  | nil =>
    rw [after_nil]
    exact ⟨store, hs, h, List.suffix_rfl⟩
  | cons step steps ih =>
    rw [after_cons]
    obtain ⟨next, hnext, hsound, hsuffix⟩ := step_sound hs (hk step List.mem_cons_self) h
    obtain ⟨last, hlast, hlastSound, hlastSuffix⟩ :=
      ih hnext hsound fun step hstep => hk step (List.mem_cons_of_mem _ hstep)
    exact ⟨last, hlast, hlastSound, hsuffix.trans hlastSuffix⟩

theorem after_tileAt (hs : s.store = some store) (lookups : List Step)
    (hl : ∀ step ∈ lookups, step.lookup?.isSome) :
    (s.after lookups).tree = s.tree ∧ ∃ last, (s.after lookups).store = some last ∧
      ∀ square, last.tileAt s.tree square = store.tileAt s.tree square := by
  induction lookups generalizing s store with
  | nil =>
    rw [after_nil]
    exact ⟨rfl, store, hs, fun _ => rfl⟩
  | cons step lookups ih =>
    rw [after_cons]
    obtain ⟨htree, next, hnext, hsame⟩ := step_tileAt hs (hl step List.mem_cons_self)
    obtain ⟨htree', last, hlast, hsame'⟩ :=
      ih hnext fun step hstep => hl step (List.mem_cons_of_mem _ hstep)
    rw [htree] at htree' hsame'
    exact ⟨htree', last, hlast, fun square => (hsame' square).trans (hsame square)⟩

/-- An entry answers every later lookup in its square, and the lookup changes nothing. -/
theorem step_after_of_mem (hs : s.store = some store) (h : store.Sound) {square : Square}
    {tile : Tile} (hmem : (square, tile) ∈ store.loaded) (later : List Step)
    (hk : ∀ step ∈ later, step.keepsStore = true) (hl : step.lookup? = some (p, answer))
    (hp : containing p = square) : (s.after later).step step = (answer tile, s.after later) := by
  subst hp
  obtain ⟨last, hlast, hsound, hsuffix⟩ := after_sound hs h later hk
  have hkept := hsound.lookup_eq_some_iff.2 (hsuffix.subset hmem)
  have htile : last.tileAt (s.after later).tree (containing p) = .ok tile := by
    rw [TileStore.tileAt, hkept]
  have hkeep : last.keep (s.after later).tree (containing p) = last := by
    rcases TileStore.keep_cases (s.after later).tree last (containing p) with heq | ⟨_, hnone, -⟩
    · exact heq
    · rw [hkept] at hnone
      cases hnone
  rw [step_lookup hlast hl, htile, hkeep, ← hlast]

/-! ## The laws of the cache -/

/-- What holds of the cache at one moment, for the next step and for all that can follow. -/
structure KeepsTiles (s : Session) (store : TileStore) : Prop where
  /-- A tile is kept under its own square. -/
  square : ∀ entry ∈ store.loaded, entry.2.square = entry.1
  /-- A square is kept once. -/
  once : (store.loaded.map (·.1)).Nodup
  /-- A step adds at most one entry, that of the square it asks for, and takes none away. -/
  adds : ∀ step, step.keepsStore = true → (s.step step).2.store = some store ∨
    ∃ p answer tile, step.lookup? = some (p, answer) ∧
      store.loaded.lookup (containing p) = none ∧
      (s.step step).2.store = some { store with loaded := (containing p, tile) :: store.loaded }
  /-- A lookup that fails leaves everything as it was. -/
  failed : ∀ step p answer cause, step.lookup? = some (p, answer) →
    (s.step step).1 = .failed cause → (s.step step).2 = s
  /-- The first lookup in a square answers with what loading comes to on the files as they are. -/
  first : ∀ step p answer, step.lookup? = some (p, answer) →
    store.loaded.lookup (containing p) = none →
    (s.step step).1 = match store.load s.tree (containing p) with
      | .ok tile => answer tile
      | .error cause => .failed cause
  /-- A lookup fails, or its tile answers every later lookup in the square, whatever happens to the
  files, and these change nothing. -/
  same : ∀ step p answer, step.lookup? = some (p, answer) →
    (∃ cause, (s.step step).1 = .failed cause) ∨
      ∃ tile, (s.step step).1 = answer tile ∧
        ∀ later : List Step, (∀ step ∈ later, step.keepsStore = true) →
        ∀ again q reply, again.lookup? = some (q, reply) → containing q = containing p →
          ((s.step step).2.after later).step again = (reply tile, (s.step step).2.after later)
  /-- No run takes an entry away or puts another in its place. -/
  stays : ∀ later : List Step, (∀ step ∈ later, step.keepsStore = true) →
    ∃ last, (s.after later).store = some last ∧ store.loaded <:+ last.loaded
  /-- While the files stay as they are, the lookups before have no bearing on an answer. -/
  independent : ∀ lookups : List Step, (∀ step ∈ lookups, step.lookup?.isSome) →
    ∀ step, step.lookup?.isSome → ((s.after lookups).step step).1 = (s.step step).1

theorem keepsTiles_of_sound (hs : s.store = some store) (h : store.Sound) :
    s.KeepsTiles store where
  square := h.square
  once := h.once
  adds step hk := by
    rcases step_store_cases hs hk with heq | ⟨p, answer, tile, hl, hnone, -, heq⟩
    · exact .inl heq
    · exact .inr ⟨p, answer, tile, hl, hnone, heq⟩
  failed step p answer cause hl hfail := by
    rw [step_lookup hs hl] at hfail ⊢
    cases ht : store.tileAt s.tree (containing p) with
    | ok tile =>
      rw [ht] at hfail
      exact absurd hfail (Step.answer_ne_failed hl tile cause)
    | error cause' =>
      rw [TileStore.keep_of_error ht, ← hs]
  first step p answer hl hnone := by
    rw [step_lookup hs hl, TileStore.tileAt, hnone]
  same step p answer hl := by
    have hstep := step_lookup hs hl
    cases ht : store.tileAt s.tree (containing p) with
    | error cause =>
      rw [ht] at hstep
      exact .inl ⟨cause, congrArg Prod.fst hstep⟩
    | ok tile =>
      rw [ht] at hstep
      refine .inr ⟨tile, congrArg Prod.fst hstep, fun later hk again q reply hq hsquare => ?_⟩
      have hkept := h.keep s.tree (containing p)
      have hmem := hkept.lookup_eq_some_iff.1 (TileStore.lookup_keep ht)
      exact step_after_of_mem (congrArg (·.2.store) hstep) hkept hmem later hk hq hsquare
  stays later hk := by
    obtain ⟨last, hlast, -, hsuffix⟩ := after_sound hs h later hk
    exact ⟨last, hlast, hsuffix⟩
  independent lookups hlookups step hstep := by
    obtain ⟨⟨p, answer⟩, hl⟩ := Option.isSome_iff_exists.1 hstep
    obtain ⟨htree, last, hlast, hsame⟩ := after_tileAt hs lookups hlookups
    rw [step_lookup hlast hl, step_lookup hs hl, htree, hsame]

theorem openDirectory_eq_ok {tree : FileTree} {directory : String} {storage : Storage}
    (h : TileStore.openDirectory tree directory storage = .ok store) :
    store = ⟨directory, storage, []⟩ := by
  unfold TileStore.openDirectory at h
  cases hl : (tree.list directory).mapError Error.file with
  | error cause =>
    rw [hl] at h
    cases h
  | ok names =>
    rw [hl] at h
    simp only [bind, Except.bind] at h
    split at h <;> cases h
    rfl

theorem loaded_of_openDirectory {tree : FileTree} {directory : String} {storage : Storage}
    (h : TileStore.openDirectory tree directory storage = .ok store) : store.loaded = [] := by
  rw [openDirectory_eq_ok h]

/-- The cache obeys its laws at every moment of every run of a store that has been opened. -/
theorem after_keepsTiles {tree : FileTree} {directory : String} {storage : Storage}
    {opened : TileStore} (h : TileStore.openDirectory tree directory storage = .ok opened)
    (before : List Step) (hk : ∀ step ∈ before, step.keepsStore = true) :
    ∃ store, ((⟨tree, some opened⟩ : Session).after before).store = some store ∧
      ((⟨tree, some opened⟩ : Session).after before).KeepsTiles store := by
  have hopened := TileStore.sound_of_loaded_nil (loaded_of_openDirectory h)
  obtain ⟨store, hstore, hsound, -⟩ :=
    after_sound (s := ⟨tree, some opened⟩) rfl hopened before hk
  exact ⟨store, hstore, keepsTiles_of_sound hstore hsound⟩

/-- A directory with the file of one tile, which is too short to be loaded. -/
def shortTile : FileTree := ⟨[(["d"], .directory), (["d", "N44W072.hgt"], .file .empty)]⟩

/-- A run in which one square fails and another is void, and then the file goes. -/
def shortTileSteps : List Step :=
  [.get ⟨-71.5, 44.5⟩, .value ⟨7.5, 46.5⟩, .remove "d/N44W072.hgt", .get ⟨-71.5, 44.5⟩]

theorem shortTile_keepsTiles :
    TileStore.openDirectory shortTile "d" .mapped = .ok ⟨"d", .mapped, []⟩ ∧
    ∃ store, ((⟨shortTile, some ⟨"d", .mapped, []⟩⟩ : Session).after shortTileSteps).store =
        some store ∧
      ((⟨shortTile, some ⟨"d", .mapped, []⟩⟩ : Session).after shortTileSteps).KeepsTiles store := by
  have hopen : TileStore.openDirectory shortTile "d" .mapped = .ok ⟨"d", .mapped, []⟩ := by cbv
  exact ⟨hopen, after_keepsTiles hopen shortTileSteps (by decide)⟩

end Session

end Transect
