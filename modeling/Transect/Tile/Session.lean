import Transect.Tile.Store

/-!
# Sessions with a tile store

A session is a run of steps on one store, while the files may be changed from outside. Opening a
directory puts a new store in place of the old one. If that fails there is no store.
-/

namespace Transect

inductive Step where
  | openDirectory (directory : String) (storage : Storage)
  | get (p : Point)
  | value (p : Point)
  /-- Writes a new file in place of what is there. -/
  | write (path : String) (bytes : ByteArray)
  | makeDirectory (path : String)
  | remove (path : String)

inductive Answer where
  | done
  /-- There is no store. -/
  | closed
  | failed (cause : Error)
  | tile (tile : Tile)
  | value (v : Option Float)
  | removed (found : Bool)

structure Session where
  tree : FileTree
  store : Option TileStore

namespace Session

/-- The answer and the session after an action on the store. -/
def withStore (s : Session) (action : TileStore → Except Error Answer × TileStore) :
    Answer × Session :=
  match s.store with
  | none => (.closed, s)
  | some store =>
    let (answer, store) := action store
    (match answer with | .ok a => a | .error cause => .failed cause, { s with store := some store })

def step (s : Session) : Step → Answer × Session
  | .openDirectory directory storage =>
    match TileStore.openDirectory s.tree directory storage with
    | .ok store => (.done, { s with store := some store })
    | .error cause => (.failed cause, { s with store := none })
  | .get p => s.withStore fun store =>
    let (answer, store) := store.get s.tree p
    (answer.map .tile, store)
  | .value p => s.withStore fun store =>
    let (answer, store) := store.value s.tree p
    (answer.map .value, store)
  | .write path bytes => (.done, { s with tree := s.tree.write path bytes })
  | .makeDirectory path => (.done, { s with tree := s.tree.makeDirectory path })
  | .remove path =>
    let (tree, found) := s.tree.remove path
    (.removed found, { s with tree })

/-- The answers of the steps, in their order, and the session after them. -/
def run (s : Session) : List Step → List Answer × Session
  | [] => ([], s)
  | step :: rest =>
    let (answer, s) := s.step step
    let (answers, s) := s.run rest
    (answer :: answers, s)

end Session

end Transect
