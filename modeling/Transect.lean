import Transect.Main
import Transect.Proofs.Arguments.Location
import Transect.Proofs.Config.Opening
import Transect.Proofs.Config.Reader
import Transect.Proofs.Config.Rounding
import Transect.Proofs.Decimal.Cell
import Transect.Proofs.Decimal.Nearest
import Transect.Proofs.Decimal.ReadBack
import Transect.Proofs.Distance.Text
import Transect.Proofs.FileTree
import Transect.Proofs.Float.Floor
import Transect.Proofs.Json.Text
import Transect.Proofs.Polyline
import Transect.Proofs.Polyline.Count
import Transect.Proofs.Polyline.Interpolation
import Transect.Proofs.Polyline.Vertices
import Transect.Proofs.Profile.Basic
import Transect.Proofs.Profile.Distances
import Transect.Proofs.Profile.Json
import Transect.Proofs.Profile.NoData
import Transect.Proofs.Profile.ReadBack
import Transect.Proofs.Profile.Visits
import Transect.Proofs.Program.Agreement
import Transect.Proofs.Registry.Run
import Transect.Proofs.Rounding.Digits
import Transect.Proofs.Rounding.Settled
import Transect.Proofs.Tile.Cover
import Transect.Proofs.Tile.Grammar
import Transect.Proofs.Tile.Lookup
import Transect.Proofs.Tile.Spelling
import Transect.Proofs.Config.Quantum
import Transect.Proofs.Profile.Lengths
import Transect.Proofs.Point.Grammar
