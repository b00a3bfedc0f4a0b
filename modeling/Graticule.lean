import Graticule.Angle
import Graticule.Circle
import Graticule.Combine
import Graticule.Coordinates
import Graticule.Decimal
import Graticule.Decimal.Layout
import Graticule.Decimal.Numeral
import Graticule.Decimal.Text
import Graticule.Defaults
import Graticule.Document
import Graticule.Document.Reader
import Graticule.Document.Text
import Graticule.Document.Writer
import Graticule.Error
import Graticule.Extent
import Graticule.Feature
import Graticule.Geometry
import Graticule.Geometry.Equality
import Graticule.Geometry.Leaves
import Graticule.Json
import Graticule.Json.Reader
import Graticule.Json.Writer
import Graticule.Measure
import Graticule.Outline
import Graticule.Path
import Graticule.Path.Slice
import Graticule.Planar
import Graticule.Planar.Centroid
import Graticule.Point
import Graticule.Point.Distinct
import Graticule.Proofs.Distance
import Graticule.Proofs.Distinct
import Graticule.Proofs.Identity
import Graticule.Proofs.Leaves
import Graticule.Proofs.RayParity
import Graticule.Proofs.Reduction
import Graticule.Proofs.RoundTrip
import Graticule.Proofs.Tolerance
import Graticule.Proofs.Validity
import Graticule.Region
import Graticule.Requirement
import Graticule.Scalar
import Graticule.Scalar.Binary64
import Graticule.Scalar.Exact
import Graticule.Segment
import Graticule.Session
import Graticule.Settings
import Graticule.Settings.Load
import Graticule.Settings.Text
import Graticule.Simplify
import Graticule.Snap
import Graticule.Sphere
import Graticule.Text.Blank
import Graticule.Text.Reader
import Graticule.Toml
import Graticule.Toml.Bare
import Graticule.Toml.Quoted
import Graticule.Toml.Reader
import Graticule.Unit
import Graticule.Unit.Text
import Graticule.Validation
import Graticule.Proofs.Encoding
import Graticule.Proofs.Accepted
import Graticule.Proofs.Segments
import Graticule.Proofs.Crossing
import Graticule.Proofs.Intersection
import Graticule.Proofs.Cut
import Graticule.Proofs.Nesting
import Graticule.Proofs.Idempotence
import Graticule.Proofs.RealSphere
import Graticule.Proofs.Square
import Graticule.Proofs.Binary64.Nearest
import Graticule.Proofs.Binary64.Rounding
import Graticule.Proofs.Binary64.Packing
import Graticule.Proofs.Binary64.Number
import Graticule.Proofs.Binary64.Arithmetic
import Graticule.Proofs.Ordered
import Graticule.Proofs.Slice
import Graticule.Proofs.Milestones
import Graticule.Proofs.SliceSize
import Graticule.Proofs.Snapping
import Graticule.Proofs.Between
import Graticule.Proofs.Binary64.Ordered
import Graticule.Proofs.Binary64.Paths
import Graticule.Proofs.Binary64.Milestones
import Graticule.Proofs.Binary64.Identity
import Graticule.Proofs.Binary64.Between
import Graticule.Proofs.HalfPlane
import Graticule.Proofs.Convex
import Graticule.Proofs.Candidates
import Graticule.Proofs.Closest
import Graticule.Proofs.Location
import Graticule.Proofs.Passage
import Graticule.Proofs.Binary64.Closest
import Graticule.Proofs.Binary64.Location
import Graticule.Proofs.Flattening
import Graticule.Proofs.Equality
import Graticule.Proofs.Additivity
import Graticule.Proofs.Division
import Graticule.Proofs.Decoding
import Graticule.Proofs.Sides
import Graticule.Proofs.Winding
import Graticule.Proofs.Extremes
import Graticule.Proofs.Binary64.Extent
import Graticule.Proofs.Envelope
import Graticule.Proofs.Combination
import Graticule.Proofs.Regions
import Graticule.Proofs.Outlines
import Graticule.Proofs.Closing
import Graticule.Proofs.Circle
import Graticule.Proofs.Projection
import Graticule.Proofs.Binary64.Keys
