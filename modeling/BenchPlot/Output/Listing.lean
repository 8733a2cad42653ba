import BenchPlot.Layout.Basic

/-!
# Listings of points

The plainest output: a line for every graph, for every curve and for every point, with an empty line
between graphs. A point is listed with its curve, its values and its coordinates.
-/

namespace BenchPlot

/-- What a listing writes between the parts of a point, and whether it lists the bounds. -/
structure ListingSettings where
  separator : String
  bounds : Bool

namespace Listing

/-- The parts of a line for a point. -/
def pointParts (bounds : Bool) (p : PlotPoint Float) : List String :=
  [Decimal.naturalText p.curve, p.rawX.display, p.rawY.display, numberText p.x, numberText p.y] ++
    (if bounds then [numberText p.low, numberText p.high] else [])

/-- The line for a point. -/
def pointLine (s : ListingSettings) (p : PlotPoint Float) : String :=
  s.separator.intercalate (pointParts s.bounds p)

/-- The lines for a curve and its points. -/
def curveLines (s : ListingSettings) (g : GraphLayout Float) (c : CurveLayout) : List String :=
  s!"# curve {c.id} {c.label}" :: (g.pointsOf c.id).map (pointLine s)

/-- The lines for the graph with number `index`. -/
def graphLines (s : ListingSettings) (g : GraphLayout Float) (index : Nat) : List String :=
  (if index = 0 then [] else [""]) ++
    s!"# graph {index + 1} {g.title}" :: g.curves.flatMap (curveLines s g)

/-- The lines for a layout. -/
def lines (s : ListingSettings) (l : Layout Float) : List String :=
  l.graphs.zipIdx.flatMap fun g => graphLines s g.1 g.2

end Listing

/-- Lines as a text, each with its line end. -/
def linesText (lines : List String) : String :=
  String.join (lines.map (· ++ "\n"))

/-- The listing of a layout. -/
def Layout.listing (s : ListingSettings) (l : Layout Float) : String :=
  linesText (Listing.lines s l)

end BenchPlot
