import CorrelationPlot.Number.FloatText
import CorrelationPlot.Sketch.Drawing

/-!
Sketches as SVG markup, the way it is embedded in a page. In its text the five characters with a
meaning of their own are named.
-/
namespace CorrelationPlot

namespace Markup

def escaped (c : Char) : List Char :=
  if c = '&' then ['&', 'a', 'm', 'p', ';']
  else if c = '<' then ['&', 'l', 't', ';']
  else if c = '>' then ['&', 'g', 't', ';']
  else if c = '"' then ['&', 'q', 'u', 'o', 't', ';']
  else if c = Char.ofNat 39 then ['&', 'a', 'p', 'o', 's', ';']
  else [c]

def escape (s : String) : String := String.ofList (s.toList.flatMap escaped)

end Markup

namespace Svg

/-- A colour with upper-case digits. -/
def color (c : Rgb) : String := c.hex.toUpper

def pair (name value : String) : String := " " ++ name ++ "=\"" ++ value ++ "\""

def element (name : String) (attributes : List (String × String)) : String :=
  "<" ++ name ++ String.join (attributes.map fun (n, v) => pair n v) ++ "/>\n"

def opacity (x : Float) : String := String.ofList (FloatText.plain x)

end Svg

def Shape.svg : Shape → String
  | .rect x y width height opacity fill =>
    Svg.element "rect"
      [("x", Digits.intText x), ("y", Digits.intText y), ("width", Digits.intText width),
        ("height", Digits.intText height), ("opacity", Svg.opacity opacity),
        ("fill", Svg.color fill), ("stroke", "none")]
  | .circle x y radius opacity fill =>
    Svg.element "circle"
      [("cx", Digits.intText x), ("cy", Digits.intText y), ("r", Digits.intText radius),
        ("opacity", Svg.opacity opacity), ("fill", Svg.color fill), ("stroke", "none")]

namespace Sketch

/-- The background as a shape that covers everything. -/
def backgroundShape (s : Sketch) : Shape := .rect 0 0 s.width s.height 1 s.background

/-- All shapes in drawing order. -/
def shapes (s : Sketch) : List Shape := s.backgroundShape :: s.panels.flatMap (·.shapes)

/-- The titles of all panels, each panel's y title first. -/
def labels (s : Sketch) : List String := s.panels.flatMap fun p => [p.yTitle, p.xTitle]

def svgLabel (s : Sketch) (label : String) : String :=
  "<text" ++ Svg.pair "fill" (Svg.color s.ink) ++ ">" ++ Markup.escape label ++ "</text>\n"

def svg (s : Sketch) : String :=
  "<svg" ++ Svg.pair "width" (Digits.text s.width) ++
    Svg.pair "height" (Digits.text s.height) ++
    Svg.pair "viewBox" ("0 0 " ++ Digits.text s.width ++ " " ++ Digits.text s.height) ++ ">\n" ++
    String.join (s.shapes.map Shape.svg) ++ String.join (s.labels.map s.svgLabel) ++ "</svg>\n"

end Sketch
end CorrelationPlot
