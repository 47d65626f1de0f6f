import SvgAssist.Grammar.Standard.Build

/-!
# Attributes of the standard grammar

The attributes of SVG 1.1 that elements share.
-/

namespace SvgAssist.Grammar.Standard

def placement : List Attribute := [
  attr "id" "<name>"
    "A unique name for the element.",
  attr "class" "<list-of-class-names>"
    "A list of class names used by style sheets and scripts.",
  attr "style" "<style>"
    "CSS declarations applied to the element.",
  attr "x" "<coordinate>"
    "The x coordinate of the element.",
  attr "y" "<coordinate>"
    "The y coordinate of the element.",
  attr "x1" "<coordinate>"
    "The x coordinate of the start point.",
  attr "y1" "<coordinate>"
    "The y coordinate of the start point.",
  attr "x2" "<coordinate>"
    "The x coordinate of the end point.",
  attr "y2" "<coordinate>"
    "The y coordinate of the end point.",
  attr "dx" "<length>"
    "A shift along the x-axis.",
  attr "dy" "<length>"
    "A shift along the y-axis.",
  attr "cx" "<coordinate>"
    "The x coordinate of the center.",
  attr "cy" "<coordinate>"
    "The y coordinate of the center.",
  attr "fx" "<coordinate>"
    "The x coordinate of the focal point.",
  attr "fy" "<coordinate>"
    "The y coordinate of the focal point.",
  attr "r" "<length>"
    "The radius.",
  attr "rx" "<length>"
    "The horizontal radius.",
  attr "ry" "<length>"
    "The vertical radius.",
  attr "width" "<length>"
    "The horizontal extent of the element.",
  attr "height" "<length>"
    "The vertical extent of the element."]

def drawing : List Attribute := [
  attr "d" "<path-data>"
    "The path commands that define the shape.",
  attr "points" "<list-of-points>"
    "The list of points used to draw the shape.",
  attr "pathLength" "<number>"
    "The total length of the path, in user units.",
  attr "rotate" "<list-of-numbers>"
    "The rotation of each individual glyph.",
  attr "textLength" "<length>"
    "The width into which the text is drawn.",
  attr "lengthAdjust" ""
    "How the text is stretched to `textLength`."
    |>.oneOf ["spacing", "spacingAndGlyphs"],
  attr "startOffset" "<length>"
    "How far the beginning of the text is offset from the start of the path.",
  attr "viewBox" "<list-of-numbers>"
    "The position and dimension, in user space, of the viewport.",
  attr "preserveAspectRatio" ""
    ("How an element with a viewBox must be deformed to fit a viewport with a different aspect " ++
     "ratio.")
    |>.oneOfDocumented [
      ("none", "Do not force uniform scaling."),
      ("xMinYMin", ""),
      ("xMidYMin", ""),
      ("xMaxYMin", ""),
      ("xMinYMid", ""),
      ("xMidYMid",
        ("Align the midpoints of the element's viewBox with the midpoints of the viewport. " ++
         "This is the default.")),
      ("xMaxYMid", ""),
      ("xMinYMax", ""),
      ("xMidYMax", ""),
      ("xMaxYMax", ""),
      ("<align> meet", ""),
      ("<align> slice", "")],
  attr "transform" "<transform-list>"
    "A list of transform definitions applied to the element and its children.",
  attr "gradientTransform" "<transform-list>"
    "Additional transformations applied to the gradient coordinate system.",
  attr "patternTransform" "<transform-list>"
    "Additional transformations applied to the pattern coordinate system.",
  attr "gradientUnits" ""
    "The coordinate system for the gradient attributes."
    |>.oneOf ["userSpaceOnUse", "objectBoundingBox"],
  attr "spreadMethod" ""
    "How the gradient behaves outside its bounds."
    |>.oneOf ["pad", "reflect", "repeat"],
  attr "offset" "<number> | <percentage>"
    "Where the gradient stop is placed along the gradient vector.",
  attr "stop-color" "<color>"
    "The color of the gradient stop."
    |>.oneOf ["currentColor", "<color>"],
  attr "stop-opacity" "<opacity-value>"
    "The opacity of the gradient stop."]

def painting : List Attribute := [
  attr "href" "<url>"
    "A link to a resource as a URL fragment or full URL.",
  attr "xlink:href" "<url>"
    "A link to a resource. Use `href` instead."
    |>.obsolete,
  attr "fill" "<paint>"
    "The color used to paint the interior of the shape."
    |>.oneOf ["none", "currentColor", "<color>", "<url>"],
  attr "fill-opacity" "<opacity-value>"
    "The opacity of the painting operation used to fill the shape.",
  attr "fill-rule" ""
    "The algorithm used to determine the inside part of a shape."
    |>.oneOfDocumented [
      ("nonzero",
        "Determines insideness by the winding count of path segments crossing a ray."),
      ("evenodd",
        "Determines insideness by the parity of path segments crossing a ray."),
      ("inherit", "")],
  attr "stroke" "<paint>"
    "The color used to paint the outline of the shape."
    |>.oneOf ["none", "currentColor", "<color>", "<url>"],
  attr "stroke-width" "<length>"
    "The width of the stroke applied to the shape.",
  attr "stroke-linecap" ""
    "The shape used at the end of open subpaths when they are stroked."
    |>.oneOf ["butt", "round", "square", "inherit"],
  attr "stroke-linejoin" ""
    "The shape used at the corners of paths when they are stroked."
    |>.oneOf ["miter", "round", "bevel", "inherit"],
  attr "stroke-dasharray" "<list-of-lengths>"
    "The pattern of dashes and gaps used to paint the outline of the shape."
    |>.oneOf ["none", "<dasharray>"],
  attr "stroke-opacity" "<opacity-value>"
    "The opacity of the painting operation used to stroke the shape.",
  attr "opacity" "<opacity-value>"
    "The transparency of the object.",
  attr "clip-path" "<url>"
    "A reference to the clipping path applied to the element.",
  attr "mask" "<url>"
    "A reference to the mask applied to the element.",
  attr "filter" "<url>"
    "A reference to the filter effects applied to the element.",
  attr "marker-start" "<url>"
    "The marker drawn at the first vertex.",
  attr "marker-mid" "<url>"
    "The marker drawn at every vertex other than the first and last.",
  attr "marker-end" "<url>"
    "The marker drawn at the last vertex."]

def display : List Attribute := [
  attr "display" ""
    "Controls the rendering of graphical or container elements."
    |>.oneOf ["inline", "block", "none", "inherit"],
  attr "visibility" ""
    "Lets you control the visibility of graphical elements."
    |>.oneOf ["visible", "hidden", "collapse", "inherit"],
  attr "text-anchor" ""
    "Aligns text relative to a given point."
    |>.oneOf ["start", "middle", "end", "inherit"],
  attr "dominant-baseline" ""
    "The baseline used to align the box's text."
    |>.oneOf ["auto", "middle", "hanging", "central", "text-top", "text-bottom"],
  attr "font-family" "<family-name>"
    "Which font family is used to render the text.",
  attr "font-size" "<length>"
    "The size of the font.",
  attr "font-weight" ""
    "The weight of the font."
    |>.oneOf ["normal", "bold", "bolder", "lighter", "100", "400", "700", "900"],
  attr "font-style" ""
    "Whether a font should be styled normal, italic or oblique."
    |>.oneOf ["normal", "italic", "oblique"]]

def markers : List Attribute := [
  attr "refX" "<coordinate>"
    "The x coordinate of the marker reference point.",
  attr "refY" "<coordinate>"
    "The y coordinate of the marker reference point.",
  attr "markerWidth" "<length>"
    "The width of the marker viewport.",
  attr "markerHeight" "<length>"
    "The height of the marker viewport.",
  attr "media" "<media-query-list>"
    "Which media the style applies to.",
  attr "title" "<string>"
    "An alternate style sheet set name.",
  attr "crossorigin" ""
    "The CORS settings of the request."
    |>.oneOf ["anonymous", "use-credentials"],
  attr "in" ""
    "The input of the filter primitive."
    |>.oneOf ["SourceGraphic", "SourceAlpha", "BackgroundImage", "BackgroundAlpha", "FillPaint",
        "StrokePaint", "<filter-primitive-reference>"],
  attr "in2" ""
    "The second input of the filter primitive."
    |>.oneOf ["SourceGraphic", "SourceAlpha", "BackgroundImage", "BackgroundAlpha", "FillPaint",
        "StrokePaint", "<filter-primitive-reference>"],
  attr "result" "<filter-primitive-reference>"
    "The name of the filter primitive output.",
  attr "stdDeviation" "<number-optional-number>"
    "The standard deviation of the blur.",
  attr "values" "<list-of-numbers>"
    "A list of values.",
  attr "flood-color" "<color>"
    "The color used to flood the filter subregion.",
  attr "flood-opacity" "<opacity-value>"
    "The opacity of the flood fill."]

def timing : List Attribute := [
  attr "attributeName" "<name>"
    "The name of the target attribute being animated.",
  attr "from" "<value>"
    "The initial value of the animated attribute.",
  attr "to" "<value>"
    "The final value of the animated attribute.",
  attr "begin" "<begin-value-list>"
    "When the animation begins.",
  attr "dur" "<clock-value>"
    "The simple duration of the animation."
    |>.oneOf ["indefinite", "<clock-value>"],
  attr "repeatCount" "<number>"
    "The number of times the animation takes place."
    |>.oneOf ["indefinite", "<number>"],
  attr "calcMode" ""
    "The interpolation mode of the animation."
    |>.oneOf ["discrete", "linear", "paced", "spline"],
  attr "additive" ""
    "Whether the animation is additive."
    |>.oneOf ["replace", "sum"],
  attr "accumulate" ""
    "Whether the animation is cumulative."
    |>.oneOf ["none", "sum"],
  attr "systemLanguage" "<list-of-language-tags>"
    "The languages the user must have chosen for the element to be rendered.",
  attr "horiz-adv-x" "<number>"
    "The horizontal advance after rendering a glyph."
    |>.obsolete,
  attr "onload" "<script>"
    "Script run when the element has been loaded."]

def attributes : List Attribute :=
  placement ++ drawing ++ painting ++ display ++ markers ++ timing

end SvgAssist.Grammar.Standard
