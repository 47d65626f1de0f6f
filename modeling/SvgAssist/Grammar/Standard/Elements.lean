import SvgAssist.Grammar.Standard.Build

/-!
# Elements of the standard grammar

The elements of SVG 1.1, in the order in which they are offered.
-/

namespace SvgAssist.Grammar.Standard

def structural : List Element := [
  block "svg"
    ("The `svg` element is a container that defines a new coordinate system and viewport. It " ++
     "is used as the outermost element of SVG documents, but it can also be used to embed an " ++
     "SVG fragment inside an SVG or HTML document.")
    (refs ["id", "class", "style", "x", "y", "width", "height", "viewBox", "preserveAspectRatio"] ++
     owns [
       attr "xmlns" "<uri>"
         "The XML namespace of the document, normally `http://www.w3.org/2000/svg`.",
       attr "version" ""
         "The SVG language version used for the element."
         |>.oneOf ["1.0", "1.1"]
         |>.obsolete,
       attr "baseProfile" ""
         ("The minimum SVG language profile that the author believes is necessary to render " ++
          "the content.")
         |>.oneOf ["none", "full", "basic", "tiny"]
         |>.obsolete] ++
     refs ["fill", "stroke", "opacity", "transform", "display", "visibility", "onload"]),
  block "g"
    ("The `g` element is a container used to group other SVG elements. Transformations and " ++
     "presentation attributes applied to it are inherited by its children.")
    (refs ["id", "class", "style", "transform", "fill", "fill-opacity", "fill-rule", "stroke",
       "stroke-width", "stroke-linecap", "stroke-linejoin", "stroke-dasharray", "stroke-opacity",
       "opacity", "clip-path", "mask", "filter", "display", "visibility"]),
  block "defs"
    ("The `defs` element stores graphical objects that will be used at a later time. Objects " ++
     "created inside it are not rendered directly.")
    (refs ["id", "class", "style", "transform"]),
  block "symbol"
    ("The `symbol` element defines a graphical template object which can be instantiated by a " ++
     "`use` element.")
    (refs ["id", "class", "style", "x", "y", "width", "height", "viewBox", "preserveAspectRatio"]),
  simple "use"
    ("The `use` element takes nodes from within the SVG document and duplicates them somewhere " ++
     "else.")
    (refs ["id", "class", "style", "href", "xlink:href", "x", "y", "width", "height",
       "transform", "fill", "stroke", "opacity"]),
  inline "title"
    ("The `title` element provides an accessible, short-text description of any SVG container " ++
     "element or graphics element.")
    (refs ["id", "class", "style"]),
  inline "desc"
    ("The `desc` element provides an accessible, long-text description of any SVG container " ++
     "element or graphics element.")
    (refs ["id", "class", "style"])]

def shapes : List Element := [
  simple "rect"
    ("The `rect` element is a basic shape used to draw rectangles, defined by their position, " ++
     "width, and height. Corners may be rounded.")
    (refs ["id", "class", "style", "x", "y", "width", "height", "rx", "ry", "pathLength",
       "transform", "fill", "fill-opacity", "fill-rule", "stroke", "stroke-width",
       "stroke-linecap", "stroke-linejoin", "stroke-dasharray", "stroke-opacity", "opacity",
       "clip-path", "mask", "filter", "display", "visibility"]),
  simple "circle"
    ("The `circle` element is a basic shape used to draw circles based on a center point and a " ++
     "radius.")
    (refs ["id", "class", "style", "cx", "cy", "r", "pathLength", "transform", "fill",
       "fill-opacity", "fill-rule", "stroke", "stroke-width", "stroke-dasharray",
       "stroke-opacity", "opacity", "clip-path", "mask", "filter", "display", "visibility"]),
  simple "ellipse"
    ("The `ellipse` element is a basic shape used to create ellipses based on a center " ++
     "coordinate and both their x and y radius.")
    (refs ["id", "class", "style", "cx", "cy", "rx", "ry", "pathLength", "transform", "fill",
       "fill-opacity", "stroke", "stroke-width", "stroke-opacity", "opacity", "display",
       "visibility"]),
  simple "line"
    "The `line` element is a basic shape used to create a line connecting two points."
    (refs ["id", "class", "style", "x1", "y1", "x2", "y2", "pathLength", "transform", "stroke",
       "stroke-width", "stroke-linecap", "stroke-dasharray", "stroke-opacity", "opacity",
       "marker-start", "marker-end", "display", "visibility"]),
  simple "polyline"
    ("The `polyline` element is a basic shape that creates straight lines connecting several " ++
     "points. Typically it is used to create open shapes.")
    (refs ["id", "class", "style", "points", "pathLength", "transform", "fill", "fill-rule",
       "stroke", "stroke-width", "stroke-linecap", "stroke-linejoin", "stroke-dasharray",
       "opacity", "marker-start", "marker-mid", "marker-end", "display", "visibility"]),
  simple "polygon"
    ("The `polygon` element defines a closed shape consisting of a set of connected straight " ++
     "line segments.")
    (refs ["id", "class", "style", "points", "pathLength", "transform", "fill", "fill-rule",
       "stroke", "stroke-width", "stroke-linejoin", "stroke-dasharray", "opacity", "display",
       "visibility"]),
  simple "path"
    ("The `path` element is the generic element to define a shape. All the basic shapes can be " ++
     "created with a path element.")
    (refs ["id", "class", "style", "d", "pathLength", "transform", "fill", "fill-opacity",
       "fill-rule", "stroke", "stroke-width", "stroke-linecap", "stroke-linejoin",
       "stroke-dasharray", "stroke-opacity", "opacity", "clip-path", "mask", "filter",
       "marker-start", "marker-mid", "marker-end", "display", "visibility"])]

def texts : List Element := [
  block "text"
    "The `text` element draws a graphics element consisting of text."
    (refs ["id", "class", "style", "x", "y", "dx", "dy", "rotate", "lengthAdjust", "textLength",
       "text-anchor", "dominant-baseline", "font-family", "font-size", "font-weight",
       "font-style", "transform", "fill", "stroke", "opacity", "display", "visibility"])
    |>.within ["tspan", "textPath", "tref", "a", "title", "desc"],
  inline "tspan"
    "The `tspan` element defines a subtext within a `text` element or another `tspan` element."
    (refs ["id", "class", "style", "x", "y", "dx", "dy", "rotate", "lengthAdjust", "textLength",
       "text-anchor", "font-family", "font-size", "font-weight", "font-style", "fill", "stroke",
       "opacity"])
    |>.within ["tspan", "a", "title", "desc"],
  inline "textPath"
    "The `textPath` element renders text along the shape of a `path` element."
    (refs ["id", "class", "style", "href", "xlink:href", "startOffset"] ++
     owns [
       attr "method" ""
         "Which method is used to render individual glyphs along the path."
         |>.oneOf ["align", "stretch"],
       attr "spacing" ""
         "How space between glyphs is handled."
         |>.oneOf ["auto", "exact"]] ++
     refs ["fill", "stroke"])
    |>.within ["tspan", "a", "title", "desc"],
  simple "tref"
    "The `tref` element references a `text` element whose character data is rendered in place."
    (refs ["id", "class", "style", "xlink:href"])
    |>.obsolete,
  block "a"
    ("The `a` element creates a hyperlink to other web pages, files, locations in the same " ++
     "page, or anything else a URL can address.")
    (refs ["id", "class", "style", "href", "xlink:href"] ++
     owns [
       attr "target" "<target>"
         "Where to display the linked URL."
         |>.oneOf ["_self", "_parent", "_top", "_blank", "<name>"]] ++
     refs ["transform", "fill", "stroke", "opacity"]),
  simple "image"
    ("The `image` element includes images inside SVG documents. It can display raster image " ++
     "files or other SVG files.")
    (refs ["id", "class", "style", "href", "xlink:href", "x", "y", "width", "height",
       "preserveAspectRatio", "transform", "opacity", "clip-path", "mask", "filter", "display",
       "visibility"])]

def paintServers : List Element := [
  block "linearGradient"
    ("The `linearGradient` element lets authors define linear gradients to apply to other SVG " ++
     "elements.")
    (refs ["id", "class", "style", "x1", "y1", "x2", "y2", "gradientUnits", "gradientTransform",
       "spreadMethod", "href", "xlink:href"])
    |>.within ["stop", "animate", "set", "animateTransform", "desc", "title"],
  block "radialGradient"
    ("The `radialGradient` element lets authors define radial gradients that can be applied to " ++
     "fill or stroke of graphical elements.")
    (refs ["id", "class", "style", "cx", "cy", "r", "fx", "fy", "gradientUnits",
       "gradientTransform", "spreadMethod", "href", "xlink:href"])
    |>.within ["stop", "animate", "set", "animateTransform", "desc", "title"],
  simple "stop"
    ("The `stop` element defines a color and its position to use on a gradient. This element " ++
     "is always a child of a `linearGradient` or `radialGradient` element.")
    (refs ["id", "class", "style", "offset", "stop-color", "stop-opacity"]),
  block "pattern"
    ("The `pattern` element defines a graphics object which can be redrawn at repeated x- and " ++
     "y-coordinate intervals to cover an area.")
    (refs ["id", "class", "style", "x", "y", "width", "height", "viewBox", "preserveAspectRatio"] ++
     owns [
       attr "patternUnits" ""
         "The coordinate system for attributes `x`, `y`, `width` and `height`."
         |>.oneOf ["userSpaceOnUse", "objectBoundingBox"],
       attr "patternContentUnits" ""
         "The coordinate system for the contents of the pattern."
         |>.oneOf ["userSpaceOnUse", "objectBoundingBox"]] ++
     refs ["patternTransform", "href", "xlink:href"])]

def attachments : List Element := [
  block "clipPath"
    "The `clipPath` element defines a clipping path, to be used by the `clip-path` property."
    (refs ["id", "class", "style", "transform"] ++
     owns [
       attr "clipPathUnits" ""
         "The coordinate system for the contents of the clipPath element."
         |>.oneOf ["userSpaceOnUse", "objectBoundingBox"]]),
  block "mask"
    ("The `mask` element defines an alpha mask for compositing the current object into the " ++
     "background.")
    (refs ["id", "class", "style", "x", "y", "width", "height"] ++
     owns [
       attr "maskUnits" ""
         "The coordinate system for attributes `x`, `y`, `width` and `height`."
         |>.oneOf ["userSpaceOnUse", "objectBoundingBox"],
       attr "maskContentUnits" ""
         "The coordinate system for the contents of the mask."
         |>.oneOf ["userSpaceOnUse", "objectBoundingBox"]]),
  block "marker"
    ("The `marker` element defines a graphic used for drawing arrowheads or polymarkers on a " ++
     "given `path`, `line`, `polyline` or `polygon` element.")
    (refs ["id", "class", "style", "viewBox", "preserveAspectRatio", "refX", "refY",
       "markerWidth", "markerHeight"] ++
     owns [
       attr "markerUnits" ""
         ("The coordinate system for `markerWidth`, `markerHeight` and the contents of the " ++
          "marker.")
         |>.oneOf ["strokeWidth", "userSpaceOnUse"],
       attr "orient" "<angle>"
         "How the marker is rotated when it is placed at its position on the shape."
         |>.oneOf ["auto", "auto-start-reverse", "<angle>"]]),
  inline "style"
    "The `style` element allows style sheets to be embedded directly within SVG content."
    (refs ["id"] ++
     owns [
       attr "type" ""
         "The style sheet language to use."
         |>.oneOf ["text/css"]] ++
     refs ["media", "title"]),
  inline "script"
    "The `script` element allows scripts to be added to an SVG document."
    (refs ["id"] ++
     owns [
       attr "type" ""
         "The scripting language to use."
         |>.oneOf ["application/ecmascript", "text/javascript"]] ++
     refs ["href", "xlink:href", "crossorigin"])]

def filters : List Element := [
  block "filter"
    "The `filter` element defines a custom filter effect by grouping atomic filter primitives."
    (refs ["id", "class", "style", "x", "y", "width", "height"] ++
     owns [
       attr "filterUnits" ""
         "The coordinate system for the filter region."
         |>.oneOf ["userSpaceOnUse", "objectBoundingBox"],
       attr "primitiveUnits" ""
         "The coordinate system for the filter primitives."
         |>.oneOf ["userSpaceOnUse", "objectBoundingBox"]])
    |>.within ["feBlend", "feColorMatrix", "feGaussianBlur", "feOffset", "feMerge", "feFlood",
        "desc", "title"],
  simple "feBlend"
    ("The `feBlend` filter primitive composes two objects together ruled by a certain blending " ++
     "mode.")
    (refs ["id", "in", "in2", "result"] ++
     owns [
       attr "mode" ""
         "The blending mode."
         |>.oneOf ["normal", "multiply", "screen", "darken", "lighten"]]),
  simple "feColorMatrix"
    "The `feColorMatrix` filter primitive changes colors based on a transformation matrix."
    (refs ["id", "in", "result"] ++
     owns [
       attr "type" ""
         "The type of matrix operation."
         |>.oneOf ["matrix", "saturate", "hueRotate", "luminanceToAlpha"]] ++
     refs ["values"]),
  simple "feGaussianBlur"
    ("The `feGaussianBlur` filter primitive blurs the input image by the amount specified in " ++
     "`stdDeviation`.")
    (refs ["id", "in", "result", "stdDeviation"] ++
     owns [
       attr "edgeMode" ""
         "How to extend the input image as necessary with color values."
         |>.oneOf ["duplicate", "wrap", "none"]]),
  simple "feOffset"
    "The `feOffset` filter primitive offsets the input image relative to its current position."
    (refs ["id", "in", "result", "dx", "dy"]),
  simple "feFlood"
    ("The `feFlood` filter primitive fills the filter subregion with the color and opacity " ++
     "defined by `flood-color` and `flood-opacity`.")
    (refs ["id", "result", "flood-color", "flood-opacity"]),
  block "feMerge"
    "The `feMerge` filter primitive composites input image layers on top of each other."
    (refs ["id", "result"])
    |>.within ["feMergeNode"],
  simple "feMergeNode"
    ("The `feMergeNode` element takes the result of another filter to be processed by its " ++
     "parent `feMerge`.")
    (refs ["id", "in"])]

def others : List Element := [
  simple "animate"
    "The `animate` element provides a way to animate an attribute of an element over time."
    (refs ["id", "attributeName", "from", "to", "values", "begin", "dur", "repeatCount"] ++
     owns [
       attr "fill" ""
         "The final state of the animation."
         |>.oneOf ["freeze", "remove"]] ++
     refs ["calcMode", "additive", "accumulate"]),
  simple "animateTransform"
    "The `animateTransform` element animates a transformation attribute on its target element."
    (refs ["id", "attributeName"] ++
     owns [
       attr "type" ""
         "The type of transformation whose values change over time."
         |>.oneOf ["translate", "scale", "rotate", "skewX", "skewY"]] ++
     refs ["from", "to", "begin", "dur", "repeatCount", "additive"]),
  simple "set"
    ("The `set` element provides a simple means of just setting the value of an attribute for " ++
     "a specified duration.")
    (refs ["id", "attributeName", "to", "begin", "dur"]),
  block "switch"
    ("The `switch` element evaluates any `requiredFeatures`, `requiredExtensions` and " ++
     "`systemLanguage` attributes on its direct child elements in order, and then renders the " ++
     "first child where these attributes evaluate to true.")
    (refs ["id", "class", "style", "transform", "systemLanguage"]),
  block "foreignObject"
    "The `foreignObject` element includes elements from a different XML namespace."
    (refs ["id", "class", "style", "x", "y", "width", "height", "transform"]),
  block "font"
    "The `font` element defines a font to be used for text layout."
    (refs ["id", "horiz-adv-x"])
    |>.obsolete]

def elements : List Element :=
  structural ++ shapes ++ texts ++ paintServers ++ attachments ++ filters ++ others

end SvgAssist.Grammar.Standard
