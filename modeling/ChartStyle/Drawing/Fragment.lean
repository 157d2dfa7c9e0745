import ChartStyle.Renderer.Expr

/-!
# Fragments and layers

A call draws zero or more fragments: the kind of a layer with its paint and layout properties. A
`Layer` is a fragment with what the style document needs besides: its name, the part of the
vector source that it draws, the features that it accepts, and notes for readers of the style.
-/

set_option autoImplicit false

namespace ChartStyle

/-- The kinds of layer. -/
inductive LayerKind where
  | symbol
  | line
  | fill
  /-- A kind that no instruction draws. -/
  | other (name : String)
  deriving DecidableEq, Inhabited

namespace LayerKind

/-- The name of a kind in a style document. -/
def name : LayerKind → String
  | .symbol => "symbol"
  | .line => "line"
  | .fill => "fill"
  | .other name => name

/-- The kind of that name. -/
def ofName (name : String) : LayerKind :=
  if name = "symbol" then .symbol
  else if name = "line" then .line
  else if name = "fill" then .fill
  else .other name

end LayerKind

/-- The properties of a layer by name, in the order of the style document. -/
abbrev Properties := List (String × Expr)

namespace Properties

/-- Properties as a mapping. -/
def toValue (properties : Properties) : Value :=
  .ofFields (properties.map fun (name, e) => (name, e.toValue))

end Properties

/-- What a call draws. -/
structure Fragment where
  kind : LayerKind
  paint : Properties := []
  layout : Properties := []
  deriving Inhabited

namespace Fragment

/-- A fragment as a mapping. -/
def toValue (f : Fragment) : Value :=
  .ofFields [("type", .text f.kind.name), ("paint", f.paint.toValue), ("layout", f.layout.toValue)]

end Fragment

/-- A layer of a style document. -/
structure Layer where
  id : String
  source : String
  sourceLayer : String
  /-- The features that the layer accepts, all of its source layer when there is none. -/
  filter : Option Expr
  metadata : List (String × Value)
  fragment : Fragment
  deriving Inhabited

namespace Layer

/-- The entries of a layer; those that say nothing are left out. -/
def fields (l : Layer) : List (String × Value) :=
  [("id", .text l.id), ("type", .text l.fragment.kind.name), ("source", .text l.source),
    ("source-layer", .text l.sourceLayer)]
  ++ (match l.filter with
      | some filter => [("filter", filter.toValue)]
      | none => [])
  ++ (if l.metadata.isEmpty then [] else [("metadata", .ofFields l.metadata)])
  ++ (if l.fragment.layout.isEmpty then [] else [("layout", l.fragment.layout.toValue)])
  ++ (if l.fragment.paint.isEmpty then [] else [("paint", l.fragment.paint.toValue)])

/-- A layer as a style document holds it. -/
def toValue (l : Layer) : Value := .ofFields l.fields

end Layer

end ChartStyle
