import BotSpec.Catalogue.Variant
import BotSpec.ParamSet.Basic

/-!
# Canonical parameters

`Variant.canonicalize` binds the entries of a parameter set to the parameters of a variant: each
parameter takes the value of the first of its spellings that the set has. Everything behind this
step reads canonical names and roles only.
-/

namespace BotSpec

/-- A parameter with the value it takes, if the set has one. -/
structure BoundParam where
  spec : ParamSpec
  value : Option Float

/-- The parameters of one component. -/
structure ComponentParams where
  indicator : IndicatorKind
  values : List BoundParam

/-- The parameters of a whole variant, component by component. -/
structure CanonicalParams where
  components : List ComponentParams

/-- A parameter bound to the first of its spellings that is present. -/
def ParamSpec.bind (spec : ParamSpec) (params : ParamSet) : BoundParam :=
  ⟨spec, spec.keys.findSome? params.get?⟩

/-- A component's parameters bound to a set. -/
def Component.bind (c : Component) (params : ParamSet) : ComponentParams :=
  ⟨c.indicator, c.params.map fun spec => spec.bind params⟩

/-- A variant's parameters bound to a set. -/
def Variant.canonicalize (v : Variant) (params : ParamSet) : CanonicalParams :=
  ⟨v.components.map fun c => c.bind params⟩

namespace ComponentParams

/-- The parameter of a role. -/
def entry? (c : ComponentParams) (role : ParamRole) : Option BoundParam :=
  c.values.find? fun b => b.spec.role = role

/-- The value of a role. -/
def get? (c : ComponentParams) (role : ParamRole) : Option Float :=
  (c.entry? role).bind fun b => b.value

/-- The canonical name of a role, a question mark for a role that the component lacks. -/
def name (c : ComponentParams) (role : ParamRole) : String :=
  match c.entry? role with
  | some b => b.spec.name
  | none => "?"

end ComponentParams

namespace CanonicalParams

/-- All parameters, component by component. -/
def all (p : CanonicalParams) : List BoundParam := p.components.flatMap fun c => c.values

/-- The canonical names of the parameters without a value. -/
def missing (p : CanonicalParams) : List String :=
  (p.all.filter fun b => b.value.isNone).map fun b => b.spec.name

end CanonicalParams

end BotSpec
