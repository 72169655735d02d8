/-
# The registry of templates

* `Registry` — templates in the order in which their names were first used.
* `Registry.put` — a template takes the place of one of its name, or comes last.
* `Registry.lookup` — the first template that applies to an index.
-/
import Quarry.Error
import Quarry.Template.Basic

namespace Quarry.Template

/-- Templates in the order in which their names were first used. -/
structure Registry where
  templates : List Template := []

namespace Registry

/-- Puts a template in the place of the one with its name, or at the end. -/
def place (t : Template) : List Template → List Template
  | [] => [t]
  | u :: rest => if u.name = t.name then t :: rest else u :: place t rest

/-- Puts a mapping under a name. -/
def put (r : Registry) (name : String) (m : Mapping) : Except Error Registry :=
  match Template.ofMapping? name m with
  | some t => .ok ⟨place t r.templates⟩
  | none => .error (.template m.pattern)

/-- The mapping of the first template that applies to an index. -/
def lookup (r : Registry) (index : String) : Option Mapping :=
  (r.templates.find? fun t => t.applies index).map Template.mapping

/-- The mapping under a name. -/
def get? (r : Registry) (name : String) : Option Mapping :=
  (r.templates.find? fun t => t.name = name).map Template.mapping

/-- The names and mappings in order. -/
def toList (r : Registry) : List (String × Mapping) := r.templates.map fun t => (t.name, t.mapping)

/-- The number of templates. -/
def size (r : Registry) : Nat := r.templates.length

end Registry

end Quarry.Template
