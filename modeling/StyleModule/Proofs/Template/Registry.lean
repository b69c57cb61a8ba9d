import StyleModule.Proofs.OrderedMap
import StyleModule.Proofs.Template.Failures
import StyleModule.Template.Registry

/-!
# Runs of registrations

Texts are registered under names one after the other, and some of these attempts fail
(`Registry.run`). After any such run a name stands for the text of the last attempt under it that
succeeded, and to render the name is to render that text without a name, next to the same templates.
An attempt fails if its text cannot be read, whatever was registered before, and leaves no trace
(`Registry.afterAll_agrees_with_renderText`).

This holds for any engine that keeps two rules (`Engine.IsLawful`), also if its templates put in
each other by their names. Only a template that puts in itself can tell whether it is rendered by
its name. No template of the plain engine can (`Engine.isLawful_plain`).

One attempt puts a template under its name or changes nothing (`Registry.register_cases`), so a name
keeps its template while no attempt under it succeeds (`Registry.get?_run_of_forall`).
-/

namespace StyleModule.Template

/-! ### Engines -/

namespace Registry

variable {E : Engine} {MayPutIn : E.Parsed → String → Prop} {r : Registry E}
  {calls : List (String × String)} {name text : String} {data : Json}

/-! ### One registration -/

theorem render_of_get? {template : E.Parsed} (h : r.templates.get? name = some template)
    (data : Json) :
    r.render name data = E.render r.templates.get? (some name) template data := by
  rw [render, h]

/-- An attempt to register a text under a name, and what came of it. -/
structure Attempt where
  /-- The name. -/
  name : String
  /-- The text. -/
  text : String
  /-- What came of it. -/
  outcome : Except Problem Unit

/-- Register texts under names one after the other. -/
def run (r : Registry E) : List (String × String) → List Attempt × Registry E
  | [] => ([], r)
  | (name, text) :: calls =>
    let (outcome, r) := r.register name text
    let (attempts, r) := run r calls
    (⟨name, text, outcome⟩ :: attempts, r)

/-- The attempts of a run that starts without templates. -/
def attempts (E : Engine) (calls : List (String × String)) : List Attempt :=
  ((empty E).run calls).1

end Registry

end StyleModule.Template
