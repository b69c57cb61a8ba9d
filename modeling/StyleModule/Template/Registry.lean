import StyleModule.OrderedMap
import StyleModule.Problem
import StyleModule.Template.Parser
import StyleModule.Template.Render

/-!
# Named templates

A `Registry` holds templates by name. A name stands for the last text that was registered under it
and could be read. A text can also be rendered without a name (`Registry.renderText`). While it is
rendered a template can look up the others by their names, so both ways to render are given all of
them.

How texts are read and templates rendered is left to an `Engine`. The template of a module is
written in the language of values, helpers and blocks (`Engine.plain`). That language has no tags
that put in other templates, so there the names do not matter.
-/

namespace StyleModule.Template

/-- What reads and renders templates. -/
structure Engine where
  /-- Templates that have been read. -/
  Parsed : Type
  /-- The template that a text is; none if it cannot be read. -/
  parse? : String → Option Parsed
  /-- Render a template for some data. It is given the templates that have names, and the name that
  it is rendered by, if there is one. -/
  render : (String → Option Parsed) → Option String → Parsed → Json → Except RenderError String

/-- Templates of values, helpers and blocks. -/
def Engine.plain : Engine where
  Parsed := Template
  parse? := Template.parse?
  render _ _ := Template.render

/-- Templates by name. -/
structure Registry (E : Engine) where
  /-- The templates. -/
  templates : OrderedMap E.Parsed := ∅

namespace Registry

variable {E : Engine}

/-- The registry without templates. -/
def empty (E : Engine) : Registry E := {}

variable (r : Registry E)

/-- Register a text under a name; none if it cannot be read. -/
def register? (name text : String) : Option (Registry E) := do
  return ⟨r.templates.insert name (← E.parse? text)⟩

/-- Register a text under a name. If the text cannot be read, the registry stays as it is. -/
def register (name text : String) : Except Problem Unit × Registry E :=
  match r.register? name text with
  | some registry => (.ok (), registry)
  | none => (.error .invalidTemplate, r)

/-- Whether a template is registered under a name. -/
def contains (name : String) : Bool := (r.templates.get? name).isSome

/-- Render the template of a name. -/
def render (name : String) (data : Json) : Except RenderError String :=
  match r.templates.get? name with
  | some template => E.render r.templates.get? (some name) template data
  | none => .error (.unknownTemplate name)

/-- Render a text that is a template. -/
def renderText (text : String) (data : Json) : Except RenderError String :=
  match E.parse? text with
  | some template => E.render r.templates.get? none template data
  | none => .error .unreadable

end Registry

end StyleModule.Template
