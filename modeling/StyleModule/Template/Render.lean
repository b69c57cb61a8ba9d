import StyleModule.Template.Helper

/-!
# Rendering templates

`render` gives the text of a template for some data. In place of a tag it puts the text of the value
or of the result of the helper, and in place of a block the texts that the helper decides on. Where
a path leads nowhere nothing is put in.

No template is put into another here, so rendering needs no more than the template and the data, and
it fails at a tag that names a template.
-/

namespace StyleModule.Template

/-! ### Arguments -/

mutual

/-- The value of an argument. -/
def Argument.eval (c : Context) : Argument → Except RenderError Json
  | .path _ p => c.follow p
  | .literal v => .ok v
  | .call helper as named => do
    let values ← evalAll c as
    let named ← evalNamed c named
    return (← Invocation.run ⟨helper, values, named, []⟩).inline

/-- The values of arguments in order. -/
def evalAll (c : Context) : List Argument → Except RenderError (List Json)
  | [] => .ok []
  | a :: as => do
    let v ← a.eval c
    let vs ← evalAll c as
    return v :: vs

/-- The values of arguments by name. -/
def evalNamed (c : Context) : List (String × Argument) → Except RenderError (List (String × Json))
  | [] => .ok []
  | (name, a) :: as => do
    let v ← a.eval c
    let vs ← evalNamed c as
    return (name, v) :: vs

end

/-- What comes of a helper and what is handed to it. -/
def Call.outcome (c : Context) (call : Call) : Except RenderError Outcome := do
  let values ← evalAll c call.arguments
  let named ← evalNamed c call.named
  Invocation.run ⟨call.helper, values, named, call.names⟩

/-- What names an argument: a path names itself, and anything else is named by its text. -/
def Argument.name (c : Context) : Argument → Except RenderError String
  | .path written _ => .ok written
  | a => do return String.ofList (valueText (← a.eval c))

/-- What is put in for an argument that stands alone: the result of the helper that has its name, or
else its value. -/
def Argument.put (c : Context) (a : Argument) : Except RenderError Json := do
  let name ← a.name c
  match helper? name with
  | some h => return (← h ⟨name, [], [], []⟩).inline
  | none => a.eval c

/-! ### Templates -/

mutual

/-- The text of a node. -/
def Node.render (c : Context) : Node → Except RenderError (List Char)
  | .text cs => .ok cs
  | .value a => do return valueText (← a.put c)
  | .call h => do return valueText (← h.outcome c).inline
  | .foreign name => .error (.foreign name)
  | .block h body otherwise => do
    match ← h.outcome c with
    | .value v => return valueText v
    | .first => renderAll c body
    | .other => renderAll c otherwise
    | .turns scopes => return (← scopes.mapM fun s => renderAll (c.enter s) body).flatten

/-- The text of several nodes. -/
def renderAll (c : Context) : List Node → Except RenderError (List Char)
  | [] => .ok []
  | n :: ns => do
    let t ← n.render c
    let ts ← renderAll c ns
    return t ++ ts

end

/-- The text of a template. -/
def render (template : Template) (data : Json) : Except RenderError String :=
  (renderAll { data } template).map String.ofList

end StyleModule.Template
