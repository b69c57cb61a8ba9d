import StyleModule.Proofs.Template.Reading
import StyleModule.Template.Render

/-!
# What is put in for tags

What a template with a tag for a member of the data becomes: the member itself
(`Template.render_value`), a string literal for it (`Template.render_quote`), or one of two texts
(`Template.render_if`). A string is put in as it is.
-/

namespace StyleModule.Template

variable {members : List (String × Json)} {helper name s : String} {v : Json}

/-- A member of the data is at the end of its path. -/
theorem follow_member (hv : Json.member? members name = some v) :
    Context.follow { data := .object members } (.here 0 [name]) = .ok v := by
  simp [Context.follow, Context.scopes, Context.value, resolve, hv]

theorem outcome_member {h : Helper} (hhelper : helper? helper = some h)
    (hv : Json.member? members name = some v) :
    Call.outcome { data := .object members } ⟨helper, [memberPath name], [], []⟩ =
      h ⟨helper, [v], [], []⟩ := by
  have hvalues : evalAll { data := .object members } [memberPath name] = .ok [v] := by
    simp only [evalAll, memberPath, Argument.eval, follow_member hv]
    rfl
  rw [Call.outcome, hvalues]
  change Invocation.run ⟨helper, [v], [], []⟩ = _
  rw [Invocation.run, hhelper]

/-! ### Nodes -/

/-- A member of the data is put in as it is, unless a helper has its name. -/
theorem render_value (hname : helper? name = none)
    (hs : Json.member? members name = some (.string s)) :
    (Node.value (memberPath name)).render { data := .object members } = .ok s.toList := by
  have hwritten : (memberPath name).name { data := .object members } = .ok name := rfl
  have hput : (memberPath name).put { data := .object members } = .ok (.string s) := by
    rw [Argument.put, hwritten]
    simp only [bind, Except.bind, hname]
    exact follow_member hs
  rw [Node.render, hput]
  rfl

/-- A helper for string literals puts in the literal for a member of the data. -/
theorem render_quote {write : String → List Char} (hhelper : helper? helper = some (.quote write))
    (hs : Json.member? members name = some (.string s)) :
    (Node.call ⟨helper, [memberPath name], [], []⟩).render { data := .object members } =
      .ok (write s) := by
  rw [Node.render, outcome_member hhelper hs]
  exact congrArg Except.ok String.toList_ofList

/-- Which text of a block is put in depends on whether a member of the data counts as true. -/
theorem render_if {body otherwise : List Node} (hhelper : helper? helper = some (.choice true))
    (hv : Json.member? members name = some v) :
    (Node.block ⟨helper, [memberPath name], [], []⟩ body otherwise).render
        { data := .object members } =
      renderAll { data := .object members } (if isTruthy v then body else otherwise) := by
  have hchoice : Helper.choice true ⟨helper, [v], [], []⟩ =
      .ok (if isTruthy v then .first else .other) := by
    change Except.ok (if (false && isNumber v || isTruthy v) = true then _ else _) = _
    rw [Bool.false_and, Bool.false_or]
  rw [Node.render, outcome_member hhelper hv, hchoice]
  cases isTruthy v <;> rfl

theorem renderAll_cons {c : Context} {n : Node} {ns : List Node} {t ts : List Char}
    (hn : n.render c = .ok t) (hns : renderAll c ns = .ok ts) :
    renderAll c (n :: ns) = .ok (t ++ ts) := by
  rw [renderAll, hn, hns]
  rfl

end StyleModule.Template
