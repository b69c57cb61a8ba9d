import StyleModule.Proofs.Outcome
import StyleModule.Template.Render

/-!
# What rendering fails for

A template that has been read is rendered unless one of its tags is at fault: the way to a value, a
helper, or what is handed to a helper (`Template.failsOverTag_render`). So a failure that is over no
tag tells that nothing was rendered at all, as there is no template.
-/

namespace StyleModule.Template

variable {α β : Type}

/-- A tag is at fault, and not that there is no template. -/
def RenderError.IsOfTag : RenderError → Prop
  | unknownTemplate _ => False
  | unreadable => False
  | _ => True

/-- If an outcome is a failure, a tag is at fault. -/
def FailsOverTag (x : Except RenderError α) : Prop := ∀ e, x = .error e → e.IsOfTag

theorem failsOverTag_ok (a : α) : FailsOverTag (.ok a) := by
  intro e he
  cases he

theorem failsOverTag_error {e : RenderError} (he : e.IsOfTag) :
    FailsOverTag (.error e : Except RenderError α) := by
  rintro _ ⟨⟩
  exact he

/-- Steps that only fail over tags do so one after the other. -/
theorem FailsOverTag.bind {x : Except RenderError α} {f : α → Except RenderError β}
    (hx : FailsOverTag x) (hf : ∀ a, FailsOverTag (f a)) : FailsOverTag (x >>= f) := by
  cases x with
  | error e => exact failsOverTag_error (hx e rfl)
  | ok a => exact hf a

/-- What is made of a value cannot fail. -/
theorem FailsOverTag.bind_pure {x : Except RenderError α} (hx : FailsOverTag x) (f : α → β) :
    FailsOverTag (x >>= fun a => pure (f a)) :=
  hx.bind fun a => failsOverTag_ok (f a)

theorem FailsOverTag.mapM {f : α → Except RenderError β} (hf : ∀ a, FailsOverTag (f a))
    (as : List α) : FailsOverTag (as.mapM f) := by
  intro e he
  rw [← failure?_eq_some_iff, failure?_mapM] at he
  obtain ⟨a, -, ha⟩ := List.exists_of_findSome?_eq_some he
  exact hf a e (failure?_eq_some_iff.1 ha)

/-! ### Paths -/

theorem failsOverTag_resolve (parts : List String) (v : Json) : FailsOverTag (resolve parts v) := by
  induction parts generalizing v with
  | nil => exact failsOverTag_ok v
  | cons part parts ih =>
    cases v with
    | array items =>
      rw [resolve]
      cases index? part with
      | none => exact failsOverTag_error trivial
      | some i => exact ih _
    | object members => exact ih _
    | _ => exact failsOverTag_ok _

theorem failsOverTag_follow (c : Context) (p : Path) : FailsOverTag (c.follow p) := by
  cases p with
  | here levels parts =>
    cases parts with
    | nil => exact failsOverTag_ok _
    | cons name parts =>
      rw [Context.follow]
      cases c.scopes.findSome? fun s => s.names.lookup name with
      | none => exact failsOverTag_resolve _ _
      | some v => exact failsOverTag_resolve _ _
  | top parts => exact failsOverTag_resolve _ _
  | turn levels name => exact failsOverTag_ok _

/-! ### Helpers -/

namespace Invocation

theorem failsOverTag_value (i : Invocation) (place : Nat) : FailsOverTag (i.value place) := by
  unfold Invocation.value
  cases i.values[place]? with
  | none => exact failsOverTag_error trivial
  | some v => exact failsOverTag_ok v

theorem failsOverTag_integer (i : Invocation) (place : Nat) : FailsOverTag (i.integer place) := by
  refine (i.failsOverTag_value place).bind fun v => ?_
  cases v with
  | int n =>
    dsimp only
    split
    · exact failsOverTag_ok n
    · exact failsOverTag_error trivial
  | _ => exact failsOverTag_error trivial

end Invocation

namespace Helper

theorem failsOverTag_unary (f : Json → Json) (i : Invocation) : FailsOverTag (unary f i) :=
  (i.failsOverTag_value 0).bind_pure _

theorem failsOverTag_binary (f : Json → Json → Json) (i : Invocation) :
    FailsOverTag (binary f i) :=
  (i.failsOverTag_value 0).bind fun _ => (i.failsOverTag_value 1).bind_pure _

theorem failsOverTag_compare (holds : Int → Int → Bool) (i : Invocation) :
    FailsOverTag (compare holds i) :=
  (i.failsOverTag_integer 0).bind fun _ => (i.failsOverTag_integer 1).bind_pure _

theorem failsOverTag_choice (takesFirst : Bool) (i : Invocation) :
    FailsOverTag (choice takesFirst i) :=
  (i.failsOverTag_value 0).bind_pure _

theorem failsOverTag_each (i : Invocation) : FailsOverTag (each i) := by
  refine (i.failsOverTag_value 0).bind fun v => ?_
  split <;> exact failsOverTag_ok _

theorem failsOverTag_about (i : Invocation) : FailsOverTag (about i) :=
  (i.failsOverTag_value 0).bind_pure _

theorem failsOverTag_log (i : Invocation) : FailsOverTag (log i) := by
  unfold log
  split
  · split
    · exact failsOverTag_error trivial
    · exact failsOverTag_error trivial
    · exact failsOverTag_ok _
  · exact failsOverTag_ok _

end Helper

theorem failsOverTag_helpers : ∀ entry ∈ helpers, ∀ i, FailsOverTag (entry.2 i) := by
  open Helper in
  simp [helpers, quote, failsOverTag_ok, failsOverTag_unary, failsOverTag_binary,
    failsOverTag_compare, failsOverTag_choice, failsOverTag_each, failsOverTag_about,
    failsOverTag_log]

theorem failsOverTag_of_helper? {name : String} {h : Helper} (hname : helper? name = some h)
    (i : Invocation) : FailsOverTag (h i) := by
  obtain ⟨before, after, hhelpers, -⟩ := List.lookup_eq_some_iff.1 hname
  have hmem : (name, h) ∈ helpers := by
    rw [hhelpers]
    exact List.mem_append_right before List.mem_cons_self
  exact failsOverTag_helpers _ hmem i

theorem failsOverTag_run (i : Invocation) : FailsOverTag i.run := by
  unfold Invocation.run
  cases hname : helper? i.helper with
  | none => exact failsOverTag_error trivial
  | some h => exact failsOverTag_of_helper? hname i

/-! ### Arguments -/

mutual

theorem failsOverTag_eval (c : Context) (a : Argument) : FailsOverTag (a.eval c) := by
  cases a with
  | path written p =>
    rw [Argument.eval]
    exact failsOverTag_follow c p
  | literal v =>
    rw [Argument.eval]
    exact failsOverTag_ok v
  | call helper as named =>
    rw [Argument.eval]
    exact (failsOverTag_evalAll c as).bind fun _ => (failsOverTag_evalNamed c named).bind fun _ =>
      (failsOverTag_run _).bind_pure _

theorem failsOverTag_evalAll (c : Context) (as : List Argument) : FailsOverTag (evalAll c as) := by
  cases as with
  | nil =>
    rw [evalAll]
    exact failsOverTag_ok []
  | cons a as =>
    rw [evalAll]
    exact (failsOverTag_eval c a).bind fun _ => (failsOverTag_evalAll c as).bind_pure _

theorem failsOverTag_evalNamed (c : Context) (named : List (String × Argument)) :
    FailsOverTag (evalNamed c named) := by
  cases named with
  | nil =>
    rw [evalNamed]
    exact failsOverTag_ok []
  | cons a named =>
    obtain ⟨name, a⟩ := a
    rw [evalNamed]
    exact (failsOverTag_eval c a).bind fun _ => (failsOverTag_evalNamed c named).bind_pure _

end

theorem failsOverTag_outcome (c : Context) (call : Call) : FailsOverTag (call.outcome c) :=
  (failsOverTag_evalAll c _).bind fun _ => (failsOverTag_evalNamed c _).bind fun _ =>
    failsOverTag_run _

theorem failsOverTag_name (c : Context) (a : Argument) : FailsOverTag (a.name c) := by
  cases a with
  | path written p => exact failsOverTag_ok written
  | _ => exact (failsOverTag_eval c _).bind_pure _

theorem failsOverTag_put (c : Context) (a : Argument) : FailsOverTag (a.put c) := by
  refine (failsOverTag_name c a).bind fun name => ?_
  split
  · next h hname => exact (failsOverTag_of_helper? hname _).bind_pure _
  · exact failsOverTag_eval c a

/-! ### Templates -/

mutual

theorem failsOverTag_node (c : Context) (n : Node) : FailsOverTag (n.render c) := by
  cases n with
  | text cs =>
    rw [Node.render]
    exact failsOverTag_ok cs
  | value a =>
    rw [Node.render]
    exact (failsOverTag_put c a).bind_pure _
  | call h =>
    rw [Node.render]
    exact (failsOverTag_outcome c h).bind_pure _
  | foreign name =>
    rw [Node.render]
    exact failsOverTag_error trivial
  | block h body otherwise =>
    rw [Node.render]
    refine (failsOverTag_outcome c h).bind fun outcome => ?_
    cases outcome with
    | value v => exact failsOverTag_ok _
    | first => exact failsOverTag_renderAll c body
    | other => exact failsOverTag_renderAll c otherwise
    | turns scopes =>
      -- Each turn is in a scope of its own, so that the context changes on the way down.
      have hturns := FailsOverTag.mapM (fun s => failsOverTag_renderAll (c.enter s) body) scopes
      exact hturns.bind_pure _

theorem failsOverTag_renderAll (c : Context) (ns : List Node) : FailsOverTag (renderAll c ns) := by
  cases ns with
  | nil =>
    rw [renderAll]
    exact failsOverTag_ok []
  | cons n ns =>
    rw [renderAll]
    exact (failsOverTag_node c n).bind fun _ => (failsOverTag_renderAll c ns).bind_pure _

end

end StyleModule.Template
