import ChatCommands.RateLimit
import ChatCommands.Template.Grammar
import ChatCommands.Template.Render

namespace ChatCommands

/-- A template that can be rendered, together with the way it was written. -/
structure Template where
  source : String
  body : List Template.Statement

namespace Template

/-- Reads a template, if it is one. -/
def ofSource? (source : String) : Option Template := do
  return ⟨source, ← Parse.all (← Token.ofSource source)⟩

/-- The text of a template in which names have the given values, unless a part of it cannot be computed. -/
def render (t : Template) (values : List (String × Value)) : Option String :=
  (renderAll [values] t.body).map (·.1)

/-- Notices are written as such templates. -/
instance : TemplateEngine where
  compiles source := (ofSource? source).isSome
  render source seconds := do (← ofSource? source).render [("seconds", .whole seconds)]

end Template

end ChatCommands
