/-
# The graph of a context

The graph of all names that some roots refer to, directly or through others,
with what each name means. Names waiting to be looked up lie on a stack; the
references of a name are put on top, so the last one is looked up first.

Key definitions: `Graph.ofContext`, `Graph.ofTemplate`.
-/
import Stencil.Context.Definition
import Stencil.Graph

namespace Stencil
namespace Graph

/-- The details of a defined name. -/
def detailsOf (d : Definition) : NodeDetails where
  isDefined := true
  scope := some d.scope.name
  value := some d.text
  error := match d.parsed with
    | .ok _ => none
    | .error f => some f.message

/-- The graph with a defined name and its references. -/
def addDefinition (g : Graph) (name : String) (d : Definition) : Graph :=
  d.references.foldl (fun g m => g.addEdge name m) (g.addNode name (detailsOf d))

/-- Looks up the names on a stack. `fresh` holds the defined names not yet looked up. -/
def reach (c : Context) (fresh stack : List String) (g : Graph) : Except Refusal Graph :=
  match stack with
  | [] => .ok g
  | name :: rest =>
    match c.define? name with
    | .error e => .error e
    | .ok none => reach c fresh rest (g.addNode name { isDefined := false })
    | .ok (some d) =>
      if _h : fresh.contains name then
        reach c (fresh.erase name) (d.references.reverse ++ rest) (g.addDefinition name d)
      else reach c fresh rest g
termination_by (fresh.length, stack.length)
decreasing_by
  · exact Prod.Lex.right _ (Nat.lt_succ_self _)
  · apply Prod.Lex.left
    have hm : name ∈ fresh := by simpa using _h
    have := List.length_erase_of_mem hm
    have := List.length_pos_of_mem hm
    omega
  · exact Prod.Lex.right _ (Nat.lt_succ_self _)

/-- The graph of all that the roots refer to in a context. -/
def ofContext (c : Context) (roots : List String) : Except Refusal Graph :=
  reach c c.definedNames roots.eraseDups (ofRoots roots)

/-- The graph of all that a template refers to in a context. -/
def ofTemplate (c : Context) (template : String) : Except Refusal Graph :=
  match Template.read template with
  | .error e => .error e
  | .ok r => ofContext c (Template.variableNames r.segments)

end Graph
end Stencil
