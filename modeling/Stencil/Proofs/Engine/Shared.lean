/-
# A cache that engines share

Engines with libraries, bounds and clocks of their own may share a cache. As
long as nothing else puts entries into it, each entry holds a complete value:
all that its name refers to could be read without a fault and called no
function, the value is what the name stands for in every context that the entry
may be found for, and the height is that of its longest chain of references
(`shared_entries_complete`). Expansions that stop half-way, at the bound or at
something refused, keep what they have put by then, and that is complete too.

Key definitions: `Engine.Operation`, `Engine.perform`, `Cache.Change`.
Key theorem: `shared_entries_complete`.
-/
import Stencil.Proofs.Context.Complete
import Stencil.Proofs.Engine.Transparency

namespace Stencil

open Template

namespace Engine

open Pass

/-- What an engine can be asked to do that may change its cache. -/
inductive Operation where
  | resolve (c : Context) (template : String) (stamp : Stamp)
  | preview (samples : List (String × String)) (template : String) (stamp : Stamp)
  | preResolve (v : Variable) (c : Context) (moment : String)
  | invalidate (name : String)
  | clear

/-- The context in which an operation expands something, if it does so with the engine's cache. -/
def Operation.context? : Operation → Option Context
  | resolve c _ _ | preResolve _ c _ => some c
  | preview .. | invalidate _ | clear => none

/-- The engine after an operation. A preview leaves it as it is. -/
def perform (e : Engine) : Operation → Engine
  | .resolve c template stamp => (e.resolve c template stamp).2
  | .preview .. => e
  | .preResolve v c moment => (e.preResolve v c moment).2
  | .invalidate name => (e.invalidate name).2
  | .clear => { e with cache := e.cache.map Cache.clear }

/-- The entries of the cache, if there is one, are genuine. -/
def IsGenuine (U : Context → Prop) (e : Engine) : Prop :=
  ∀ k, e.cache = some k → k.All (Genuine U)

variable {U : Context → Prop} {e : Engine} {c : Context}

/-- A pass over a context of `U` finds plain values in a cache of genuine entries, and plain values
that it puts are genuine. -/
theorem upholds_genuine (hU : Context.CollisionFree U) (ht : ∀ c, U c → c.HasTexts) (hc : U c)
    (cycles : List (List String)) :
    (e.pass c cycles).Upholds fun k => k.All (Genuine U) where
  found hk hf := by
    obtain ⟨hall, hsome⟩ := hk.of_findNow hf
    exact ⟨hall, fun x hx => hsome x hx c hc rfl⟩
  put s hk hfp hx := by
    refine hk.putNow_cache (fun d hd hf => ?_) s
    obtain ⟨h, hh, hn⟩ := hx
    exact ⟨h, hh, hn.of_reading (hU.reading_eq hc hd (ht c hc) (ht d hd) (hfp.symm.trans hf.symm))⟩

/-- A call puts genuine entries into the cache only, whatever it comes to. -/
theorem ending_genuine (hU : Context.CollisionFree U) (ht : ∀ c, U c → c.HasTexts) (hc : U c)
    (h : e.IsGenuine U) (template : String) : (e.ending c template).cache.All (Genuine U) := by
  obtain hend | ⟨segments, graph, -, -, hend⟩ := ending_cases e c template
  · exact hend ▸ all_ledger h
  · exact hend ▸ expandTemplate_cache (upholds_genuine hU ht hc _) _ (all_ledger h)

theorem resolve_genuine (hU : Context.CollisionFree U) (ht : ∀ c, U c → c.HasTexts) (hc : U c)
    (h : e.IsGenuine U) (template : String) (stamp : Stamp) :
    (e.resolve c template stamp).2.IsGenuine U := by
  rw [resolve_engine]
  intro k hk
  obtain ⟨_, -, rfl⟩ := Option.map_eq_some_iff.1 hk
  exact ending_genuine hU ht hc h template

/-- Expanding a variable ahead of its use is a call, or leaves the engine as it is. -/
theorem preResolve_engine (e : Engine) (v : Variable) (c : Context) (moment : String) :
    (e.preResolve v c moment).2 = e ∨
      ∃ template, (e.preResolve v c moment).2 = (e.resolve c template).2 := by
  unfold preResolve
  split
  · exact .inl rfl
  · rename_i template _
    split
    · exact .inl rfl
    · split_ifs
      · exact .inl rfl
      · refine .inr ⟨template, ?_⟩
        rcases e.resolve c template with ⟨_ | trace, e'⟩
        · rfl
        · rfl

/-- Each operation leaves genuine entries only. -/
theorem IsGenuine.perform (hU : Context.CollisionFree U) (ht : ∀ c, U c → c.HasTexts)
    (h : e.IsGenuine U) {o : Operation} (ho : ∀ c ∈ o.context?, U c) :
    (e.perform o).IsGenuine U := by
  cases o with
  | resolve c template stamp => exact resolve_genuine hU ht (ho c rfl) h template stamp
  | preview samples template stamp => exact h
  | preResolve v c moment =>
    show IsGenuine U (e.preResolve v c moment).2
    rcases preResolve_engine e v c moment with he | ⟨template, he⟩
    · rw [he]
      exact h
    · rw [he]
      exact resolve_genuine hU ht (ho c rfl) h template _
  | invalidate name =>
    show IsGenuine U (e.invalidate name).2
    unfold Engine.invalidate
    split
    · exact h
    · rename_i k hk
      rintro k' ⟨⟩
      exact (h k hk).invalidate name
  | clear =>
    intro k' hk'
    obtain ⟨k, -, rfl⟩ := Option.map_eq_some_iff.1 hk'
    exact Cache.All.clear k

end Engine

namespace Cache

/-- What one engine makes of a cache by one operation in a context of `U`. Nothing is assumed of the
engine but that it has the cache: its library, its bound, and the time may be any. -/
inductive Change (U : Context → Prop) : Cache → Cache → Prop where
  | operation {e : Engine} {o : Engine.Operation} {k k' : Cache} (he : e.cache = some k)
      (ho : ∀ c ∈ o.context?, U c) (hk : (e.perform o).cache = some k') : Change U k k'

variable {U : Context → Prop} {k₀ k : Cache}

theorem All.of_changes (hU : Context.CollisionFree U) (ht : ∀ c, U c → c.HasTexts)
    (h : k₀.All (Pass.Genuine U)) (hr : Relation.ReflTransGen (Change U) k₀ k) :
    k.All (Pass.Genuine U) := by
  induction hr with
  | refl => exact h
  | @tail k₁ k₂ _ hs ih =>
    obtain ⟨he, ho, hk⟩ := hs
    have hg : Engine.IsGenuine U _ := fun k' hk' => by
      rw [he] at hk'
      cases hk'
      exact ih
    exact hg.perform hU ht ho _ hk

/-- **Every entry of a cache that engines share holds a complete value.** -/
theorem shared_entries_complete {U : Context → Prop} (hU : Context.CollisionFree U)
    (ht : ∀ c, U c → c.HasTexts) {k₀ k : Cache} (h₀ : k₀.entries = [])
    (hr : Relation.ReflTransGen (Change U) k₀ k) :
    ∀ x ∈ k.entries, ∀ c, U c → c.fingerprint = x.1.fingerprint →
      c.Complete x.1.name x.2.value x.2.height := by
  have hempty : k₀.All (Pass.Genuine U) := fun x hx => absurd (h₀ ▸ hx) List.not_mem_nil
  intro x hx c hc hf
  obtain ⟨h, hh, hn⟩ := (hempty.of_changes hU ht hr) x hx c hc hf
  rw [hh]
  exact hn.complete

/-- An engine expands a variable, and another one with the same cache, which allows one level only,
expands a template that begins with it. -/
theorem complete_after_two :
    let c : Context := { global := [
      { name := "host", value := .text "api.$\x7bdomain\x7d" },
      { name := "domain", value := .text "example.org" }] }
    let k₀ : Cache := { capacity := .int 2, lifetime := some (.int 60) }
    let e₁ : Engine := {
      cache := some k₀
      library := .standard
      sources := .preview
      maxDepth := 10
      maxDepth_pos := by decide }
    let k₁ := (e₁.ending c "$\x7bhost\x7d").cache
    let e₂ : Engine := {
      cache := some k₁
      library := ⟨[]⟩
      sources := .preview
      maxDepth := 1
      maxDepth_pos := by decide }
    let k₂ := (e₂.ending c "$\x7bhost\x7d $\x7bdomain\x7d").cache
    ∀ x ∈ k₂.entries, ∀ d, d = c → d.fingerprint = x.1.fingerprint →
      d.Complete x.1.name x.2.value x.2.height := by
  intro c k₀ e₁ k₁ e₂ k₂
  have ht : ∀ d, d = c → d.HasTexts := by
    rintro d rfl
    decide
  have hstep : ∀ (e : Engine) (k : Cache) (template : String), e.cache = some k →
      Change (· = c) k (e.ending c template).cache := by
    intro e k template he
    refine .operation (o := .resolve c template {}) he (fun d hd => (Option.some.inj hd).symm) ?_
    show (e.resolve c template _).2.cache = _
    rw [Engine.resolve_engine, Engine.after, he]
    rfl
  have hr : Relation.ReflTransGen (Change (· = c)) k₀ k₂ :=
    .tail (.single (hstep e₁ k₀ _ rfl)) (hstep e₂ k₁ _ rfl)
  exact shared_entries_complete (Context.CollisionFree.single c) ht rfl hr

end Cache
end Stencil
