/-
# What events tell that variables stand for

An event tells what a call came to, or what a variable stood for that the expansion
has come upon. For a variable that is defined this is the text of its definition, but
for three ways: the name lies on a cycle; it was stopped at the bound, where
nothing was looked up; or it was found in the cache, and the event tells what the
cache holds (`Quotes`).

Key definition: `Quotes`.
Key theorems: `Move.quotes`, `expandTemplate_quotes`.
-/
import Stencil.Proofs.Expansion.Account
import Stencil.Proofs.Expansion.Moves
import Stencil.Proofs.Tree.Build

namespace Stencil
namespace Pass

open Ledger Template Context

/-- An event of a variable is about one of the names `N`, and tells the text of its definition: or
it is a hit, or tells that the name was stopped at the bound or that it lies on a cycle. -/
structure QuotesName (p : Pass) (N : String → Prop) (x : Event) : Prop where
  named : N x.name
  text : ∀ d, p.context.define? x.name = .ok (some d) →
    x.kind = .hit ∨ x.error = some p.boundMessage ∨ (p.cycle? x.name).isSome = true ∨
      x.output = d.text

/-- An event that tells what a name stood for is about a call, or it quotes a variable. -/
def Quotes (p : Pass) (N : String → Prop) (x : Event) : Prop :=
  Tree.isAboutName x.kind = true → IsCallName x.name ∨ p.QuotesName N x

variable {p : Pass} {N : String → Prop} {K : Reference → Prop} {l l' : Ledger} {n : String}
  {d : Definition} {segments : List Segment}

/-- An event that tells the text of the definition. -/
theorem quotes_text {x : Event} (hn : N x.name)
    (hd : p.context.define? x.name = .ok (some d)) (hx : x.output = d.text) : p.Quotes N x := by
  refine fun _ => .inr ⟨hn, fun d' hd' => .inr (.inr (.inr ?_))⟩
  cases hd.symm.trans hd'
  exact hx

/-- A step quotes what its event does. -/
theorem Quotes.shape {x : Event} (h : p.Quotes N x) (r : Tracking) : p.Quotes N (r.shape x) :=
  fun hk => (h hk).imp_right fun hq => ⟨hq.named, hq.text⟩

theorem quotes_note {x : Event} (h : ∀ y ∈ l.recentEvents, p.Quotes N y) (hx : p.Quotes N x) :
    ∀ y ∈ (l.note x).recentEvents, p.Quotes N y :=
  List.forall_mem_cons.2 ⟨hx, h⟩

theorem quotes_fail {f : Failure} (h : ∀ y ∈ l.recentEvents, p.Quotes N y) :
    ∀ y ∈ (l.fail n f).recentEvents, p.Quotes N y := by
  rw [fail_events]
  exact h

/-- **A move quotes the variable that it is for.** -/
theorem Move.quotes (h : p.Move N K l l') (hl : ∀ x ∈ l.recentEvents, p.Quotes N x) :
    ∀ x ∈ l'.recentEvents, p.Quotes N x := by
  cases h with
  | shift => exact hl
  | list => exact quotes_fail hl
  | circular n cycle depth hn hc =>
    have hsome : (p.cycle? n).isSome = true := by
      rw [hc]
      rfl
    exact quotes_note hl fun _ => .inr ⟨hn, fun _ _ => .inr (.inr (.inl hsome))⟩
  | bound n depth hn => exact quotes_note hl fun _ => .inr ⟨hn, fun _ _ => .inr (.inl rfl)⟩
  | miss => exact quotes_note hl fun hk => (Bool.false_ne_true hk).elim
  | hit n e b depth hn => exact quotes_note hl fun _ => .inr ⟨hn, fun _ _ => .inl rfl⟩
  | undefined n depth hn hd =>
    refine quotes_fail (quotes_note hl fun _ => .inr ⟨hn, fun d hd' => ?_⟩)
    cases hd.symm.trans hd'
  | malformed n d f depth hn hd => exact quotes_fail (quotes_note hl (quotes_text hn hd rfl))
  | lookup n d segments b depth hn hd => exact quotes_note hl (quotes_text hn hd rfl)
  | nested => exact quotes_note hl fun hk => (Bool.false_ne_true hk).elim
  | resolve => exact hl
  | spoil => exact hl
  | tooDeep => exact quotes_fail hl
  | called r text depth hr hc => exact quotes_note hl fun _ => .inl (isCallName_displayName hc)
  | broken r f depth hr hc => exact quotes_note hl fun _ => .inl (isCallName_displayName hc)

/-- What the values of names that are reached come upon is reached. -/
theorem isClosed_reached (p : Pass) (roots : List String) :
    p.IsClosed (p.context.Reached roots) fun _ => True := by
  intro n d segments hn hd hp r hr
  unfold Reference.Meets
  split_ifs with hc
  · trivial
  · rw [Bool.not_eq_true] at hc
    exact hn.refers ((refers_iff hd hp).2 (mem_variableNames.2 ⟨r, hr, hc, rfl⟩))

/-- **Expanding a template quotes the variables that are reached from it.** -/
theorem expandTemplate_quotes (p : Pass) (segments : List Segment) (hl : l.recentEvents = []) :
    ∀ x ∈ (p.expandTemplate segments l).2.recentEvents,
      p.Quotes (p.context.Reached (variableNames segments)) x := by
  have hmeet : Segment.Meet (p.context.Reached (variableNames segments)) (fun _ => True)
      segments := by
    intro r hr
    unfold Reference.Meets
    split_ifs with hc
    · trivial
    · rw [Bool.not_eq_true] at hc
      exact ⟨r.name, mem_variableNames.2 ⟨r, hr, hc, rfl⟩, .refl⟩
  refine (expandTemplate_moves (isClosed_reached p _) hmeet l).keeps
    (fun hm hl => hm.quotes hl) fun x hx => ?_
  rw [hl] at hx
  exact absurd hx List.not_mem_nil

end Pass
end Stencil
