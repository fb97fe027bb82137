/-
# The events of an expansion

Whatever a cache holds and whatever functions do, an expansion notes events of
few forms (`expandTemplate_tells`). Those of calls have the names of calls. What a
lookup tells that a variable stood for can be read again, be it a marker or the
value of a definition (`Tells.read_lookup`); of a hit that need not be so, as its
text comes from the cache.

Key definitions: `Tells`, `OnlyTells`.
Key theorems: `Tells.read_lookup`, `expandTemplate_tells`.
-/
import Stencil.Proofs.Expansion.Moves
import Stencil.Proofs.Expansion.Visits
import Stencil.Proofs.Marker

namespace Stencil

open Template Context

namespace Pass

open Ledger

/-- The events that a pass may note. -/
inductive Tells (p : Pass) : Event → Prop where
  | circular (n : String) (cycle : List String) (depth : Int)
      (hn : isIdentifier n.toList = true) : Tells p (circularEvent n cycle depth)
  | bound (n : String) (depth : Int) : Tells p (p.boundEvent n depth)
  | miss (n : String) (depth : Int) : Tells p (missEvent n depth)
  | hit (n : String) (e : Cache.Entry) (b : Bool) (depth : Int) : Tells p (p.hitEvent n e b depth)
  | undefined (n : String) (depth : Int) (hn : isIdentifier n.toList = true) :
      Tells p (undefinedEvent n depth)
  | malformed (n : String) (d : Definition) (f : Failure) (depth : Int)
      (hd : p.context.define? n = .ok (some d)) : Tells p (p.malformedEvent n d f depth)
  | lookup (n : String) (d : Definition) (b : Bool) (depth : Int)
      (hd : p.context.define? n = .ok (some d)) : Tells p (p.lookupEvent n d b depth)
  | nested (n : String) (d : Definition) (x : Expansion) (depth : Int) :
      Tells p (nestedEvent n d x depth)
  | call (r : Reference) (out : String) (error : Option String) (depth : Int)
      (hr : r.isCall = true) : Tells p (callEvent r out error depth)

variable {p : Pass} {e : Event} {n : String} {l l' : Ledger} {segments : List Segment}

/-- **What a lookup tells can be read.** -/
theorem Tells.read_lookup (h : p.Tells e) (he : e.kind = .lookup) :
    ∃ reading, Template.read e.output = .ok reading := by
  have hdefined : ∀ {n d}, p.context.define? n = .ok (some d) →
      ∃ reading, Template.read d.text = .ok reading := fun hd => by
    obtain ⟨reading, hr, -⟩ := read_of_parse (define?_parse hd)
    exact ⟨reading, hr⟩
  cases h with
  | circular n cycle depth hn => exact Marker.read_marker hn
  | undefined n depth hn => exact Marker.read_marker hn
  | bound n depth =>
    have hnil : pieces "".toList = .ok [] := by
      rw [String.toList_empty, pieces]
    exact ⟨_, read_of_pieces hnil⟩
  | malformed n d f depth hd => exact hdefined hd
  | lookup n d b depth hd => exact hdefined hd
  | miss => cases he
  | hit => cases he
  | nested => cases he
  | call => cases he

/-- The event of a call has the name of one. -/
theorem Tells.call_name (h : p.Tells e) (he : e.kind = .call) :
    ∃ r : Reference, r.isCall = true ∧ e.name = r.displayName := by
  cases h with
  | call r out error depth hr => exact ⟨r, hr, rfl⟩
  | _ => cases he

/-- All events of a ledger are such as the pass may note. -/
def OnlyTells (p : Pass) (l : Ledger) : Prop := ∀ e ∈ l.events, p.Tells e

theorem OnlyTells.note (h : p.OnlyTells l) (he : p.Tells e) : p.OnlyTells (l.note e) := by
  intro x hx
  rw [events_note] at hx
  rcases List.mem_append.1 hx with hx | hx
  · exact h x hx
  · exact List.mem_singleton.1 hx ▸ he

theorem OnlyTells.quiet (h : p.OnlyTells l) (hq : l.Quiet l') : p.OnlyTells l' := by
  intro x hx
  rw [hq.events] at hx
  exact h x hx

/-- What stands in well-formed segments refers to identifiers. -/
def AreNamed (segments : List Segment) : Prop :=
  ∀ r, .reference r ∈ segments → isIdentifier r.name.toList = true

/-- A move tells of nothing else. -/
theorem Move.tells {K : Reference → Prop}
    (h : p.Move (fun n => isIdentifier n.toList = true) K l l') (hl : p.OnlyTells l) :
    p.OnlyTells l' := by
  cases h with
  | shift => exact hl
  | list c hc => exact hl.quiet (.fail l c.1 _)
  | circular n cycle depth hn => exact hl.note (.circular n cycle depth hn)
  | bound n depth => exact hl.note (.bound n depth)
  | miss n depth => exact hl.note (.miss n depth)
  | hit n e b depth => exact hl.note (.hit n e b depth)
  | undefined n depth hn => exact (hl.note (.undefined n depth hn)).quiet (.fail _ n _)
  | malformed n d f depth hn hd => exact (hl.note (.malformed n d _ depth hd)).quiet (.fail _ n _)
  | lookup n d segments b depth hn hd => exact hl.note (.lookup n d b depth hd)
  | nested n d segments x depth => exact hl.note (.nested n d x depth)
  | resolve => exact hl
  | spoil => exact hl
  | tooDeep n inner => exact hl.quiet (.fail l n _)
  | called r text depth hr hc => exact hl.note (.call r _ _ depth hc)
  | broken r f depth hr hc => exact hl.note (.call r _ _ depth hc)

/-- **Expanding a template notes nothing else.** -/
theorem expandTemplate_tells (hs : AreNamed segments) (h : p.OnlyTells l) :
    p.OnlyTells (p.expandTemplate segments l).2 := by
  have hmeet : ∀ {segments}, AreNamed segments →
      Segment.Meet (fun n => isIdentifier n.toList = true) (fun _ => True) segments := by
    intro segments hs r hr
    unfold Reference.Meets
    split_ifs
    · trivial
    · exact hs r hr
  have hclosed : p.IsClosed (fun n => isIdentifier n.toList = true) fun _ => True :=
    fun n d segments _ hd hp => hmeet (define?_names hd hp)
  exact (expandTemplate_moves hclosed (hmeet hs) l).keeps (fun hm hl => hm.tells hl) h

end Pass
end Stencil
