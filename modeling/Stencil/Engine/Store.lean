/-
# Engines that share their parts

Engines may share caches, libraries and sources. A store holds these parts,
each at an address, and a handle is an engine by the addresses of its parts. A
call writes the parts of its engine back. A preview puts new parts at new
addresses, enters the custom functions of the live engine one after another,
and then calls the engine that is made of them.

Key definitions: `Store`, `Handle`, `Store.load?`, `Store.resolve`,
`Store.preview`.
-/
import Stencil.Engine

namespace Stencil

/-- The parts of engines; the address of a part is its place. -/
structure Store where
  caches : List Cache := []
  libraries : List Library := []
  sources : List Sources := []

/-- An engine by the addresses of its parts. -/
structure Handle where
  /-- The address of the cache, if there is one. -/
  cache : Option Nat
  library : Nat
  sources : Nat
  maxDepth : Nat
  maxDepth_pos : 0 < maxDepth
  tracking : Tracking := {}

namespace Store

/-- The cache of an engine, if it is where the engine has it. -/
def cache? (s : Store) : Option Nat → Option (Option Cache)
  | none => some none
  | some a => s.caches[a]?.map some

/-- The engine of a handle, if its parts are where the handle has them. -/
def load? (s : Store) (h : Handle) : Option Engine :=
  match s.cache? h.cache, s.libraries[h.library]?, s.sources[h.sources]? with
  | some cache, some library, some sources =>
    some { h with cache, library, sources }
  | _, _, _ => none

/-- A store that holds the parts of an engine and nothing else, and the engine in it. -/
def ofEngine (e : Engine) : Store × Handle :=
  ({ caches := e.cache.toList, libraries := [e.library], sources := [e.sources] },
    { e with cache := e.cache.map fun _ => 0, library := 0, sources := 0 })

/-- The store with the parts of an engine where a handle has them. -/
def save (s : Store) (h : Handle) (e : Engine) : Store where
  caches :=
    match h.cache, e.cache with
    | some a, some cache => s.caches.set a cache
    | _, _ => s.caches
  libraries := s.libraries.set h.library e.library
  sources := s.sources.set h.sources e.sources

/-- Expands a template with the engine of a handle. -/
def resolve (s : Store) (h : Handle) (c : Context) (template : String)
    (stamp : Engine.Stamp := {}) : Option (Except Refusal Trace × Store) :=
  (s.load? h).map fun e =>
    let (a, e) := e.resolve c template stamp
    (a, s.save h e)

/-- Enters a function into the library at an address. -/
def enter (s : Store) (address : Nat) (f : Function) : Store :=
  { s with libraries := s.libraries.modify address (·.replace f) }

/-- The store with a standard library and the sources of previews at new addresses. -/
def allot (s : Store) (draw : Nat → Int) : Store :=
  { s with libraries := s.libraries ++ [.standard], sources := s.sources ++ [.preview draw] }

/-- The engine of a preview, at the addresses that are new. -/
def scratch (s : Store) (h : Handle) : Handle :=
  { h with cache := none, library := s.libraries.length, sources := s.sources.length }

/-- Expands a template with samples, by an engine of new parts with the custom functions of that of
the handle. -/
def preview (s : Store) (h : Handle) (samples : List (String × String)) (template : String)
    (stamp : Engine.Stamp := {}) (draw : Nat → Int := fun _ => 0) :
    Option (Except Refusal Trace × Store) :=
  s.libraries[h.library]?.bind fun live =>
    (live.custom.foldl (enter · s.libraries.length) (s.allot draw)).resolve (s.scratch h)
      (Engine.previewContext samples) template stamp

end Store
end Stencil
