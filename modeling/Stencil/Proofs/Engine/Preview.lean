/-
# Previews stand apart

A preview is a call of an engine of its own, of which the live engine gives the
bound on the depth, the tracking and the custom functions, and nothing else
(`preview_isolated`).

It leaves alone whatever engines share. Its parts are at new addresses: entering
functions into the new library changes that library only (`foldl_enter`), and the
call writes back to the new library and the new sources. So the store afterwards
is the store before with a library and sources at its end (`preview_eq`), and a
handle stands for the engine that it stood for (`load?_grown`).

Engines that have those three things in common preview templates alike, and so
does any engine without a cache in which the custom functions lie over the
standard ones: what the library of such an engine is does not matter as long as
calls are answered alike (`resolve_withLibrary`), and neither does when the call is
made (`resolve_untimed`).

Key definitions: `Store.grown`, `Engine.PreviewsLike`, `Engine.IsPreviewer`.
Key theorems: `preview_eq`, `load?_grown`, `resolve_withLibrary`,
`resolve_untimed`, `preview_isolated`.
-/
import Stencil.Engine.Store
import Stencil.Proofs.Engine.Replay
import Stencil.Proofs.Expansion.Library
import Stencil.Proofs.Function.Library

namespace Stencil
namespace Store

variable {s : Store} {h : Handle} {e : Engine} {l : Library} {x : Sources}

/-- The store with a library and sources more. -/
def grown (s : Store) (l : Library) (x : Sources) : Store :=
  { s with libraries := s.libraries ++ [l], sources := s.sources ++ [x] }

theorem load?_eq_some_iff : s.load? h = some e ↔
    s.cache? h.cache = some e.cache ∧ s.libraries[h.library]? = some e.library ∧
      s.sources[h.sources]? = some e.sources ∧ h.maxDepth = e.maxDepth ∧ h.tracking = e.tracking := by
  unfold load?
  constructor
  · intro he
    split at he
    · rename_i hc hl hs
      cases he
      exact ⟨hc, hl, hs, rfl, rfl⟩
    · cases he
  · rintro ⟨hc, hl, hs, hd, ht⟩
    rw [hc, hl, hs]
    obtain ⟨_, _, _, _, _, _⟩ := e
    cases hd
    cases ht
    rfl

/-- Every engine is held by a store. -/
theorem load?_ofEngine (e : Engine) : (ofEngine e).1.load? (ofEngine e).2 = some e := by
  refine load?_eq_some_iff.2 ⟨?_, rfl, rfl, rfl, rfl⟩
  unfold ofEngine cache?
  cases e.cache with
  | none => rfl
  | some cache => rfl

/-- What a handle stands for stays when a store grows. -/
theorem load?_grown (he : s.load? h = some e) : (s.grown l x).load? h = some e := by
  obtain ⟨hc, hl, hs, hd, ht⟩ := load?_eq_some_iff.1 he
  refine load?_eq_some_iff.2 ⟨hc, ?_, ?_, hd, ht⟩
  · exact (List.getElem?_append_left (List.getElem?_eq_some_iff.1 hl).1).trans hl
  · exact (List.getElem?_append_left (List.getElem?_eq_some_iff.1 hs).1).trans hs

/-- What is written back to the new addresses takes the place of what was there. -/
theorem save_scratch : (s.grown l x).save (s.scratch h) e = s.grown e.library e.sources := by
  simp [grown, save, scratch]

/-! ### Entering functions -/

theorem enter_grown (f : Function) :
    (s.grown l x).enter s.libraries.length f = s.grown (l.replace f) x := by
  have hmodify : ∀ ls : List Library,
      (ls ++ [l]).modify ls.length (·.replace f) = ls ++ [l.replace f] := by
    intro ls
    induction ls with
    | nil => rfl
    | cons k ls ih => simpa using ih
  unfold enter grown
  dsimp only
  rw [hmodify]

/-- Functions that are entered into the new library change nothing else. -/
theorem foldl_enter (fs : List Function) :
    fs.foldl (enter · s.libraries.length) (s.grown l x) = s.grown (l.extend fs) x := by
  induction fs generalizing l with
  | nil => rfl
  | cons f fs ih =>
    rw [List.foldl_cons, enter_grown, ih]
    rfl

/-! ### Previews -/

/-- **A preview answers as the engine of its handle does, and leaves the store with a library and
sources more.** -/
theorem preview_eq (he : s.load? h = some e) (samples : List (String × String)) (template : String)
    (stamp : Engine.Stamp) (draw : Nat → Int) :
    let after := ((e.previewer draw).resolve (Engine.previewContext samples) template stamp).2
    s.preview h samples template stamp draw =
      some (e.preview samples template stamp draw, s.grown after.library after.sources) := by
  obtain ⟨-, hl, -, hd, ht⟩ := load?_eq_some_iff.1 he
  have hengine : (s.grown (Library.standard.extend e.library.custom) (.preview draw)).load?
      (s.scratch h) = some (e.previewer draw) :=
    load?_eq_some_iff.2
      ⟨rfl, List.getElem?_concat_length, List.getElem?_concat_length, hd, ht⟩
  have hentered : e.library.custom.foldl (enter · s.libraries.length) (s.allot draw) =
      s.grown (Library.standard.extend e.library.custom) (.preview draw) := foldl_enter _
  unfold preview
  rw [hl, Option.bind_some, hentered, resolve, hengine, Option.map_some]
  dsimp only
  rw [save_scratch]
  rfl

end Store

namespace Engine

variable {d d' e e' : Engine} {l : Library} {c : Context} {template : String} {stamp : Stamp}
  {draw : Nat → Int}

/-! ### What an answer depends on -/

/-- The engine with another library. -/
def withLibrary (e : Engine) (l : Library) : Engine := { e with library := l }

/-- A call needs the answers of the library only. -/
theorem resolve_withLibrary (h : l.invoke = e.library.invoke) :
    ((e.withLibrary l).resolve c template stamp).1 = (e.resolve c template stamp).1 := by
  have hexpand : ∀ cycles, ((e.withLibrary l).pass c cycles).expandTemplate =
      (e.pass c cycles).expandTemplate := fun cycles =>
    @Pass.expandTemplate_withLibrary (e.pass c cycles) l h
  have hledger : (e.withLibrary l).ledger = e.ledger := rfl
  have houtcome : (e.withLibrary l).outcome c template = e.outcome c template := by
    unfold outcome
    simp only [hexpand, hledger]
  have hrecorded : (e.withLibrary l).recorded c template stamp = e.recorded c template stamp := by
    unfold recorded ending
    simp only [hexpand, hledger]
    rfl
  rw [resolve_eq, resolve_eq, houtcome, hrecorded]

theorem resolve_congr (hc : d.cache = d'.cache) (hs : d.sources = d'.sources)
    (hm : d.maxDepth = d'.maxDepth) (ht : d.tracking = d'.tracking)
    (hl : d.library.invoke = d'.library.invoke) :
    (d.resolve c template stamp).1 = (d'.resolve c template stamp).1 := by
  have hd : d = d'.withLibrary d.library := by
    obtain ⟨_, _, _, _, _, _⟩ := d
    obtain ⟨_, _, _, _, _, _⟩ := d'
    cases hc
    cases hs
    cases hm
    cases ht
    rfl
  rw [hd, resolve_withLibrary hl]

theorem replay_untimed (r : Recorder) (l : Ledger) :
    (replay r.untimed l).untimed = (replay r l).untimed := by
  unfold replay
  dsimp only
  rw [Recorder.foldl_addFailure_untimed, Recorder.foldl_take_untimed,
    ← Recorder.foldl_addFailure_untimed]

/-- When a call is made has no influence on its answer, times aside. -/
theorem resolve_untimed (e : Engine) (c : Context) (template : String) (stamp stamp' : Stamp) :
    (e.resolve c template stamp).1.map Trace.untimed =
      (e.resolve c template stamp').1.map Trace.untimed := by
  have hrecorded : (e.recorded c template stamp).untimed =
      (e.recorded c template stamp').untimed := by
    unfold recorded
    rw [← replay_untimed, ← replay_untimed (.start stamp'.id _ _ _ _)]
    rfl
  rw [resolve_eq, resolve_eq]
  cases e.outcome c template with
  | error r => rfl
  | ok x =>
    have hclose : ((e.recorded c template stamp).close x).1.untimed =
        ((e.recorded c template stamp').close x).1.untimed := by
      rw [← Recorder.close_untimed, hrecorded, Recorder.close_untimed]
    exact congrArg Except.ok hclose

/-! ### Engines for previews -/

/-- Engines that have in common what previews take of them. -/
structure PreviewsLike (e e' : Engine) : Prop where
  maxDepth : e.maxDepth = e'.maxDepth
  tracking : e.tracking = e'.tracking
  custom : ∀ n, Option.Rel Function.Alike (e.library.custom? n) (e'.library.custom? n)

/-- An engine without a cache, with the bound and the tracking of `e`, in which the custom functions
of `e` lie over the standard library. -/
structure IsPreviewer (d e : Engine) (draw : Nat → Int) : Prop where
  cache : d.cache = none
  sources : d.sources = .preview draw
  maxDepth : d.maxDepth = e.maxDepth
  tracking : d.tracking = e.tracking
  library : ∀ n, d.library.get? n = (e.library.custom? n).or (Library.standard.get? n)

theorem PreviewsLike.refl (e : Engine) : e.PreviewsLike e :=
  ⟨rfl, rfl, fun _ => Function.Alike.rel_refl _⟩

theorem previewer_isPreviewer (e : Engine) (draw : Nat → Int) :
    (e.previewer draw).IsPreviewer e draw :=
  ⟨rfl, rfl, rfl, rfl, Library.get?_extend_custom .standard e.library⟩

/-- Engines for previews of engines that have in common what previews take answer alike. -/
theorem IsPreviewer.resolve_eq (h : d.IsPreviewer e draw) (h' : d'.IsPreviewer e' draw)
    (he : e.PreviewsLike e') : (d.resolve c template stamp).1 = (d'.resolve c template stamp).1 := by
  refine resolve_congr (h.cache.trans h'.cache.symm) (h.sources.trans h'.sources.symm)
    (h.maxDepth.trans (he.maxDepth.trans h'.maxDepth.symm))
    (h.tracking.trans (he.tracking.trans h'.tracking.symm)) (Library.invoke_congr fun n => ?_)
  rw [h.library, h'.library]
  have hn := he.custom n
  generalize e.library.custom? n = a at hn
  generalize e'.library.custom? n = b at hn
  cases hn with
  | some hf => exact .some hf
  | none => exact Function.Alike.rel_refl _

theorem exists_previewRequest : ∃ r,
    Request.ofUrl "https://example.com/api/v1/users" "GET" [] none (.float 1704067200) = .ok r :=
  ⟨_, rfl⟩

/-- **A preview is isolated from the live engine.** Made with an engine that may share its parts with
others, it answers and leaves all of these as they are, and all caches. Engines that have the bound
on the depth, the tracking and the custom functions in common preview a template alike, times
aside. A preview is what an engine without a cache answers that has the custom functions over the
standard ones, in the context in which the samples are global and the request is fixed. -/
theorem preview_isolated (e : Engine) (samples : List (String × String)) (template : String)
    (draw : Nat → Int) :
    (∀ (s : Store) (h : Handle) (stamp : Stamp), s.load? h = some e →
      ∃ s', s.preview h samples template stamp draw =
          some (e.preview samples template stamp draw, s') ∧
        s'.caches = s.caches ∧ ∀ h' e', s.load? h' = some e' → s'.load? h' = some e') ∧
    (∀ e' : Engine, e.PreviewsLike e' → ∀ stamp stamp' : Stamp,
      (e.preview samples template stamp draw).map Trace.untimed =
        (e'.preview samples template stamp' draw).map Trace.untimed) ∧
    ∃ r, Request.ofUrl "https://example.com/api/v1/users" "GET" [] none
        (.float 1704067200) = .ok r ∧
      ∀ d : Engine, d.IsPreviewer e draw → ∀ stamp : Stamp,
        (d.resolve (.build {
          system := Context.systemFor (some r)
          global := samples.map fun x => { name := x.1, value := .text x.2 }
          request := some r }) template stamp).1 = e.preview samples template stamp draw := by
  refine ⟨fun s h stamp he => ?_, fun e' he stamp stamp' => ?_, ?_⟩
  · exact ⟨_, Store.preview_eq he samples template stamp draw, rfl, fun _ _ => Store.load?_grown⟩
  · unfold preview
    rw [resolve_untimed _ _ _ stamp stamp',
      (e.previewer_isPreviewer draw).resolve_eq (e'.previewer_isPreviewer draw) he]
  · obtain ⟨r, hr⟩ := exists_previewRequest
    have hrequest : previewRequest = some r := congrArg Except.toOption hr
    refine ⟨r, hr, fun d hd stamp => ?_⟩
    unfold preview previewContext
    rw [hrequest]
    exact hd.resolve_eq (e.previewer_isPreviewer draw) (.refl e)

/-- A live engine whose identifiers are not those of the standard library, and another one with a
cache, another clock, and another description of the custom function that both have. -/
theorem preview_isolated_shout :
    let shout : Function := {
      name := "shout"
      parameters := [{ name := "text" }]
      run := fun values s => (.ok (.text (Function.textAt values 0 ++ "!")), s) }
    let live : Library := ⟨[{ Function.uuid with run := fun _ s => (.ok (.text "live"), s) }]⟩
    let e : Engine := {
      cache := none
      library := live.replace shout
      sources := .preview
      maxDepth := 3
      maxDepth_pos := by decide }
    let e' : Engine := {
      cache := some (.ofCapacity 2)
      library := Library.standard.replace { shout with description := "Louder" }
      sources := { Sources.preview with now := .int 7 }
      maxDepth := 3
      maxDepth_pos := by decide }
    let d : Engine := { e with library := Library.standard.replace shout }
    let samples := [("name", "Ada")]
    let template := "$\x7bshout('hi')\x7d $\x7buuid()\x7d $\x7bname\x7d"
    let draw : Nat → Int := fun _ => 0
    e.PreviewsLike e' ∧ d.IsPreviewer e draw ∧
      (∃ s, (Store.ofEngine e').1.preview (Store.ofEngine e').2 samples template {} draw =
        some (e'.preview samples template {} draw, s) ∧ s.load? (Store.ofEngine e').2 = some e') ∧
      (e.preview samples template {} draw).map Trace.untimed =
        (e'.preview samples template { id := "other" } draw).map Trace.untimed ∧
      ∃ c, (d.resolve c template {}).1 = e.preview samples template {} draw := by
  intro shout live e e' d samples template draw
  have hcustom : ∀ n, e.library.custom? n = if shout.name = n then some shout else none := by
    intro n
    rw [Library.custom?_replace live rfl, Library.custom?_of_builtIn (by simp [live, Function.uuid])]
  have hlike : e.PreviewsLike e' := by
    refine ⟨rfl, rfl, fun n => ?_⟩
    rw [hcustom, Library.custom?_replace Library.standard rfl, Library.custom?_of_builtIn (by decide)]
    split_ifs with hn
    · exact .some ⟨rfl, rfl, fun _ _ => rfl⟩
    · exact .none
  have hd : d.IsPreviewer e draw := by
    refine ⟨rfl, rfl, rfl, rfl, fun n => ?_⟩
    rw [hcustom, Library.get?_replace]
    split_ifs <;> rfl
  obtain ⟨hstore, -, -⟩ := preview_isolated e' samples template draw
  obtain ⟨-, halike, r, -, hpreviewer⟩ := preview_isolated e samples template draw
  obtain ⟨s, hs, -, hframe⟩ := hstore _ _ {} (Store.load?_ofEngine e')
  exact ⟨hlike, hd, ⟨s, hs, hframe _ _ (Store.load?_ofEngine e')⟩,
    halike e' hlike {} { id := "other" }, _, hpreviewer d hd {}⟩

end Engine
end Stencil
